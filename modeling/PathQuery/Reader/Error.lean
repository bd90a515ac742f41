/-
This file defines the failures of readers and how they are told. A failure may come with
the records that were read before it.
-/

import PathQuery.File.Tree
import PathQuery.Json.Fault
import PathQuery.Record
import PathQuery.Yaml.Fault

namespace PathQuery.Reader

/-- What can be wrong with the data of a reader. -/
inductive DataFault where
  | json (error : Json.Error)
  | yaml (fault : Yaml.Fault)
  | noIdentifier (index : Nat)
  | badSpace (space : String)
  | told (message : String)

/-- The message for what is wrong with data. -/
def DataFault.message : DataFault → String
  | json error => error.message
  | yaml fault => fault.message
  | noIdentifier index =>
    "record " ++ toString index ++ " has no \"" ++ identifierAttr ++ "\" field"
  | badSpace space => "invalid namespace \"" ++ space ++ "\""
  | told message => message

/-- The failures of a reader. -/
inductive Error where
  | fetch (typeName message : String)
  | unreadable (path : String) (fault : File.Fault)
  | badData (path : String) (fault : DataFault)
  | partially (records : List Record) (cause : Error)

namespace Error

/-- The message for a failure. -/
def message : Error → String
  | fetch typeName message => "fetch failed for " ++ typeName ++ ": " ++ message
  | unreadable path fault => "cannot read " ++ path ++ ": " ++ fault.message
  | badData path fault => "invalid reader data " ++ path ++ ": " ++ fault.message
  | partially records cause =>
    cause.message ++ " (" ++ toString records.length ++ " item(s) read before the failure)"

/-- The records that were read before a failure, and the message for the failure itself. -/
def parts : Error → List Record × String
  | partially records cause => (records, cause.message)
  | error => ([], error.message)

end Error

end PathQuery.Reader
