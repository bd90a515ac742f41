/-
This file defines readers. A reader owns a namespace, advertises profiles, brings schema
documents, and answers requests for the records of a type.
-/

import PathQuery.Reader.Error
import PathQuery.Topology.Load

namespace PathQuery

/-- A request to a reader: the name of a type, the profiles to read under, the attributes to keep
(all of them where none is named), and the conditions to meet. -/
structure Request where
  typeName : String
  profiles : List String
  attrs : List String
  conditions : List Condition
  deriving DecidableEq

/-- The answer of a reader. A reader that breaks down may say why. -/
inductive Answer where
  | records (found : List Record)
  | failed (error : Reader.Error)
  | broken (reason : Option String)

/-- The records that an answer brings and the message for what went wrong, if anything did. -/
def Answer.parts : Answer → List Record × Option String
  | records found => (found, none)
  | failed error => (error.parts.1, some error.parts.2)
  | broken reason => ([], some ("reader panicked: " ++ reason.getD "unknown panic"))

/-- A source of records for one namespace. -/
structure Reader where
  space : String
  profiles : List String
  documents : Topology.Documents
  fetch : Request → Answer

namespace Reader

/-- The reader of a namespace. Of several the last one counts. -/
def ofSpace? (readers : List Reader) (space : String) : Option Reader :=
  readers.reverse.find? (·.space == space)

/-- Loads the topology of several readers. -/
def topology (readers : List Reader) : Except Topology.LoadError Topology :=
  Topology.load (readers.map (·.documents))

end Reader

end PathQuery
