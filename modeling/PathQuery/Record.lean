/-
This file defines records and the selection of records. A record is read under a
profile, has an identifier there, and carries properties in a fixed order. A
selection keeps the records that meet every condition and narrows each of them to
the attributes asked for. Equality conditions on one attribute are alternatives;
every inequality condition excludes its value.
-/

import PathQuery.Condition

namespace PathQuery

/-! ### Properties -/

/-- Named values in the order in which their names were first given. -/
abbrev Properties := List (String × String)

namespace Properties

/-- The value given to a name. -/
def get? (properties : Properties) (name : String) : Option String :=
  List.lookup name properties

/-- Gives a value to a name: a name already there keeps its place, a new one goes last. -/
def put (name value : String) : Properties → Properties
  | [] => [(name, value)]
  | (other, held) :: rest =>
    if other = name then (name, value) :: rest else (other, held) :: put name value rest

/-- The properties that a list of pairs gives, from first to last. -/
def ofPairs (pairs : List (String × String)) : Properties :=
  pairs.foldl (fun properties pair => properties.put pair.1 pair.2) []

/-- Keeps the named properties, in the order of the names; no names at all keep everything. -/
def project (properties : Properties) (attrs : List String) : Properties :=
  if attrs.isEmpty then properties
  else ofPairs (attrs.filterMap fun attr => (properties.get? attr).map fun value => (attr, value))

/-- Whether two lists of properties give the same values to the same names, in any order. -/
def agrees (first second : Properties) : Bool :=
  first.length == second.length && first.all fun pair => second.get? pair.1 == some pair.2

end Properties

/-! ### Records -/

/-- One record of a resource type, as it was read under a profile. -/
structure Record where
  profile : String
  identifier : String
  properties : Properties
  deriving DecidableEq

/-- The attribute whose value is the identifier when no property of that name is there. -/
def identifierAttr : String := "id"

namespace Record

/-- The value of an attribute of a record: the property of that name, or the identifier. -/
def value? (record : Record) (attr : String) : Option String :=
  match record.properties.get? attr with
  | some value => some value
  | none => if attr = identifierAttr then some record.identifier else none

/-- Narrows a record to the attributes asked for. -/
def project (record : Record) (attrs : List String) : Record :=
  { record with properties := record.properties.project attrs }

/-- Whether two records are the same up to the order of their properties. -/
def agrees (first second : Record) : Bool :=
  first.profile == second.profile && first.identifier == second.identifier &&
    first.properties.agrees second.properties

end Record

/-! ### What a list of conditions demands of one attribute -/

/-- The values that conditions accept and reject for one attribute. With no accepted value the
conditions ask for none in particular. -/
structure Demand where
  attr : String
  accepted : List String
  rejected : List String
  deriving DecidableEq

namespace Demand

/-- The demand of a single condition. -/
def ofCondition (condition : Condition) : Demand :=
  match condition.comparison with
  | .equal => ⟨condition.attr, [condition.value], []⟩
  | .unequal => ⟨condition.attr, [], [condition.value]⟩

/-- Adds the values of one demand to another on the same attribute. -/
def merge (demand further : Demand) : Demand :=
  ⟨demand.attr, demand.accepted ++ further.accepted, demand.rejected ++ further.rejected⟩

/-- Adds a demand to a list that holds at most one demand for each attribute. -/
def insert (further : Demand) : List Demand → List Demand
  | [] => [further]
  | demand :: rest =>
    if demand.attr = further.attr then demand.merge further :: rest
    else demand :: insert further rest

/-- The demands of a list of conditions, one for each attribute that it names. -/
def ofConditions (conditions : List Condition) : List Demand :=
  conditions.foldl (fun demands condition => insert (ofCondition condition) demands) []

/-- Whether a value, or the lack of one, meets a demand. -/
def isMetBy (demand : Demand) : Option String → Bool
  | none => demand.accepted.isEmpty
  | some value =>
    (demand.accepted.isEmpty || demand.accepted.contains value) &&
      !demand.rejected.contains value

end Demand

namespace Record

/-- Whether a record meets a list of conditions. -/
def meets (record : Record) (conditions : List Condition) : Bool :=
  (Demand.ofConditions conditions).all fun demand => demand.isMetBy (record.value? demand.attr)

/-- Keeps the records that meet the conditions, narrowed to the attributes asked for. -/
def select (records : List Record) (attrs : List String) (conditions : List Condition) :
    List Record :=
  (records.filter (·.meets conditions)).map (·.project attrs)

end Record

end PathQuery
