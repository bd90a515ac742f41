/-
This file defines results: groups of items, one group for every task that was completed.
A result finds groups by identity, the root groups, the groups under an item, and the
group that an item belongs to; each of these follows the order of identities.
-/

import PathQuery.Dict
import PathQuery.Record
import PathQuery.ResourceType

namespace PathQuery

namespace Result

/-- A record inside its group. The query error is that of the fetch which brought the record; there
is a link error for every link whose source attribute the record lacks. -/
structure Item where
  id : String
  group : String
  record : Record
  queryError : Option String
  linkErrors : List String
  deriving DecidableEq

/-- What a task found. The link holds the conditions that its parent item sets; the root has
none. -/
structure Group where
  id : String
  node : String
  kind : ResourceType
  items : List Item
  link : List Condition
  linkError : Option String
  fetchError : Option String
  parent : Option String
  deriving DecidableEq

/-- Whether a group is a root. -/
def Group.isRoot (group : Group) : Bool := group.parent.isNone

end Result

/-- The groups of a run and the ways to find them. -/
structure Result where
  groups : Dict Result.Group
  roots : NameSet
  children : Dict NameSet
  owners : Dict String
  deriving DecidableEq

namespace Result

/-- The result without groups. -/
def empty : Result := ⟨.empty, .empty, .empty, .empty⟩

/-! ### Recording -/

/-- Notes a group under its parent item. -/
def noteChild (children : Dict NameSet) (parent group : String) : Dict NameSet :=
  children.insert parent (((children.get? parent).getD .empty).insert group ())

/-- Notes the items of a group. -/
def noteOwners (owners : Dict String) (group : Group) : Dict String :=
  group.items.foldl (fun owners item => owners.insert item.id group.id) owners

/-- Records a group, as a root or under its parent item. It takes the place of a group with the same
identity. -/
def record (result : Result) (group : Group) : Result where
  groups := result.groups.insert group.id group
  roots := if group.isRoot then result.roots.insert group.id () else result.roots
  children :=
    match group.parent with
    | some parent => noteChild result.children parent group.id
    | none => result.children
  owners := noteOwners result.owners group

/-- The result of recording groups in order. -/
def ofGroups (groups : List Group) : Result :=
  groups.foldl record empty

/-! ### Questions -/

/-- The group with an identity. -/
def group? (result : Result) (id : String) : Option Group :=
  result.groups.get? id

/-- The item with an identity, in the group that it was last recorded with. -/
def item? (result : Result) (id : String) : Option Item := do
  let owner ← result.owners.get? id
  let group ← result.group? owner
  group.items.find? (·.id == id)

/-- The groups without a parent item. -/
def rootGroups (result : Result) : List Group :=
  result.roots.keys.filterMap result.group?

/-- The groups under an item. -/
def childGroups (result : Result) (item : String) : List Group :=
  ((result.children.get? item).getD .empty).keys.filterMap result.group?

/-- The number of groups. -/
def size (result : Result) : Nat := result.groups.size

/-- The number of items, told apart by their identities. -/
def itemCount (result : Result) : Nat := result.owners.size

/-! ### Agreement -/

/-- Whether two items are the same up to the order of the properties of their records. -/
def Item.agrees (first second : Item) : Bool :=
  first.id == second.id && first.group == second.group && first.record.agrees second.record &&
    first.queryError == second.queryError && first.linkErrors == second.linkErrors

/-- Whether two lists are as long as each other and agree place by place. -/
def agreeAll {α : Type} (agree : α → α → Bool) : List α → List α → Bool
  | [], [] => true
  | first :: rest, second :: others => agree first second && agreeAll agree rest others
  | _, _ => false

/-- Whether two groups are the same up to the order of properties. -/
def Group.agrees (first second : Group) : Bool :=
  first.id == second.id && first.node == second.node && first.kind == second.kind &&
    agreeAll Item.agrees first.items second.items && first.link == second.link &&
    first.linkError == second.linkError && first.fetchError == second.fetchError &&
    first.parent == second.parent

/-- Whether two results are the same up to the order of properties. -/
def agrees (first second : Result) : Bool :=
  agreeAll Group.agrees first.groups.values second.groups.values &&
    first.groups.keys == second.groups.keys && decide (first.roots = second.roots) &&
    decide (first.children = second.children) && decide (first.owners = second.owners)

end Result

end PathQuery
