/-
This file defines the identity of a kind of resource. A resource type belongs to
a namespace and has a name there; it is written with a dot between the two, and
resource types are listed in the order of their written forms.
-/

import PathQuery.Text.Split

namespace PathQuery

/-- A kind of resource: the namespace that owns it and its name there. -/
structure ResourceType where
  space : String
  name : String
  deriving DecidableEq

namespace ResourceType

/-- The written form, `namespace.name`. -/
def text (kind : ResourceType) : String :=
  kind.space ++ "." ++ kind.name

/-- Reads a written form. The first dot ends the namespace, so a name may hold further dots;
neither side may be empty. -/
def ofText? (written : String) : Option ResourceType :=
  match Text.splitFirst '.' written.toList with
  | none => none
  | some (space, name) =>
    if space.isEmpty || name.isEmpty then none
    else some ⟨String.ofList space, String.ofList name⟩

/-- Resource types are ordered by their written forms. -/
instance : Ord ResourceType where
  compare first second := compare first.text second.text

/-- Two resource types that are written alike share one place in a listing. -/
def writtenAlike (first second : ResourceType) : Bool :=
  first.text == second.text

end ResourceType

end PathQuery
