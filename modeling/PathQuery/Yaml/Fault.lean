/-
This file defines what can be wrong with a YAML document, and how that is told: it is not
well formed, or a value is not what its place asks for. A place is named by the way that
leads to it from the top of the document.
-/

import PathQuery.Decimal.Shortest
import PathQuery.Document.Mismatch

namespace PathQuery.Yaml

/-- A step on the way to a place of a document. The name of an entry is not told where an alias
stands for it. -/
inductive Step where
  | member (name : String)
  | unnamed
  | item (index : Nat)
  deriving DecidableEq

/-- The way to a place, from the top of the document. -/
abbrev Way := List Step

/-- The written form of the steps that follow a first one. -/
def furtherSteps : Way → String
  | [] => ""
  | .member name :: rest => "." ++ name ++ furtherSteps rest
  | .unnamed :: rest => ".?" ++ furtherSteps rest
  | .item index :: rest => "[" ++ toString index ++ "]" ++ furtherSteps rest

/-- The written form of a way. -/
def wayText : Way → String
  | .member name :: rest => name ++ furtherSteps rest
  | .unnamed :: rest => "?" ++ furtherSteps rest
  | way => furtherSteps way

/-- The reasons for refusing a document. -/
inductive Fault where
  | malformed
  | wrongType (way : Way) (found : Document.Found) (expected : String)
  | wrongValue (way : Way) (found : Document.Found) (expected : String)
  | unknownVariant (way : Way) (name : String) (names : List String)
  | unknownField (way : Way) (name : String) (names : List String)
  | missingField (way : Way) (name : String)
  | duplicateField (way : Way) (name : String)

/-- A fraction without an exponent, and with at least one digit after the point. Values that are
not finite go by their names. -/
def fractionText (value : Float) : String :=
  if value.isNaN then "NaN"
  else
    let bits := value.toBits.toNat
    let sign := if bits < Nat.pow 2 63 then "" else "-"
    let magnitude := bits % Nat.pow 2 63
    if value.isInf then sign ++ "inf"
    else if magnitude = 0 then sign ++ "0.0"
    else sign ++ String.ofList (Decimal.shortest magnitude).positional

/-- The words of YAML for nothing and for a fraction. -/
def wording : Document.Wording := ⟨"unit value", fractionText⟩

namespace Fault

/-- A complaint about a place, which is named unless it is the whole document. -/
def located (way : Way) (complaint : String) : String :=
  if way.isEmpty then complaint else wayText way ++ ": " ++ complaint

/-- The message for a fault. -/
def message : Fault → String
  | malformed => "the document is not well formed"
  | wrongType way found expected =>
    located way ("invalid type: " ++ found.describe wording ++ ", expected " ++ expected)
  | wrongValue way found expected =>
    located way ("invalid value: " ++ found.describe wording ++ ", expected " ++ expected)
  | unknownVariant way name names =>
    located way ("unknown variant " ++ Document.marked name ++ ", expected " ++
      Document.alternatives names)
  | unknownField way name names =>
    located way ("unknown field " ++ Document.marked name ++ ", expected " ++
      Document.alternatives names)
  | missingField way name => located way ("missing field " ++ Document.marked name)
  | duplicateField way name => located way ("duplicate field " ++ Document.marked name)

end Fault

end PathQuery.Yaml
