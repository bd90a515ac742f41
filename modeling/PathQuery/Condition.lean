/-
This file defines the conditions that a record is tested against: an attribute is
compared with a value for equality or for inequality.
-/

namespace PathQuery

/-- How the value of an attribute is compared with the value of a condition. -/
inductive Comparison where
  | equal
  | unequal
  deriving DecidableEq

namespace Comparison

/-- The word that stands for a comparison in a query and in a listing. -/
def keyword : Comparison → String
  | equal => "eq"
  | unequal => "ne"

/-- The comparison that a word stands for. -/
def ofKeyword? (word : String) : Option Comparison :=
  if word = "eq" then some equal else if word = "ne" then some unequal else none

/-- A word stands for a comparison exactly when it is that comparison's keyword. -/
theorem ofKeyword?_eq_some_iff {word : String} {comparison : Comparison} :
    ofKeyword? word = some comparison ↔ word = comparison.keyword := by
  cases comparison <;> simp only [ofKeyword?, keyword] <;> split <;> simp_all

end Comparison

/-- An attribute, a comparison and the value it is compared with. -/
structure Condition where
  attr : String
  comparison : Comparison
  value : String
  deriving DecidableEq

namespace Condition

/-- The condition that an attribute has a value. -/
def equals (attr value : String) : Condition :=
  ⟨attr, .equal, value⟩

/-- The written form of a condition: attribute, keyword and value. -/
def text (condition : Condition) : String :=
  condition.attr ++ " " ++ condition.comparison.keyword ++ " " ++ condition.value

end Condition

end PathQuery
