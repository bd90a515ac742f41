/-
This file says what the written form of a type tells of it. A text is read as the type whose
namespace ends at its first dot, so a type without a dot in its namespace is read back from its
written form. The written form of any other type is read as a type that is not it.
-/

import PathQuery.ResourceType

namespace PathQuery.ResourceType

/-- No dot stands in the namespace. -/
def Dotless (kind : ResourceType) : Prop := '.' ∉ kind.space.toList

/-- A text is the written form of a type, which has a namespace without a dot and a name. -/
structure IsWritten (kind : ResourceType) (written : String) : Prop where
  spaced : kind.space ≠ ""
  named : kind.name ≠ ""
  dotless : kind.Dotless
  text : kind.text = written

/-- A written form is cut after the namespace where there is no dot in that. -/
theorem Dotless.splitFirst {kind : ResourceType} (dotless : kind.Dotless) :
    Text.splitFirst '.' kind.text.toList = some (kind.space.toList, kind.name.toList) := by
  rw [text, String.toList_append, String.toList_append, List.append_assoc]
  exact Text.splitFirst_append kind.name.toList dotless

theorem dotless_of_ofText? {written : String} {kind : ResourceType}
    (read : ofText? written = some kind) : kind.Dotless := by
  rw [ofText?] at read
  split at read
  · cases read
  · next space name cut =>
    split at read
    · cases read
    · cases read
      rw [Dotless, String.toList_ofList]
      exact Text.not_mem_of_splitFirst cut

/-- A text is read as a type exactly where it is the written form of that. -/
theorem ofText?_eq_some_iff {written : String} {kind : ResourceType} :
    ofText? written = some kind ↔ kind.IsWritten written := by
  constructor
  · intro read
    have dotless := dotless_of_ofText? read
    rw [ofText?] at read
    split at read
    · cases read
    · next space name cut =>
      split at read
      · cases read
      · next full =>
        cases read
        rw [Bool.or_eq_true, List.isEmpty_iff, List.isEmpty_iff, not_or] at full
        refine ⟨fun none => full.1 (String.ofList_eq_empty_iff.mp none),
          fun none => full.2 (String.ofList_eq_empty_iff.mp none), dotless, ?_⟩
        rw [← String.toList_inj, ← Text.append_of_splitFirst cut]
        simp only [text, String.toList_append, String.toList_ofList, List.append_assoc]
        rfl
  · rintro ⟨spaced, named, dotless, rfl⟩
    have full : ¬ (kind.space.toList.isEmpty || kind.name.toList.isEmpty) = true := by
      rw [Bool.or_eq_true, List.isEmpty_iff, List.isEmpty_iff, String.toList_eq_nil_iff,
        String.toList_eq_nil_iff, not_or]
      exact ⟨spaced, named⟩
    rw [ofText?, dotless.splitFirst]
    show (if _ then none else some _) = some kind
    rw [if_neg full, String.ofList_toList, String.ofList_toList]

/-- A text that is read as no type is the written form of none. -/
theorem ofText?_eq_none_iff {written : String} :
    ofText? written = none ↔ ¬ ∃ kind : ResourceType, kind.IsWritten written := by
  rw [Option.eq_none_iff_forall_ne_some, not_exists]
  exact forall_congr' fun kind => not_congr ofText?_eq_some_iff

/-- Types without a dot in their namespaces are told apart by their written forms. -/
theorem eq_of_text_eq {first second : ResourceType} (dotless : first.Dotless)
    (dotlessToo : second.Dotless) (same : first.text = second.text) : first = second := by
  have halves := dotless.splitFirst.symm.trans (same ▸ dotlessToo.splitFirst)
  obtain ⟨space, name⟩ := Prod.mk.inj (Option.some.inj halves)
  obtain ⟨firstSpace, firstName⟩ := first
  cases String.toList_inj.mp space
  cases String.toList_inj.mp name
  rfl

/-- A text is the written form of one type at most. -/
theorem IsWritten.unique {first second : ResourceType} {written : String}
    (isWritten : first.IsWritten written) (also : second.IsWritten written) : first = second :=
  eq_of_text_eq isWritten.dotless also.dotless (isWritten.text.trans also.text.symm)

end PathQuery.ResourceType
