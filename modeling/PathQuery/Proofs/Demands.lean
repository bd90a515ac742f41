/-
This file says when a record meets a list of conditions. The conditions are gathered into one demand
for each attribute that they name: a value has to be one of those asked for, where any is asked for,
and none of those ruled out. A condition that is added to a list therefore widens what the list
accepts where the list asks for values of the same attribute already, and narrows it elsewhere.
-/

import Mathlib.Data.List.Induction
import Mathlib.Data.List.Nodup
import Mathlib.Logic.Basic
import PathQuery.Record

namespace PathQuery

/-! ### Lists without repetitions -/

/-- An element that comes last is kept only where it is new. -/
theorem eraseDups_append_single {α : Type} [BEq α] [LawfulBEq α] [DecidableEq α] (list : List α)
    (last : α) : (list ++ [last]).eraseDups =
      if last ∈ list then list.eraseDups else list.eraseDups ++ [last] := by
  rw [List.eraseDups_append, List.removeAll]
  by_cases member : last ∈ list
  · rw [if_pos member, List.filter_cons_of_neg (by simpa using member), List.filter_nil,
      List.eraseDups_nil, List.append_nil]
  · rw [if_neg member, List.filter_cons_of_pos (by simpa using member), List.filter_nil,
      List.eraseDups_cons, List.filter_nil, List.eraseDups_nil]

theorem nodup_eraseDups {α : Type} [BEq α] [LawfulBEq α] [DecidableEq α] (list : List α) :
    list.eraseDups.Nodup := by
  induction list using List.reverseRecOn with
  | nil => exact List.nodup_nil
  | append_singleton list last inductionHypothesis =>
    rw [eraseDups_append_single]
    by_cases member : last ∈ list
    · rwa [if_pos member]
    · rw [if_neg member]
      refine List.nodup_append.mpr ⟨inductionHypothesis, List.nodup_singleton last, ?_⟩
      intro other given one single same
      rw [List.mem_singleton.mp single] at same
      exact member (same ▸ List.mem_eraseDups.mp given)

namespace Demand

/-! ### One demand for each attribute -/

/-- What a list of conditions demands of one attribute. -/
def on (conditions : List Condition) (attr : String) : Demand where
  attr := attr
  accepted := (conditions.filter fun condition =>
    condition.attr = attr ∧ condition.comparison = .equal).map (·.value)
  rejected := (conditions.filter fun condition =>
    condition.attr = attr ∧ condition.comparison = .unequal).map (·.value)

theorem mem_accepted {conditions : List Condition} {attr value : String} :
    value ∈ (on conditions attr).accepted ↔ .equals attr value ∈ conditions := by
  simp only [on, List.mem_map, List.mem_filter, decide_eq_true_eq]
  constructor
  · rintro ⟨⟨_, _, _⟩, ⟨member, rfl, rfl⟩, rfl⟩
    exact member
  · exact fun member => ⟨_, ⟨member, rfl, rfl⟩, rfl⟩

theorem mem_rejected {conditions : List Condition} {attr value : String} :
    value ∈ (on conditions attr).rejected ↔ (⟨attr, .unequal, value⟩ : Condition) ∈ conditions := by
  simp only [on, List.mem_map, List.mem_filter, decide_eq_true_eq]
  constructor
  · rintro ⟨⟨_, _, _⟩, ⟨member, rfl, rfl⟩, rfl⟩
    exact member
  · exact fun member => ⟨_, ⟨member, rfl, rfl⟩, rfl⟩

/-- One more condition adds to the demand on its own attribute only. -/
theorem on_append_single (conditions : List Condition) (last : Condition) (attr : String) :
    on (conditions ++ [last]) attr =
      if attr = last.attr then (on conditions attr).merge (ofCondition last)
      else on conditions attr := by
  obtain ⟨lastAttr, comparison, value⟩ := last
  by_cases same : attr = lastAttr
  · subst same
    cases comparison <;> simp [on, merge, ofCondition, List.filter_append]
  · have different : lastAttr ≠ attr := fun equal => same equal.symm
    rw [if_neg same]
    simp [on, List.filter_append, different]

/-- Inserting a demand merges it with the one on its attribute, or adds it last. -/
theorem insert_map {demands : String → Demand} (named : ∀ attr, (demands attr).attr = attr)
    (further : Demand) {attrs : List String} (distinct : attrs.Nodup) :
    insert further (attrs.map demands) =
      attrs.map (fun attr =>
        if attr = further.attr then (demands attr).merge further else demands attr) ++
      if further.attr ∈ attrs then [] else [further] := by
  induction attrs with
  | nil => rfl
  | cons attr rest inductionHypothesis =>
    obtain ⟨fresh, distinct⟩ := List.nodup_cons.mp distinct
    rw [List.map_cons, insert, named, List.map_cons]
    by_cases same : attr = further.attr
    · have elsewhere : rest.map (fun attr =>
          if attr = further.attr then (demands attr).merge further else demands attr) =
          rest.map demands := by
        refine List.map_congr_left fun other member => if_neg fun equal => fresh ?_
        rwa [same, ← equal]
      rw [if_pos same, if_pos same, elsewhere, if_pos (same ▸ List.mem_cons_self),
        List.append_nil]
    · have later : further.attr ∈ attr :: rest ↔ further.attr ∈ rest :=
        List.mem_cons.trans (or_iff_right fun equal => same equal.symm)
      rw [if_neg same, if_neg same, inductionHypothesis distinct, List.cons_append]
      simp only [later]

/-- The demands of a list of conditions are those on the attributes that it names, in the order in
which it names them first. -/
theorem ofConditions_eq (conditions : List Condition) :
    ofConditions conditions = ((conditions.map (·.attr)).eraseDups).map (on conditions) := by
  induction conditions using List.reverseRecOn with
  | nil => rfl
  | append_singleton conditions last inductionHypothesis =>
    have attr : (ofCondition last).attr = last.attr := by
      rw [ofCondition]
      split <;> rfl
    have grown : ofConditions (conditions ++ [last]) =
        insert (ofCondition last) (ofConditions conditions) := by
      rw [ofConditions, ofConditions, List.foldl_append, List.foldl_cons, List.foldl_nil]
    rw [grown, inductionHypothesis, insert_map (fun _ => rfl) _ (nodup_eraseDups _), attr,
      List.map_append, List.map_singleton, eraseDups_append_single]
    have grows : on (conditions ++ [last]) = fun attr =>
        if attr = last.attr then (on conditions attr).merge (ofCondition last)
        else on conditions attr := funext (on_append_single conditions last)
    simp only [grows, List.mem_eraseDups]
    by_cases named : last.attr ∈ conditions.map (·.attr)
    · rw [if_pos named, if_pos named, List.append_nil]
    · rw [if_neg named, if_neg named, List.map_append, List.map_singleton, if_pos rfl]
      refine congrArg (_ ++ [·]) ?_
      have nothing : ∀ comparison, conditions.filter (fun condition =>
          condition.attr = last.attr ∧ condition.comparison = comparison) = [] := by
        intro comparison
        refine List.filter_eq_nil_iff.mpr fun condition member => ?_
        rw [decide_eq_true_eq]
        exact fun both => named (List.mem_map.mpr ⟨condition, member, both.1⟩)
      rw [on, nothing, nothing]
      cases last with
      | mk attr comparison value => cases comparison <;> rfl

end Demand

/-! ### Meeting conditions -/

/-- A value, or the lack of one, meets what a list of conditions demands of an attribute: it is one
of the values asked for, if any is, and none of those ruled out. -/
def Condition.Admits (conditions : List Condition) (attr : String) (held : Option String) : Prop :=
  ((∃ value, .equals attr value ∈ conditions) →
    ∃ value, held = some value ∧ .equals attr value ∈ conditions) ∧
  ∀ value, (⟨attr, .unequal, value⟩ : Condition) ∈ conditions → held ≠ some value

namespace Record

theorem isMetBy_on {conditions : List Condition} {attr : String} {held : Option String} :
    (Demand.on conditions attr).isMetBy held = true ↔ Condition.Admits conditions attr held := by
  have none_asked : (Demand.on conditions attr).accepted.isEmpty = true ↔
      ¬ ∃ value, Condition.equals attr value ∈ conditions := by
    rw [List.isEmpty_iff, List.eq_nil_iff_forall_not_mem, not_exists]
    exact forall_congr' fun value => not_congr Demand.mem_accepted
  cases held with
  | none =>
    rw [Demand.isMetBy, none_asked, Condition.Admits]
    constructor
    · exact fun none => ⟨fun asked => absurd asked none, fun _ _ same => (by cases same)⟩
    · intro admits asked
      obtain ⟨_, same, -⟩ := admits.1 asked
      cases same
  | some value =>
    rw [Demand.isMetBy, Bool.and_eq_true, Bool.or_eq_true, none_asked, List.contains_iff_mem,
      Demand.mem_accepted, Bool.not_eq_true', List.contains_eq_mem, decide_eq_false_iff_not,
      Demand.mem_rejected, Condition.Admits]
    refine and_congr ?_ ⟨fun allowed other member same => ?_, fun allowed member => ?_⟩
    · rw [← imp_iff_not_or]
      refine imp_congr_right fun _ => ⟨fun member => ⟨value, rfl, member⟩, ?_⟩
      rintro ⟨other, same, member⟩
      rwa [Option.some.inj same]
    · exact allowed (Option.some.inj same ▸ member)
    · exact allowed value member rfl

/-- A record meets conditions where they admit its value for every attribute. -/
theorem meets_iff {record : Record} {conditions : List Condition} :
    record.meets conditions = true ↔
      ∀ attr, Condition.Admits conditions attr (record.value? attr) := by
  rw [meets, Demand.ofConditions_eq, List.all_map, List.all_eq_true]
  simp only [Function.comp_apply, List.mem_eraseDups]
  constructor
  · intro met attr
    by_cases named : attr ∈ conditions.map (·.attr)
    · exact isMetBy_on.mp (met attr named)
    · constructor
      · rintro ⟨value, member⟩
        exact absurd (List.mem_map.mpr ⟨_, member, rfl⟩) named
      · intro value member
        exact absurd (List.mem_map.mpr ⟨_, member, rfl⟩) named
  · exact fun admits attr _ => isMetBy_on.mpr (admits attr)

/-! ### One more value asked for -/

/-- Asking for a value of one attribute changes nothing for the others. -/
theorem admits_append_other {conditions : List Condition} {attr value other : String}
    (different : other ≠ attr) {held : Option String} :
    Condition.Admits (conditions ++ [.equals attr value]) other held ↔
      Condition.Admits conditions other held := by
  have same : ∀ comparison content, (⟨other, comparison, content⟩ : Condition) ∈
      conditions ++ [.equals attr value] ↔
      (⟨other, comparison, content⟩ : Condition) ∈ conditions := by
    intro comparison content
    rw [List.mem_append, List.mem_singleton, Condition.equals, Condition.mk.injEq]
    exact or_iff_left fun equal => different equal.1
  simp only [Condition.Admits, Condition.equals] at same ⊢
  simp only [same]

/-- Asking for a value of an attribute accepts it beside the values asked for before. -/
theorem admits_append_same {conditions : List Condition} {attr value : String}
    {held : Option String} :
    Condition.Admits (conditions ++ [.equals attr value]) attr held ↔
      (∃ content, held = some content ∧
        (.equals attr content ∈ conditions ∨ content = value)) ∧
      ∀ content, (⟨attr, .unequal, content⟩ : Condition) ∈ conditions → held ≠ some content := by
  have asked : ∀ content, .equals attr content ∈ conditions ++ [.equals attr value] ↔
      .equals attr content ∈ conditions ∨ content = value := by
    intro content
    rw [List.mem_append, List.mem_singleton, Condition.equals, Condition.equals,
      Condition.mk.injEq]
    exact or_congr_right ⟨fun same => same.2.2, fun same => ⟨rfl, rfl, same⟩⟩
  have ruledOut : ∀ content, (⟨attr, .unequal, content⟩ : Condition) ∈
      conditions ++ [.equals attr value] ↔
      (⟨attr, .unequal, content⟩ : Condition) ∈ conditions := by
    intro content
    rw [List.mem_append, List.mem_singleton, Condition.equals, Condition.mk.injEq]
    exact or_iff_left fun same => by cases same.2.1
  rw [Condition.Admits]
  simp only [asked, ruledOut]
  exact and_congr_left' ⟨fun given => given ⟨value, .inr rfl⟩, fun given _ => given⟩

variable {record : Record} {conditions : List Condition} {attr value : String}

/-- A record that meets conditions and has a value is let in where the value is asked for too. -/
theorem meets_append (met : record.meets conditions = true)
    (held : record.value? attr = some value) :
    record.meets (conditions ++ [.equals attr value]) = true := by
  refine meets_iff.mpr fun other => ?_
  by_cases same : other = attr
  · subst same
    exact admits_append_same.mpr ⟨⟨value, held, .inr rfl⟩, (meets_iff.mp met other).2⟩
  · exact (admits_append_other same).mpr (meets_iff.mp met other)

/-- A record that is let in has the value added last, or meets the conditions before it. -/
theorem joined_or_meets (met : record.meets (conditions ++ [.equals attr value]) = true) :
    record.value? attr = some value ∨ record.meets conditions = true := by
  rw [meets_iff] at met
  obtain ⟨⟨content, held, asked⟩, allowed⟩ := admits_append_same.mp (met attr)
  rcases asked with before | last
  · refine .inr (meets_iff.mpr fun other => ?_)
    by_cases same : other = attr
    · subst same
      exact ⟨fun _ => ⟨content, held, before⟩, allowed⟩
    · exact (admits_append_other same).mp (met other)
  · exact .inl (held.trans (congrArg some last))

/-- A record that is let in has the value added last and meets the conditions before it exactly
where these ask for no value of that attribute, or for this one and the record has it. -/
theorem joined_and_meets_iff (met : record.meets (conditions ++ [.equals attr value]) = true) :
    record.value? attr = some value ∧ record.meets conditions = true ↔
      (∀ content, .equals attr content ∉ conditions) ∨
        (record.value? attr = some value ∧ .equals attr value ∈ conditions) := by
  rw [meets_iff] at met
  obtain ⟨⟨content, held, asked⟩, allowed⟩ := admits_append_same.mp (met attr)
  constructor
  · rintro ⟨joined, meets⟩
    by_cases none : ∀ other, .equals attr other ∉ conditions
    · exact .inl none
    · simp only [not_forall, not_not] at none
      obtain ⟨other, same, member⟩ := (meets_iff.mp meets attr).1 none
      cases joined.symm.trans same
      exact .inr ⟨joined, member⟩
  · intro narrow
    have joined : record.value? attr = some value := by
      rcases narrow with none | ⟨joined, -⟩
      · rw [held, asked.resolve_left (none content)]
      · exact joined
    refine ⟨joined, meets_iff.mpr fun other => ?_⟩
    by_cases same : other = attr
    · subst same
      refine ⟨?_, allowed⟩
      rintro ⟨another, member⟩
      exact narrow.elim (fun none => absurd member (none another))
        fun both => ⟨value, both⟩
    · exact (admits_append_other same).mp (met other)

end Record

end PathQuery
