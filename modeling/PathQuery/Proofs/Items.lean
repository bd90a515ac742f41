/-
This file says which nodes the items of a query ask for. The node of an item has the type that the
item mentions, the conditions of its modifiers in order, and the attributes that they ask to show,
each in the place where it is asked for first. All nodes are read under the same profiles, and none
of these occurs twice.
-/

import PathQuery.Plan.Compile
import PathQuery.Proofs.Demands
import PathQuery.Proofs.Recording
import PathQuery.Proofs.Steps

namespace PathQuery

theorem eraseDups_of_nodup {α : Type} [BEq α] [LawfulBEq α] [DecidableEq α] {list : List α}
    (distinct : list.Nodup) : list.eraseDups = list := by
  induction list using List.reverseRecOn with
  | nil => rfl
  | append_singleton list last inductionHypothesis =>
    obtain ⟨distinct, -, apart⟩ := List.nodup_append.mp distinct
    have fresh : last ∉ list := fun member => apart last member last (List.mem_singleton_self _) rfl
    rw [eraseDups_append_single, if_neg fresh, inductionHypothesis distinct]

/-- Repetitions may be erased early. -/
theorem eraseDups_eraseDups_append {α : Type} [BEq α] [LawfulBEq α] [DecidableEq α]
    (first second : List α) :
    (first.eraseDups ++ second).eraseDups = (first ++ second).eraseDups := by
  have same : second.removeAll first.eraseDups = second.removeAll first := by
    refine List.filter_congr fun element _ => ?_
    rw [Bool.eq_iff_iff, Bool.not_eq_true', Bool.not_eq_true', ← Bool.not_eq_true,
      ← Bool.not_eq_true, List.elem_iff, List.elem_iff, List.mem_eraseDups]
  rw [List.eraseDups_append, List.eraseDups_append, same, eraseDups_of_nodup (nodup_eraseDups _)]

namespace Plan

/-! ### What modifiers ask for -/

/-- The attributes that a modifier asks to show of a type. -/
def shown (topology : Topology) (kind : ResourceType) : Modifier → List String
  | .show .all => (topology.attrs? kind).getD []
  | .show (.named names) => names
  | .search _ => []

/-- The condition that a modifier sets. -/
def searched : Modifier → Option Condition
  | .show _ => none
  | .search condition => some condition

variable {topology : Topology} {kind : ResourceType}

/-- A modifier that is accepted adds its attributes and its condition. -/
theorem add_ok {asked next : Asked} {modifier : Modifier} {before : List String}
    (so : asked.attrs = before.eraseDups) (added : asked.add topology kind modifier = .ok next) :
    next.attrs = (before ++ shown topology kind modifier).eraseDups ∧
      next.conditions = asked.conditions ++ (searched modifier).toList := by
  unfold Asked.add at added
  split at added
  · cases added
    rw [Asked.withAttrs, so, eraseDups_eraseDups_append]
    exact ⟨rfl, (List.append_nil _).symm⟩
  · split at added
    · cases added
    · cases added
      rw [Asked.withAttrs, so, eraseDups_eraseDups_append]
      exact ⟨rfl, (List.append_nil _).symm⟩
  · split at added
    · cases added
      rw [so, shown, List.append_nil]
      exact ⟨rfl, rfl⟩
    · cases added

/-- Modifiers that are all accepted add their attributes and their conditions in order. -/
theorem foldlM_add_ok {modifiers : List Modifier} {asked last : Asked} {before : List String}
    (so : asked.attrs = before.eraseDups)
    (folded : modifiers.foldlM (Asked.add topology kind) asked = .ok last) :
    last.attrs = (before ++ modifiers.flatMap (shown topology kind)).eraseDups ∧
      last.conditions = asked.conditions ++ modifiers.filterMap searched := by
  induction modifiers generalizing asked before with
  | nil =>
    cases folded
    rw [List.flatMap_nil, List.append_nil, List.filterMap_nil, List.append_nil]
    exact ⟨so, rfl⟩
  | cons modifier rest inductionHypothesis =>
    rw [List.foldlM_cons, bind_eq_ok] at folded
    obtain ⟨next, added, folded⟩ := folded
    obtain ⟨attrs, conditions⟩ := add_ok so added
    obtain ⟨allAttrs, allConditions⟩ := inductionHypothesis attrs folded
    rw [List.flatMap_cons, ← List.append_assoc]
    refine ⟨allAttrs, ?_⟩
    rw [allConditions, conditions, List.append_assoc]
    cases asks : searched modifier with
    | none => rw [List.filterMap_cons_none asks, Option.toList_none, List.nil_append]
    | some condition => rw [List.filterMap_cons_some asks]; rfl

/-! ### The node of an item -/

variable {readers : List Reader} {profiles : List String}

/-- A node is as an item of a query asks for it. -/
structure Realises (topology : Topology) (readers : List Reader) (profiles : List String)
    (item : QueryItem) (spec : Spec) : Prop where
  kind : item.mention.resolve topology = .ok spec.kind
  profiles : spec.profiles = profiles
  attrs : spec.attrs = (item.modifiers.flatMap (shown topology spec.kind)).eraseDups
  conditions : spec.conditions = item.modifiers.filterMap searched
  reader : Reader.ofSpace? readers spec.kind.space = some spec.reader

/-- A node between two items: whole records of a type, under no condition. -/
structure IsHop (readers : List Reader) (profiles : List String) (spec : Spec) : Prop where
  profiles : spec.profiles = profiles
  attrs : spec.attrs = []
  conditions : spec.conditions = []
  reader : Reader.ofSpace? readers spec.kind.space = some spec.reader

theorem readerFor_ok {reader : Reader} (found : readerFor readers kind = .ok reader) :
    Reader.ofSpace? readers kind.space = some reader := by
  unfold readerFor at found
  split at found
  · rename_i held
    cases found
    exact held
  · cases found

/-- An item that is accepted gets the node that it asks for. -/
theorem specOf_ok {item : QueryItem} {spec : Spec}
    (accepted : specOf topology readers profiles item = .ok spec) :
    Realises topology readers profiles item spec := by
  obtain ⟨kind, resolved, accepted⟩ := bind_eq_ok.mp accepted
  obtain ⟨asked, folded, accepted⟩ := bind_eq_ok.mp accepted
  obtain ⟨reader, found, accepted⟩ := bind_eq_ok.mp accepted
  cases accepted
  obtain ⟨attrs, conditions⟩ := @foldlM_add_ok _ _ _ _ _ [] rfl folded
  exact ⟨resolved, rfl, attrs, conditions, readerFor_ok found⟩

theorem hopSpec_ok {spec : Spec} (accepted : hopSpec readers profiles kind = .ok spec) :
    spec.kind = kind ∧ IsHop readers profiles spec := by
  obtain ⟨reader, found, accepted⟩ := bind_eq_ok.mp accepted
  cases accepted
  exact ⟨rfl, rfl, rfl, rfl, readerFor_ok found⟩

/-! ### The profiles of a query -/

theorem nodup_offered {offer : List String} (found : offered readers = .ok offer) :
    offer.Nodup := by
  simp only [offered] at found
  split at found
  · cases found
    exact Dict.keys_nodup _
  · cases found

theorem nodup_selected {choice : ProfileChoice} {offer : List String} (distinct : offer.Nodup)
    (chosen : selected choice offer = .ok profiles) : profiles.Nodup := by
  unfold selected at chosen
  split at chosen
  · cases chosen
    exact distinct
  · cases chosen
    exact distinct
  · split at chosen
    · cases chosen
    · cases chosen
      exact nodup_eraseDups _

end Plan

end PathQuery
