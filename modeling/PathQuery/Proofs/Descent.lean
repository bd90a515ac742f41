/-
This file proves that the search into the depth is exact: it finds a node exactly where one of the
nodes on the stack leads to it. What it has found is led to at every step. Where it gives up, the
nodes that it has seen lead to seen nodes only, and the one it looks for is not among them.
-/

import Mathlib.Logic.Relation
import Mathlib.Tactic.ByContra
import PathQuery.Graph.Descent

namespace PathQuery.Graph

variable {α : Type} [DecidableEq α] {adjacency : Adjacency α} {goal : α} {seen : List α}

/-- One node follows another. -/
def Adjacency.Follows (adjacency : Adjacency α) (node next : α) : Prop :=
  next ∈ adjacency.next node

/-! ### One step of the search -/

theorem descends_nil : descends adjacency goal seen [] = false := by
  rw [descends]

theorem descends_goal (rest : List α) : descends adjacency goal seen (goal :: rest) = true := by
  rw [descends, if_pos rfl]

/-- A node that has been seen is dropped from the stack. -/
theorem descends_of_seen {node : α} (rest : List α) (different : node ≠ goal)
    (known : seen.contains node = true) :
    descends adjacency goal seen (node :: rest) = descends adjacency goal seen rest := by
  rw [descends, if_neg different, dif_pos known]

/-- The nodes that follow a node take its place when it is seen for the first time. -/
theorem descends_of_fresh {node : α} (rest : List α) (different : node ≠ goal)
    (fresh : ¬ seen.contains node = true) :
    descends adjacency goal seen (node :: rest) =
      descends adjacency goal (node :: seen) ((adjacency.next node).reverse ++ rest) := by
  rw [descends, if_neg different, dif_neg fresh]

/-! ### What is found is led to -/

theorem descends_sound {stack : List α} (found : descends adjacency goal seen stack = true) :
    ∃ node ∈ stack, Relation.ReflTransGen adjacency.Follows node goal := by
  induction seen, stack using descends.induct adjacency goal with
  | case1 seen =>
    rw [descends_nil] at found
    cases found
  | case2 seen rest => exact ⟨goal, List.mem_cons_self, .refl⟩
  | case3 seen node rest different known inductionHypothesis =>
    rw [descends_of_seen rest different known] at found
    obtain ⟨start, waiting, path⟩ := inductionHypothesis found
    exact ⟨start, List.mem_cons_of_mem _ waiting, path⟩
  | case4 seen node rest different fresh _ inductionHypothesis =>
    rw [descends_of_fresh rest different fresh] at found
    obtain ⟨start, waiting, path⟩ := inductionHypothesis found
    rcases List.mem_append.mp waiting with follower | later
    · exact ⟨node, List.mem_cons_self, .head (List.mem_reverse.mp follower) path⟩
    · exact ⟨start, List.mem_cons_of_mem _ later, path⟩

/-! ### What is not found is not led to -/

/-- The nodes that have been seen are not the goal, and what follows them has been seen or waits. -/
structure Explored (adjacency : Adjacency α) (goal : α) (seen stack : List α) : Prop where
  missed : goal ∉ seen
  followed : ∀ node ∈ seen, ∀ next, adjacency.Follows node next → next ∈ seen ∨ next ∈ stack

theorem Explored.drop {node : α} {rest : List α}
    (explored : Explored adjacency goal seen (node :: rest)) (known : node ∈ seen) :
    Explored adjacency goal seen rest where
  missed := explored.missed
  followed earlier member next follows := by
    rcases explored.followed earlier member next follows with old | waiting
    · exact .inl old
    · rcases List.mem_cons.mp waiting with rfl | later
      · exact .inl known
      · exact .inr later

theorem Explored.expand {node : α} {rest : List α}
    (explored : Explored adjacency goal seen (node :: rest)) (different : node ≠ goal) :
    Explored adjacency goal (node :: seen) ((adjacency.next node).reverse ++ rest) where
  missed member := (List.mem_cons.mp member).elim (fun same => different same.symm) explored.missed
  followed earlier member next follows := by
    rcases List.mem_cons.mp member with rfl | old
    · exact .inr (List.mem_append_left _ (List.mem_reverse.mpr follows))
    · rcases explored.followed earlier old next follows with seenToo | waiting
      · exact .inl (List.mem_cons_of_mem _ seenToo)
      · rcases List.mem_cons.mp waiting with rfl | later
        · exact .inl List.mem_cons_self
        · exact .inr (List.mem_append_right _ later)

/-- With nothing on the stack, what seen nodes lead to has been seen. -/
theorem Explored.stays (explored : Explored adjacency goal seen []) {node last : α}
    (member : node ∈ seen) (path : Relation.ReflTransGen adjacency.Follows node last) :
    last ∈ seen := by
  induction path with
  | refl => exact member
  | tail _ follows inductionHypothesis =>
    exact (explored.followed _ inductionHypothesis _ follows).resolve_right List.not_mem_nil

theorem descends_complete {stack : List α} (explored : Explored adjacency goal seen stack)
    (missed : descends adjacency goal seen stack = false) {node : α}
    (member : node ∈ seen ∨ node ∈ stack) :
    ¬ Relation.ReflTransGen adjacency.Follows node goal := by
  induction seen, stack using descends.induct adjacency goal with
  | case1 seen =>
    exact fun path => explored.missed (explored.stays (member.resolve_right List.not_mem_nil) path)
  | case2 seen rest =>
    rw [descends_goal] at missed
    cases missed
  | case3 seen first rest different known inductionHypothesis =>
    rw [descends_of_seen rest different known] at missed
    have member' := List.contains_iff_mem.mp known
    refine inductionHypothesis (explored.drop member') missed ?_
    rcases member with old | waiting
    · exact .inl old
    · rcases List.mem_cons.mp waiting with rfl | later
      · exact .inl member'
      · exact .inr later
  | case4 seen first rest different fresh _ inductionHypothesis =>
    rw [descends_of_fresh rest different fresh] at missed
    refine inductionHypothesis (explored.expand different) missed ?_
    rcases member with old | waiting
    · exact .inl (List.mem_cons_of_mem _ old)
    · rcases List.mem_cons.mp waiting with rfl | later
      · exact .inl List.mem_cons_self
      · exact .inr (List.mem_append_right _ later)

/-- Searching from one node finds another exactly where it leads there. -/
theorem descends_iff {start : α} : descends adjacency goal [] [start] = true ↔
    Relation.ReflTransGen adjacency.Follows start goal := by
  constructor
  · intro found
    obtain ⟨node, waiting, path⟩ := descends_sound found
    cases List.mem_singleton.mp waiting
    exact path
  · intro path
    by_contra missed
    have nothing : Explored adjacency goal [] [start] := ⟨List.not_mem_nil, nofun⟩
    exact descends_complete nothing (Bool.eq_false_iff.mpr missed)
      (.inr (List.mem_singleton_self start)) path

end PathQuery.Graph
