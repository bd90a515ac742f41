/-
This file searches graphs in depth first. Nodes wait on a stack. The one on top is taken
off, and unless it has been seen before, the nodes that follow it are put on top, the
last one uppermost. The search ends because every step either shortens the stack or sees
a node that others follow for the first time.
-/

namespace PathQuery.Graph

variable {α : Type} [DecidableEq α]

/-- Nodes, each with the nodes that follow it in order. -/
abbrev Adjacency (α : Type) := List (α × List α)

namespace Adjacency

/-- The nodes that follow a node. -/
def next (adjacency : Adjacency α) (node : α) : List α :=
  (adjacency.lookup node).getD []

/-- The entries of nodes that have not been seen. -/
def unseen (adjacency : Adjacency α) (seen : List α) : Adjacency α :=
  adjacency.filter fun entry => !seen.contains entry.1

theorem unseen_cons (adjacency : Adjacency α) (seen : List α) (node : α) :
    adjacency.unseen (node :: seen) =
      (adjacency.unseen seen).filter fun entry => entry.1 != node := by
  rw [unseen, unseen, List.filter_filter]
  refine List.filter_congr fun entry _ => ?_
  rw [List.contains_cons, Bool.not_or, bne]

/-- Seeing a node for the first time leaves fewer unseen, unless it has no entry. -/
theorem length_unseen_cons (adjacency : Adjacency α) {seen : List α} {node : α}
    (fresh : seen.contains node = false) :
    (adjacency.unseen (node :: seen)).length < (adjacency.unseen seen).length ∨
      (adjacency.unseen (node :: seen)).length = (adjacency.unseen seen).length ∧
        adjacency.next node = [] := by
  rw [unseen_cons]
  by_cases listed : ∃ entry ∈ adjacency, entry.1 = node
  · obtain ⟨entry, given, rfl⟩ := listed
    refine .inl (List.length_filter_lt_length_iff_exists.mpr ⟨entry, ?_, by simp⟩)
    exact List.mem_filter.mpr ⟨given, by rw [fresh]; rfl⟩
  · have other : ∀ entry ∈ adjacency, entry.1 ≠ node :=
      fun entry given same => listed ⟨entry, given, same⟩
    refine .inr ⟨congrArg List.length (List.filter_eq_self.mpr fun entry member => ?_), ?_⟩
    · exact bne_iff_ne.mpr (other entry (List.mem_filter.mp member).1)
    · have missing : adjacency.lookup node = none :=
        List.lookup_eq_none_iff.mpr fun entry given => bne_iff_ne.mpr (other entry given).symm
      rw [next, missing, Option.getD_none]

end Adjacency

/-- Searches for a node from the nodes on a stack, past those that have been seen. -/
def descends (adjacency : Adjacency α) (goal : α) (seen stack : List α) : Bool :=
  match stack with
  | [] => false
  | node :: rest =>
    if node = goal then true
    else if known : seen.contains node then descends adjacency goal seen rest
    else
      have := adjacency.length_unseen_cons (Bool.eq_false_iff.mpr known)
      descends adjacency goal (node :: seen) ((adjacency.next node).reverse ++ rest)
termination_by ((adjacency.unseen seen).length, stack.length)
decreasing_by
  · exact Prod.Lex.right _ (Nat.lt_succ_self _)
  · rcases this with fewer | ⟨same, none⟩
    · exact Prod.Lex.left _ _ fewer
    · rw [same, none]
      exact Prod.Lex.right _ (Nat.lt_succ_self _)

end PathQuery.Graph
