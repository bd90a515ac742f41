/-
This file searches directed graphs that are given by a list of edges. The search goes
outwards from a node level by level and reaches every node by the first walk it finds,
so a walk with the fewest edges is found, and of several the one that takes the earliest
edges. It ends because every step either shortens the queue or reaches a new node.
-/

namespace PathQuery.Graph

variable {α : Type} [DecidableEq α]

/-- The edges of a directed graph, in order. -/
abbrev Edges (α : Type) := List (α × α)

/-- The nodes that an edge leads to from a node. -/
def successors (edges : Edges α) (node : α) : List α :=
  (edges.filter fun edge => edge.1 == node).map (·.2)

/-- The successors of a node that have not been reached yet. -/
def fresh (edges : Edges α) (reached : List α) (node : α) : List α :=
  ((successors edges node).filter fun next => !reached.contains next).eraseDups

/-- The edges that lead to a node that has not been reached yet. -/
def openEdges (edges : Edges α) (reached : List α) : Edges α :=
  edges.filter fun edge => !reached.contains edge.2

/-- Every fresh node is the end of an edge and has not been reached. -/
theorem mem_fresh {edges : Edges α} {reached : List α} {node next : α}
    (member : next ∈ fresh edges reached node) :
    (∃ edge ∈ edges, edge.2 = next) ∧ next ∉ reached := by
  simp only [fresh, successors, List.mem_eraseDups, List.mem_filter, List.mem_map,
    Bool.not_eq_true', List.contains_eq_mem, decide_eq_false_iff_not] at member
  obtain ⟨⟨edge, ⟨given, _⟩, same⟩, unreached⟩ := member
  exact ⟨⟨edge, given, same⟩, unreached⟩

/-- Reaching further nodes closes edges. -/
theorem length_openEdges_lt {edges : Edges α} {reached : List α} {node first : α}
    {others : List α} (found : fresh edges reached node = first :: others) :
    (openEdges edges (first :: others ++ reached)).length < (openEdges edges reached).length := by
  have ⟨⟨edge, given, same⟩, unreached⟩ :=
    mem_fresh (found ▸ List.mem_cons_self : first ∈ fresh edges reached node)
  have wider : ∀ other ∈ edges,
      !(first :: others ++ reached).contains other.2 → !reached.contains other.2 := by
    intro other _ closed
    simp only [Bool.not_eq_true', List.contains_eq_mem, decide_eq_false_iff_not] at closed ⊢
    exact fun member => closed (List.mem_append_right _ member)
  have stillOpen : openEdges edges (first :: others ++ reached) =
      (openEdges edges reached).filter fun other =>
        !(first :: others ++ reached).contains other.2 := by
    unfold openEdges
    rw [List.filter_filter]
    refine List.filter_congr fun other member => ?_
    have implied := wider other member
    cases closed : !(first :: others ++ reached).contains other.2 <;> simp_all
  rw [stillOpen]
  refine List.length_filter_lt_length_iff_exists.mpr ⟨edge, ?_, ?_⟩
  · exact List.mem_filter.mpr ⟨given, by simpa [same] using unreached⟩
  · simp [same]

/-- Searches for a node from the walks in a queue, each given by its end and what comes before it,
last first. Every end of a walk that was ever in the queue has been reached. -/
def search (edges : Edges α) (target : α) (reached : List α) (queue : List (α × List α)) :
    Option (List α) :=
  match queue with
  | [] => none
  | (current, before) :: others =>
    match found : fresh edges reached current with
    | [] => search edges target reached others
    | first :: more =>
      have := length_openEdges_lt found
      if (first :: more).contains target then some (target :: current :: before)
      else
        search edges target (first :: more ++ reached)
          (others ++ (first :: more).map fun node => (node, current :: before))
termination_by ((openEdges edges reached).length, queue.length)
decreasing_by
  · exact Prod.Lex.right _ (Nat.lt_succ_self _)
  · exact Prod.Lex.left _ _ this

/-- The shortest walk from one node to another, with both ends. -/
def shortestWalk? (edges : Edges α) (source target : α) : Option (List α) :=
  if source = target then some [source]
  else (search edges target [source] [(source, [])]).map List.reverse

/-- Whether a walk leads from one node to another. -/
def reaches (edges : Edges α) (source target : α) : Bool :=
  (shortestWalk? edges source target).isSome

end PathQuery.Graph
