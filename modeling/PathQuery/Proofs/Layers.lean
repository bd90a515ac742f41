/-
This file proves that the search takes no detour. The walks in its queue have two neighbouring
lengths, the shorter ones first; every node within the shorter length has been reached, and no
node waits under a walk that is longer than it has to be. So the walk that is found has the
fewest edges, and since it goes on to fresh nodes only, it meets no node twice.
-/

import Mathlib.Data.List.Nodup
import PathQuery.Proofs.Reachability

namespace PathQuery.Graph

variable {α : Type} {edges : Edges α} {source : α}

/-! ### Walks as lists -/

/-- A walk: its nodes in order, from the source to the target along edges. -/
structure IsWalk (edges : Edges α) (source target : α) (nodes : List α) : Prop where
  starts : nodes.head? = some source
  ends : nodes.getLast? = some target
  follows : nodes.IsChain (Leads edges)

/-- A walk backwards is a trail that begins at its target. -/
theorem IsWalk.trail {target : α} {nodes : List α} (walk : IsWalk edges source target nodes) :
    ∃ before, nodes = (target :: before).reverse ∧ Trail edges source (target :: before) := by
  have last : nodes.reverse.head? = some target := by
    rw [List.head?_reverse]
    exact walk.ends
  obtain ⟨before, same⟩ := List.head?_eq_some_iff.mp last
  refine ⟨before, by rw [← same, List.reverse_reverse], ?_, ?_⟩
  · rw [← same, List.getLast?_reverse]
    exact walk.starts
  · rw [← same, List.isChain_reverse]
    exact walk.follows

/-- Walks are what reaching means. -/
theorem exists_isWalk_iff {target : α} :
    (∃ nodes, IsWalk edges source target nodes) ↔
      Relation.ReflTransGen (Leads edges) source target := by
  constructor
  · rintro ⟨nodes, starts, ends, follows⟩
    obtain ⟨rest, rfl⟩ := List.head?_eq_some_iff.mp starts
    exact List.relationReflTransGen_of_exists_isChain_cons rest follows
      ((List.getLast_eq_iff_getLast?_eq_some _).mpr ends)
  · intro path
    obtain ⟨rest, follows, ends⟩ := List.exists_isChain_cons_of_relationReflTransGen path
    exact ⟨source :: rest, rfl, (List.getLast_eq_iff_getLast?_eq_some _).mp ends, follows⟩

/-! ### Nodes within a number of edges -/

/-- A walk of at most so many edges leads to a node. -/
inductive Within (edges : Edges α) (source : α) : Nat → α → Prop where
  | start (steps : Nat) : Within edges source steps source
  | step {steps : Nat} {node next : α} :
    Within edges source steps node → Leads edges node next → Within edges source (steps + 1) next

theorem Within.mono {steps more : Nat} {node : α} (within : Within edges source steps node)
    (fewer : steps ≤ more) : Within edges source more node := by
  induction within generalizing more with
  | start => exact .start more
  | step _ leads inductionHypothesis =>
    obtain ⟨more, rfl⟩ := Nat.exists_eq_add_of_le' (Nat.le_of_add_left_le fewer)
    exact .step (inductionHypothesis (Nat.le_of_succ_le_succ fewer)) leads

theorem Trail.within {node : α} {before : List α} (trail : Trail edges source (node :: before)) :
    Within edges source before.length node := by
  induction before generalizing node with
  | nil =>
    cases trail.starts
    exact .start 0
  | cons previous before inductionHypothesis =>
    obtain ⟨leads, follows⟩ := List.isChain_cons_cons.mp trail.follows
    have starts := trail.starts
    rw [List.getLast?_cons_cons] at starts
    exact .step (inductionHypothesis ⟨starts, follows⟩) leads

theorem IsWalk.within {target : α} {nodes : List α} (walk : IsWalk edges source target nodes) :
    ∃ steps, nodes.length = steps + 1 ∧ Within edges source steps target := by
  obtain ⟨before, rfl, trail⟩ := walk.trail
  exact ⟨before.length, by rw [List.length_reverse, List.length_cons], trail.within⟩

/-! ### The layers of the queue -/

/-- The queue while nodes at a depth are taken from it. -/
structure Layered (edges : Edges α) (source : α) (depth : Nat) (reached : List α)
    (queue : List (α × List α)) : Prop where
  /-- Every node within the depth has been reached. -/
  near : ∀ node, Within edges source depth node → node ∈ reached
  /-- The walks in the queue have as many edges as the depth, or one more. -/
  depths : ∀ entry ∈ queue, depth ≤ entry.2.length ∧ entry.2.length ≤ depth + 1
  /-- Shorter walks come first. -/
  sorted : queue.Pairwise fun one other => one.2.length ≤ other.2.length
  /-- No shorter walk leads to a node than the one that it waits under. -/
  far : ∀ entry ∈ queue, ∀ steps, Within edges source steps entry.1 → entry.2.length ≤ steps

namespace Layered

variable {depth : Nat} {reached : List α} {queue : List (α × List α)}

theorem start (edges : Edges α) (source : α) : Layered edges source 0 [source] [(source, [])] where
  near node within := by
    cases within
    exact List.mem_singleton_self source
  depths entry member := by
    cases List.mem_singleton.mp member
    exact ⟨Nat.le_refl 0, Nat.zero_le 1⟩
  sorted := List.pairwise_singleton _ _
  far entry member steps _ := by
    cases List.mem_singleton.mp member
    exact Nat.zero_le steps

/-- Once only the longer walks are left, their nodes are the next layer. -/
theorem advance (layered : Layered edges source depth reached queue)
    (settled : Settled edges reached queue) (left : ∀ entry ∈ queue, depth < entry.2.length) :
    Layered edges source (depth + 1) reached queue where
  near node within := by
    cases within with
    | start => exact layered.near source (.start depth)
    | @step _ previous _ within leads =>
      rcases settled previous (layered.near previous within) with waiting | done
      · obtain ⟨entry, member, rfl⟩ := List.mem_map.mp waiting
        exact absurd (layered.far entry member depth within) (Nat.not_le.mpr (left entry member))
      · exact done node leads
  depths entry member :=
    ⟨left entry member, Nat.le_succ_of_le (layered.depths entry member).2⟩
  sorted := layered.sorted
  far := layered.far

variable {current : α} {before : List α} {others : List (α × List α)}

/-- The depth is that of the walk at the front of the queue. -/
theorem front (layered : Layered edges source depth reached ((current, before) :: others))
    (settled : Settled edges reached ((current, before) :: others)) :
    Layered edges source before.length reached ((current, before) :: others) := by
  obtain ⟨enough, few⟩ := layered.depths (current, before) List.mem_cons_self
  rcases Nat.eq_or_lt_of_le enough with same | more
  · exact same ▸ layered
  · have next : before.length = depth + 1 := Nat.le_antisymm few more
    rw [next]
    refine layered.advance settled fun entry member => ?_
    rcases List.mem_cons.mp member with rfl | later
    · exact more
    · exact Nat.lt_of_lt_of_le more ((List.pairwise_cons.mp layered.sorted).1 entry later)

variable [DecidableEq α]

/-- Fresh successors of the node at the front wait under walks that are one edge longer. -/
theorem expand
    (layered : Layered edges source before.length reached ((current, before) :: others)) :
    Layered edges source before.length (fresh edges reached current ++ reached)
      (others ++ (fresh edges reached current).map fun node => (node, current :: before)) where
  near node within := List.mem_append_right _ (layered.near node within)
  depths entry member := by
    rcases List.mem_append.mp member with older | newer
    · exact layered.depths entry (List.mem_cons_of_mem _ older)
    · obtain ⟨node, -, rfl⟩ := List.mem_map.mp newer
      exact ⟨Nat.le_succ _, Nat.le_refl _⟩
  sorted := by
    refine List.pairwise_append.mpr ⟨(List.pairwise_cons.mp layered.sorted).2, ?_, ?_⟩
    · exact List.pairwise_map.mpr (List.pairwise_of_forall fun _ _ => Nat.le_refl _)
    · intro one older other newer
      obtain ⟨node, -, rfl⟩ := List.mem_map.mp newer
      exact (layered.depths one (List.mem_cons_of_mem _ older)).2
  far entry member steps within := by
    rcases List.mem_append.mp member with older | newer
    · exact layered.far entry (List.mem_cons_of_mem _ older) steps within
    · obtain ⟨node, given, rfl⟩ := List.mem_map.mp newer
      -- A node within the depth has been reached, and a fresh one has not.
      refine Nat.lt_of_not_le fun few => (mem_fresh_iff.mp given).2 ?_
      exact layered.near node (within.mono few)

end Layered

/-! ### What is found is a shortest walk without repetition -/

variable [DecidableEq α] {target : α} {reached : List α} {queue : List (α × List α)}
  {walk : List α}

/-- A walk that is found has no more edges than any walk to the target. -/
theorem search_minimal {depth : Nat} (missed : target ∉ reached)
    (layered : Layered edges source depth reached queue) (settled : Settled edges reached queue)
    (found : search edges target reached queue = some walk) {steps : Nat}
    (within : Within edges source steps target) : walk.length ≤ steps + 1 := by
  induction reached, queue using search_induction edges target generalizing depth with
  | empty reached =>
    rw [search_nil] at found
    cases found
  | barren reached current before others barren inductionHypothesis =>
    rw [search_of_barren target before others barren] at found
    have expanded := (layered.front settled).expand
    have done := settled.expand
    rw [barren, List.map_nil, List.append_nil, List.nil_append] at expanded done
    exact inductionHypothesis missed expanded done found
  | hit reached current before others hit =>
    rw [search_of_hit before others hit] at found
    cases found
    have beyond : before.length < steps := Nat.lt_of_not_le fun few =>
      missed ((layered.front settled).near target (within.mono few))
    exact Nat.succ_le_succ beyond
  | miss reached current before others fruitful miss inductionHypothesis =>
    rw [search_of_miss before others fruitful miss] at found
    refine inductionHypothesis (fun member => ?_) (layered.front settled).expand settled.expand
      found
    exact (List.mem_append.mp member).elim miss missed

/-- A walk that is found meets no node twice, where no walk in the queue does. -/
theorem search_nodup (missed : target ∉ reached)
    (distinct : ∀ entry ∈ queue, (entry.1 :: entry.2).Nodup ∧ entry.1 :: entry.2 ⊆ reached)
    (found : search edges target reached queue = some walk) : walk.Nodup := by
  induction reached, queue using search_induction edges target with
  | empty reached =>
    rw [search_nil] at found
    cases found
  | barren reached current before others barren inductionHypothesis =>
    rw [search_of_barren target before others barren] at found
    exact inductionHypothesis missed
      (fun entry member => distinct entry (List.mem_cons_of_mem _ member)) found
  | hit reached current before others hit =>
    rw [search_of_hit before others hit] at found
    cases found
    obtain ⟨once, within⟩ := distinct (current, before) List.mem_cons_self
    exact List.nodup_cons.mpr ⟨fun member => missed (within member), once⟩
  | miss reached current before others fruitful miss inductionHypothesis =>
    rw [search_of_miss before others fruitful miss] at found
    refine inductionHypothesis (fun member => (List.mem_append.mp member).elim miss missed)
      (fun entry member => ?_) found
    rcases List.mem_append.mp member with older | newer
    · obtain ⟨once, within⟩ := distinct entry (List.mem_cons_of_mem _ older)
      exact ⟨once, fun node given => List.mem_append_right _ (within given)⟩
    · obtain ⟨next, given, rfl⟩ := List.mem_map.mp newer
      obtain ⟨once, within⟩ := distinct (current, before) List.mem_cons_self
      refine ⟨List.nodup_cons.mpr ⟨fun met => (mem_fresh_iff.mp given).2 (within met), once⟩, ?_⟩
      refine List.cons_subset.mpr ⟨List.mem_append_left _ given, fun node met => ?_⟩
      exact List.mem_append_right _ (within met)

theorem shortestWalk?_isWalk (found : shortestWalk? edges source target = some walk) :
    IsWalk edges source target walk :=
  have ⟨starts, ends, follows⟩ := shortestWalk?_sound found
  ⟨starts, ends, follows⟩

/-- No walk has fewer nodes than the shortest one. -/
theorem shortestWalk?_minimal (found : shortestWalk? edges source target = some walk)
    {nodes : List α} (other : IsWalk edges source target nodes) : walk.length ≤ nodes.length := by
  obtain ⟨steps, length, within⟩ := other.within
  rw [length]
  unfold shortestWalk? at found
  split at found
  · cases found
    exact Nat.succ_le_succ (Nat.zero_le steps)
  · rename_i different
    obtain ⟨trail, given, rfl⟩ := Option.map_eq_some_iff.mp found
    rw [List.length_reverse]
    exact search_minimal (fun member => different (List.mem_singleton.mp member).symm)
      (.start edges source) (fun node member => .inl (by rwa [List.map_singleton])) given within

theorem shortestWalk?_nodup (found : shortestWalk? edges source target = some walk) :
    walk.Nodup := by
  unfold shortestWalk? at found
  split at found
  · cases found
    exact List.nodup_singleton source
  · rename_i different
    obtain ⟨trail, given, rfl⟩ := Option.map_eq_some_iff.mp found
    refine List.nodup_reverse.mpr (search_nodup
      (fun member => different (List.mem_singleton.mp member).symm) (fun entry member => ?_) given)
    cases List.mem_singleton.mp member
    exact ⟨List.nodup_singleton source, List.Subset.refl _⟩

/-- A shortest walk is found where there is any walk. -/
theorem shortestWalk?_isSome_iff :
    (∃ walk, shortestWalk? edges source target = some walk) ↔
      ∃ nodes, IsWalk edges source target nodes := by
  rw [← Option.isSome_iff_exists, exists_isWalk_iff]
  exact reaches_iff

end PathQuery.Graph
