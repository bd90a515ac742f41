/-
This file says what the search of a directed graph finds. A walk that is found starts at the
source, ends at the target and follows edges; where none is found, the nodes that were reached
are closed under the edges, so no walk exists. Reaching is therefore the reflexive and
transitive closure of the edges. An edge whose end does not reach its start keeps a graph
without infinite descent.
-/

import Mathlib.Data.List.Chain
import Mathlib.Logic.Relation
import PathQuery.Graph.Walk

namespace PathQuery.Graph

variable {α : Type} [DecidableEq α]

/-- There is an edge from one node to another. -/
def Leads (edges : Edges α) (source target : α) : Prop := (source, target) ∈ edges

omit [DecidableEq α] in
theorem leads_append_single {edges : Edges α} {source target from' to' : α} :
    Leads (edges ++ [(from', to')]) source target ↔
      Leads edges source target ∨ (source = from' ∧ target = to') := by
  simp only [Leads, List.mem_append, List.mem_singleton, Prod.mk.injEq]

theorem mem_successors {edges : Edges α} {node next : α} :
    next ∈ successors edges node ↔ Leads edges node next := by
  simp only [successors, Leads, List.mem_map, List.mem_filter, beq_iff_eq]
  constructor
  · rintro ⟨⟨first, second⟩, ⟨given, rfl⟩, rfl⟩
    exact given
  · intro given
    exact ⟨(node, next), ⟨given, rfl⟩, rfl⟩

/-- The fresh nodes are the successors that have not been reached. -/
theorem mem_fresh_iff {edges : Edges α} {reached : List α} {node next : α} :
    next ∈ fresh edges reached node ↔ Leads edges node next ∧ next ∉ reached := by
  simp only [fresh, List.mem_eraseDups, List.mem_filter, mem_successors, Bool.not_eq_true',
    List.contains_eq_mem, decide_eq_false_iff_not]

/-! ### One step of the search -/

theorem search_nil (edges : Edges α) (target : α) (reached : List α) :
    search edges target reached [] = none := by
  rw [search]

/-- A node without fresh successors is dropped from the queue. -/
theorem search_of_barren {edges : Edges α} {reached : List α} {current : α} (target : α)
    (before : List α) (others : List (α × List α))
    (barren : fresh edges reached current = []) :
    search edges target reached ((current, before) :: others) =
      search edges target reached others := by
  rw [search]
  split
  · rfl
  · rename_i first more found
    cases barren.symm.trans found

/-- The search ends at a node that has the target among its fresh successors. -/
theorem search_of_hit {edges : Edges α} {target : α} {reached : List α} {current : α}
    (before : List α) (others : List (α × List α))
    (hit : target ∈ fresh edges reached current) :
    search edges target reached ((current, before) :: others) =
      some (target :: current :: before) := by
  rw [search]
  split
  · rename_i barren
    rw [barren] at hit
    exact absurd hit List.not_mem_nil
  · rename_i first more found
    rw [found] at hit
    exact if_pos (List.contains_iff_mem.mpr hit)

/-- The fresh successors of a node wait at the end of the queue where the target is not among
them. -/
theorem search_of_miss {edges : Edges α} {target : α} {reached : List α} {current : α}
    (before : List α) (others : List (α × List α))
    (fruitful : fresh edges reached current ≠ []) (miss : target ∉ fresh edges reached current) :
    search edges target reached ((current, before) :: others) =
      search edges target (fresh edges reached current ++ reached)
        (others ++ (fresh edges reached current).map fun node => (node, current :: before)) := by
  conv_lhs => rw [search]
  split
  · rename_i barren
    exact absurd barren fruitful
  · rename_i first more found
    rw [found] at miss
    conv_rhs => rw [found]
    exact if_neg fun contained => miss (List.contains_iff_mem.mp contained)

/-- The search by its steps: the empty queue, a node without fresh successors, one that has the
target among them, and one that has others. -/
theorem search_induction (edges : Edges α) (target : α)
    {motive : List α → List (α × List α) → Prop} (empty : ∀ reached, motive reached [])
    (barren : ∀ reached current before others, fresh edges reached current = [] →
      motive reached others → motive reached ((current, before) :: others))
    (hit : ∀ reached current before others, target ∈ fresh edges reached current →
      motive reached ((current, before) :: others))
    (miss : ∀ reached current before others, fresh edges reached current ≠ [] →
      target ∉ fresh edges reached current →
      motive (fresh edges reached current ++ reached)
        (others ++ (fresh edges reached current).map fun node => (node, current :: before)) →
      motive reached ((current, before) :: others))
    (reached : List α) (queue : List (α × List α)) : motive reached queue := by
  induction reached, queue using search.induct edges target with
  | case1 reached => exact empty reached
  | case2 reached current before others found inductionHypothesis =>
    exact barren reached current before others found inductionHypothesis
  | case3 reached current before others first more found shorter contained =>
    rw [← found] at contained
    exact hit reached current before others (List.contains_iff_mem.mp contained)
  | case4 reached current before others first more found shorter missing inductionHypothesis =>
    rw [← found] at missing inductionHypothesis
    refine miss reached current before others ?_
      (fun member => missing (List.contains_iff_mem.mpr member)) inductionHypothesis
    rw [found]
    exact List.cons_ne_nil first more

/-! ### What is found is a walk -/

/-- A list of nodes, last first, that follows edges from a source. -/
structure Trail (edges : Edges α) (source : α) (nodes : List α) : Prop where
  starts : nodes.getLast? = some source
  follows : nodes.IsChain fun later earlier => Leads edges earlier later

omit [DecidableEq α] in
theorem Trail.single (edges : Edges α) (source : α) : Trail edges source [source] :=
  ⟨rfl, List.isChain_singleton source⟩

omit [DecidableEq α] in
theorem Trail.extend {edges : Edges α} {source current next : α} {before : List α}
    (trail : Trail edges source (current :: before)) (leads : Leads edges current next) :
    Trail edges source (next :: current :: before) :=
  ⟨by rw [List.getLast?_cons_cons]; exact trail.starts,
    List.isChain_cons_cons.mpr ⟨leads, trail.follows⟩⟩

/-- Every walk that the search gives ends at the target, takes at least one edge and is a trail,
where all walks in the queue are. -/
theorem search_sound {edges : Edges α} {source target : α} {reached : List α}
    {queue : List (α × List α)} {walk : List α}
    (trails : ∀ entry ∈ queue, Trail edges source (entry.1 :: entry.2))
    (found : search edges target reached queue = some walk) :
    ∃ current before, walk = target :: current :: before ∧ Trail edges source walk := by
  induction reached, queue using search_induction edges target with
  | empty reached =>
    rw [search_nil] at found
    cases found
  | barren reached current before others barren inductionHypothesis =>
    rw [search_of_barren target before others barren] at found
    exact inductionHypothesis (fun entry member => trails entry (List.mem_cons_of_mem _ member))
      found
  | hit reached current before others hit =>
    rw [search_of_hit before others hit] at found
    cases found
    exact ⟨current, before, rfl,
      (trails (current, before) List.mem_cons_self).extend (mem_fresh_iff.mp hit).1⟩
  | miss reached current before others fruitful miss inductionHypothesis =>
    rw [search_of_miss before others fruitful miss] at found
    refine inductionHypothesis (fun entry member => ?_) found
    rcases List.mem_append.mp member with older | newer
    · exact trails entry (List.mem_cons_of_mem _ older)
    · obtain ⟨next, given, rfl⟩ := List.mem_map.mp newer
      exact (trails (current, before) List.mem_cons_self).extend (mem_fresh_iff.mp given).1

/-! ### Where nothing is found there is no walk -/

/-- The nodes that have been reached and do not wait in the queue lead to reached nodes only. -/
def Settled (edges : Edges α) (reached : List α) (queue : List (α × List α)) : Prop :=
  ∀ node ∈ reached, node ∈ queue.map (·.1) ∨ ∀ next, Leads edges node next → next ∈ reached

/-- A node leaves the queue once its fresh successors are reached and wait themselves. -/
theorem Settled.expand {edges : Edges α} {reached : List α} {current : α} {before : List α}
    {others : List (α × List α)} (settled : Settled edges reached ((current, before) :: others)) :
    Settled edges (fresh edges reached current ++ reached)
      (others ++ (fresh edges reached current).map fun node => (node, current :: before)) := by
  intro node member
  rw [List.map_append, List.map_map]
  rcases List.mem_append.mp member with new | old
  · exact .inl (List.mem_append_right _ (List.mem_map.mpr ⟨node, new, rfl⟩))
  · rcases settled node old with waiting | done
    · rcases List.mem_cons.mp waiting with rfl | waiting
      · refine .inr fun next leads => ?_
        by_cases known : next ∈ reached
        · exact List.mem_append_right _ known
        · exact List.mem_append_left _ (mem_fresh_iff.mpr ⟨leads, known⟩)
      · exact .inl (List.mem_append_left _ waiting)
    · exact .inr fun next leads => List.mem_append_right _ (done next leads)

omit [DecidableEq α] in
/-- With an empty queue, walks from reached nodes stay among reached nodes. -/
theorem Settled.stays {edges : Edges α} {reached : List α} (settled : Settled edges reached [])
    {node last : α} (member : node ∈ reached)
    (path : Relation.ReflTransGen (Leads edges) node last) : last ∈ reached := by
  induction path with
  | refl => exact member
  | tail _ leads inductionHypothesis =>
    rcases settled _ inductionHypothesis with waiting | done
    · exact absurd waiting List.not_mem_nil
    · exact done _ leads

/-- The search gives up only where no reached node leads on to the target. -/
theorem search_complete {edges : Edges α} {target : α} {reached : List α}
    {queue : List (α × List α)} (missed : target ∉ reached)
    (settled : Settled edges reached queue)
    (found : search edges target reached queue = none) {node : α} (member : node ∈ reached) :
    ¬ Relation.ReflTransGen (Leads edges) node target := by
  induction reached, queue using search_induction edges target with
  | empty reached => exact fun path => missed (settled.stays member path)
  | barren reached current before others barren inductionHypothesis =>
    rw [search_of_barren target before others barren] at found
    have expanded := settled.expand
    rw [barren, List.map_nil, List.append_nil, List.nil_append] at expanded
    exact inductionHypothesis missed expanded found member
  | hit reached current before others hit =>
    rw [search_of_hit before others hit] at found
    cases found
  | miss reached current before others fruitful miss inductionHypothesis =>
    rw [search_of_miss before others fruitful miss] at found
    refine inductionHypothesis (fun reachedNow => ?_) settled.expand found
      (List.mem_append_right _ member)
    exact (List.mem_append.mp reachedNow).elim miss missed

/-! ### Shortest walks -/

/-- A walk that is found starts at the source, ends at the target, and follows edges. -/
theorem shortestWalk?_sound {edges : Edges α} {source target : α} {walk : List α}
    (found : shortestWalk? edges source target = some walk) :
    walk.head? = some source ∧ walk.getLast? = some target ∧ walk.IsChain (Leads edges) := by
  unfold shortestWalk? at found
  split at found
  · rename_i same
    cases found
    exact ⟨rfl, congrArg some same, List.isChain_singleton source⟩
  · obtain ⟨nodes, given, rfl⟩ := Option.map_eq_some_iff.mp found
    have trails : ∀ entry ∈ [(source, ([] : List α))], Trail edges source (entry.1 :: entry.2) := by
      intro entry member
      cases List.mem_singleton.mp member
      exact Trail.single edges source
    obtain ⟨current, before, rfl, trail⟩ := search_sound trails given
    refine ⟨?_, ?_, ?_⟩
    · rw [List.head?_reverse]
      exact trail.starts
    · rw [List.getLast?_reverse]
      rfl
    · rw [List.isChain_reverse]
      exact trail.follows

/-- A walk between two different nodes takes a step. -/
theorem shortestWalk?_steps {edges : Edges α} {source target : α} {walk : List α}
    (different : source ≠ target) (found : shortestWalk? edges source target = some walk) :
    ∃ rest, walk = source :: rest ∧ rest.getLast? = some target := by
  obtain ⟨starts, ends, -⟩ := shortestWalk?_sound found
  cases walk with
  | nil => cases starts
  | cons first rest =>
    cases starts
    cases rest with
    | nil =>
      cases ends
      exact absurd rfl different
    | cons second more =>
      rw [List.getLast?_cons_cons] at ends
      exact ⟨second :: more, rfl, ends⟩

/-- A node reaches exactly the nodes that the edges lead to from it in any number of steps. -/
theorem reaches_iff {edges : Edges α} {source target : α} :
    reaches edges source target = true ↔
      Relation.ReflTransGen (Leads edges) source target := by
  unfold reaches
  constructor
  · intro found
    obtain ⟨walk, found⟩ := Option.isSome_iff_exists.mp found
    obtain ⟨starts, ends, follows⟩ := shortestWalk?_sound found
    obtain ⟨first, rest, rfl⟩ : ∃ first rest, walk = first :: rest := by
      cases walk with
      | nil => cases starts
      | cons first rest => exact ⟨first, rest, rfl⟩
    cases starts
    have last : (source :: rest).getLast (List.cons_ne_nil _ _) = target :=
      (List.getLast_eq_iff_getLast?_eq_some _).mpr ends
    exact last ▸ List.relationReflTransGen_of_exists_isChain_cons rest follows rfl
  · intro path
    by_contra missing
    rw [Option.not_isSome_iff_eq_none] at missing
    unfold shortestWalk? at missing
    split at missing
    · cases missing
    · rename_i different
      have unfound := Option.map_eq_none_iff.mp missing
      exact search_complete (fun member => different (List.mem_singleton.mp member).symm)
        (fun node member => .inl (by rwa [List.map_singleton])) unfound
        (List.mem_singleton_self source) path

/-! ### Graphs without infinite descent -/

omit [DecidableEq α] in
/-- An edge whose end does not lead back to its start keeps the descent along edges finite. -/
theorem wellFounded_append {edges : Edges α} {source target : α}
    (finite : WellFounded fun later earlier => Leads edges earlier later)
    (apart : ¬ Relation.ReflTransGen (Leads edges) target source) :
    WellFounded fun later earlier => Leads (edges ++ [(source, target)]) earlier later := by
  -- Below the end of the new edge the descent never meets that edge again.
  have below : ∀ node, Relation.ReflTransGen (Leads edges) target node →
      Acc (fun later earlier => Leads (edges ++ [(source, target)]) earlier later) node := by
    intro node
    induction node using finite.induction with
    | h node inductionHypothesis =>
      intro path
      refine .intro node fun next leads => ?_
      rcases leads_append_single.mp leads with old | ⟨rfl, -⟩
      · exact inductionHypothesis next old (path.tail old)
      · exact absurd path apart
  refine ⟨fun node => ?_⟩
  induction node using finite.induction with
  | h node inductionHypothesis =>
    refine .intro node fun next leads => ?_
    rcases leads_append_single.mp leads with old | ⟨-, rfl⟩
    · exact inductionHypothesis next old
    · exact below next .refl

end PathQuery.Graph
