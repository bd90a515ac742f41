/-
This file says which of several shortest routes routing takes. A walk is told by its turns: at every
node, which of the edges from there it takes. The walks in the queue of the search stand in the
order of their turns, and none of them could have come to its end as quickly by earlier turns. So
the route that is answered takes the earliest turns of all that are as short.
-/

import PathQuery.Proofs.Routes

namespace PathQuery.Graph

variable {α : Type} [DecidableEq α] {edges : Edges α} {source target : α}

/-! ### Turns -/

/-- The turns of a walk: the place of every next node among the successors of the one before. -/
def turns (edges : Edges α) : List α → List Nat
  | node :: next :: rest => (successors edges node).idxOf next :: turns edges (next :: rest)
  | _ => []

/-- The last turn of a walk is the last of its turns. -/
theorem turns_concat (walk : List α) (node next : α) :
    turns edges (walk ++ [node, next]) =
      turns edges (walk ++ [node]) ++ [(successors edges node).idxOf next] := by
  induction walk with
  | nil => rfl
  | cons first rest inductionHypothesis =>
    cases rest with
    | nil => rfl
    | cons second rest => exact congrArg (List.cons _) inductionHypothesis

theorem length_turns (walk : List α) : (turns edges walk).length = walk.length - 1 := by
  induction walk with
  | nil => rfl
  | cons first rest inductionHypothesis =>
    cases rest with
    | nil => rfl
    | cons second rest => exact congrArg Nat.succ inductionHypothesis

/-- Of two lists of one length the lesser stays so whatever is added to both. -/
theorem concat_lt_concat {first second : List Nat} (less : first < second)
    (same : first.length = second.length) (one other : Nat) :
    first ++ [one] < second ++ [other] := by
  induction less with
  | nil => cases same
  | rel less => exact .rel less
  | cons _ inductionHypothesis => exact .cons (inductionHypothesis (Nat.succ.inj same))

/-- A trail takes earlier turns than another: at the first node where they differ. -/
def Precedes (edges : Edges α) (trail other : List α) : Prop :=
  turns edges trail.reverse < turns edges other.reverse

theorem turns_reverse_cons (next node : α) (before : List α) :
    turns edges (next :: node :: before).reverse =
      turns edges (node :: before).reverse ++ [(successors edges node).idxOf next] := by
  rw [List.reverse_cons, List.reverse_cons, List.append_assoc]
  exact turns_concat before.reverse node next

theorem Precedes.trans {first second third : List α} (earlier : Precedes edges first second)
    (later : Precedes edges second third) : Precedes edges first third :=
  List.lt_trans earlier later

/-- Trails that part at their ends are told apart by their last turns. -/
theorem precedes_turn {first second node : α} (before : List α)
    (earlier : (successors edges node).idxOf first < (successors edges node).idxOf second) :
    Precedes edges (first :: node :: before) (second :: node :: before) := by
  rw [Precedes, turns_reverse_cons, turns_reverse_cons]
  exact List.Lex.append_left _ (.rel earlier) _

/-- Trails of one length that are told apart stay so when both go on. -/
theorem Precedes.onward {trail other : List α} (precedes : Precedes edges trail other)
    (same : trail.length = other.length) (first second : α) :
    Precedes edges (first :: trail) (second :: other) := by
  cases trail with
  | nil =>
    cases List.length_eq_zero_iff.mp same.symm
    cases precedes
  | cons node before =>
    cases other with
    | nil => cases same
    | cons another beforeToo =>
      rw [Precedes, turns_reverse_cons, turns_reverse_cons]
      refine concat_lt_concat precedes ?_ _ _
      rw [length_turns, length_turns, List.length_reverse, List.length_reverse, same]

/-- What is left of a list when repetitions are dropped stands in the order of the list. -/
theorem pairwise_idxOf_eraseDups (list : List α) (keep : α → Bool) :
    (list.filter keep).eraseDups.Pairwise fun one other => list.idxOf one < list.idxOf other := by
  induction list generalizing keep with
  | nil => exact .nil
  | cons first rest inductionHypothesis =>
    have shifted : ∀ kept : α → Bool, kept first = false →
        (rest.filter kept).eraseDups.Pairwise fun one other =>
          (first :: rest).idxOf one < (first :: rest).idxOf other := by
      intro kept dropped
      have other : ∀ element ∈ (rest.filter kept).eraseDups, first ≠ element := by
        rintro element member rfl
        rw [(List.mem_filter.mp (List.mem_eraseDups.mp member)).2] at dropped
        cases dropped
      refine (inductionHypothesis kept).imp_of_mem fun one another less => ?_
      rw [List.idxOf_cons_ne rest (other _ one), List.idxOf_cons_ne rest (other _ another)]
      exact Nat.succ_lt_succ less
    cases kept : keep first with
    | false =>
      rw [List.filter_cons_of_neg (by rw [kept]; decide)]
      exact shifted keep kept
    | true =>
      rw [List.filter_cons_of_pos kept, List.eraseDups_cons, List.filter_filter]
      refine List.pairwise_cons.mpr ⟨fun element member => ?_, shifted _ (by simp)⟩
      have different : first ≠ element := by
        rintro rfl
        simp [List.mem_filter] at member
      rw [List.idxOf_cons_self, List.idxOf_cons_ne rest different]
      exact Nat.succ_pos _

/-- The fresh successors of a node stand in the order of their edges. -/
theorem pairwise_fresh (edges : Edges α) (reached : List α) (node : α) :
    (fresh edges reached node).Pairwise fun one other =>
      (successors edges node).idxOf one < (successors edges node).idxOf other :=
  pairwise_idxOf_eraseDups _ _

/-! ### The order of the queue -/

/-- A trail has the earliest turns of all that lead to the same node in as many steps. -/
def Earliest (edges : Edges α) (source node : α) (before : List α) : Prop :=
  ∀ other, Trail edges source (node :: other) → other.length = before.length →
    other = before ∨ Precedes edges (node :: before) (node :: other)

/-- The trails in the queue are in the order of their turns. A trail that is one edge longer than
another came from one that was ahead of that. -/
structure Ordered (edges : Edges α) (source : α) (queue : List (α × List α)) : Prop where
  earliest : ∀ entry ∈ queue, Earliest edges source entry.1 entry.2
  level : queue.Pairwise fun one other => one.2.length = other.2.length →
    Precedes edges (one.1 :: one.2) (other.1 :: other.2)
  ahead : queue.Pairwise fun one other => other.2.length = one.2.length + 1 →
    Precedes edges other.2 (one.1 :: one.2)

namespace Ordered

variable {depth : Nat} {reached : List α} {queue : List (α × List α)} {current next : α}
  {before : List α} {others : List (α × List α)}

theorem start (edges : Edges α) (source : α) : Ordered edges source [(source, [])] where
  earliest entry member other _ same := by
    cases List.mem_singleton.mp member
    exact .inl (List.length_eq_zero_iff.mp same)
  level := List.pairwise_singleton _ _
  ahead := List.pairwise_singleton _ _

theorem tail (ordered : Ordered edges source ((current, before) :: others)) :
    Ordered edges source others where
  earliest entry member := ordered.earliest entry (List.mem_cons_of_mem _ member)
  level := (List.pairwise_cons.mp ordered.level).2
  ahead := (List.pairwise_cons.mp ordered.ahead).2

/-- The trail at the front of the queue leads on to its fresh successors by the earliest turns. -/
theorem earliest_fresh (ordered : Ordered edges source ((current, before) :: others))
    (layered : Layered edges source before.length reached ((current, before) :: others))
    (settled : Settled edges reached ((current, before) :: others))
    (given : next ∈ fresh edges reached current) :
    Earliest edges source next (current :: before) := by
  intro other trail same
  cases other with
  | nil => cases same
  | cons node rest =>
    have length : rest.length = before.length := Nat.succ.inj same
    have trailToo : Trail edges source (node :: rest) :=
      ⟨by rw [← trail.starts, List.getLast?_cons_cons], (List.isChain_cons_cons.mp trail.follows).2⟩
    have leads : Leads edges node next := (List.isChain_cons_cons.mp trail.follows).1
    have within := trailToo.within
    -- The node before the fresh one still waits: it would have reached that one otherwise.
    have waiting : node ∈ ((current, before) :: others).map (·.1) := by
      rcases settled node (layered.near node (length ▸ within)) with waiting | done
      · exact waiting
      · exact absurd (done next leads) (mem_fresh_iff.mp given).2
    obtain ⟨⟨met, way⟩, member, rfl⟩ := List.mem_map.mp waiting
    have wayLength : rest.length = way.length := length.trans
      (Nat.le_antisymm (layered.depths _ member).1 (length ▸ layered.far _ member _ within))
    have least := ordered.earliest _ member rest trailToo wayLength
    rcases List.mem_cons.mp member with front | later
    · cases front
      rcases least with rfl | precedes
      · exact .inl rfl
      · exact .inr (precedes.onward same.symm next next)
    · have first : Precedes edges (current :: before) (met :: way) :=
        (List.pairwise_cons.mp ordered.level).1 _ later (length.symm.trans wayLength)
      have precedes : Precedes edges (current :: before) (met :: rest) := by
        rcases least with rfl | precedes
        · exact first
        · exact first.trans precedes
      exact .inr (precedes.onward same.symm next next)

/-- Trails that lead on from the front of the queue go last. -/
theorem expand (ordered : Ordered edges source ((current, before) :: others))
    (layered : Layered edges source before.length reached ((current, before) :: others))
    (settled : Settled edges reached ((current, before) :: others)) :
    Ordered edges source
      (others ++ (fresh edges reached current).map fun node => (node, current :: before)) where
  earliest entry member := by
    rcases List.mem_append.mp member with older | newer
    · exact ordered.earliest entry (List.mem_cons_of_mem _ older)
    · obtain ⟨node, given, rfl⟩ := List.mem_map.mp newer
      exact ordered.earliest_fresh layered settled given
  level := by
    obtain ⟨ahead, -⟩ := List.pairwise_cons.mp ordered.ahead
    refine List.pairwise_append.mpr ⟨ordered.tail.level, ?_, ?_⟩
    · refine List.pairwise_map.mpr ((pairwise_fresh edges reached current).imp ?_)
      exact fun earlier _ => precedes_turn before earlier
    · intro one older other newer same
      obtain ⟨node, -, rfl⟩ := List.mem_map.mp newer
      exact (ahead one older same).onward same _ _
  ahead := by
    obtain ⟨level, -⟩ := List.pairwise_cons.mp ordered.level
    refine List.pairwise_append.mpr ⟨ordered.tail.ahead, ?_, ?_⟩
    · exact List.pairwise_map.mpr (List.pairwise_of_forall fun _ _ longer =>
        absurd longer (Nat.ne_of_lt (Nat.lt_succ_self _)))
    · intro one older other newer longer
      obtain ⟨node, -, rfl⟩ := List.mem_map.mp newer
      exact level one older (Nat.succ.inj longer)

end Ordered

/-! ### The walk that is found -/

/-- A trail that the search gives has the earliest turns of all that are as long. -/
theorem search_earliest {depth : Nat} {reached : List α} {queue : List (α × List α)}
    {before : List α} (layered : Layered edges source depth reached queue)
    (settled : Settled edges reached queue) (ordered : Ordered edges source queue)
    (found : search edges target reached queue = some (target :: before)) :
    Earliest edges source target before := by
  induction reached, queue using search_induction edges target generalizing depth with
  | empty reached =>
    rw [search_nil] at found
    cases found
  | barren reached current way others barren inductionHypothesis =>
    rw [search_of_barren target way others barren] at found
    have expanded := (layered.front settled).expand
    have done := settled.expand
    rw [barren, List.map_nil, List.append_nil, List.nil_append] at expanded done
    exact inductionHypothesis expanded done ordered.tail found
  | hit reached current way others hit =>
    rw [search_of_hit way others hit] at found
    cases found
    exact ordered.earliest_fresh (layered.front settled) settled hit
  | miss reached current way others fruitful miss inductionHypothesis =>
    rw [search_of_miss way others fruitful miss] at found
    exact inductionHypothesis (layered.front settled).expand settled.expand
      (ordered.expand (layered.front settled) settled) found

/-- The shortest walk that is found has the earliest turns of all that are as short. -/
theorem shortestWalk?_earliest {walk other : List α}
    (found : shortestWalk? edges source target = some walk)
    (isWalk : IsWalk edges source target other) (same : other.length = walk.length) :
    other = walk ∨ turns edges walk < turns edges other := by
  obtain ⟨way, rfl, trail⟩ := isWalk.trail
  unfold shortestWalk? at found
  split at found
  · next here =>
    cases found
    rw [List.length_reverse] at same
    cases List.length_eq_zero_iff.mp (Nat.succ.inj same)
    exact .inl (congrArg (fun node => [node]) here.symm)
  · obtain ⟨nodes, given, rfl⟩ := Option.map_eq_some_iff.mp found
    have trails : ∀ entry ∈ [(source, ([] : List α))], Trail edges source (entry.1 :: entry.2) := by
      intro entry member
      cases List.mem_singleton.mp member
      exact Trail.single edges source
    obtain ⟨current, before, rfl, -⟩ := search_sound trails given
    rw [List.length_reverse, List.length_reverse] at same
    have settled : Settled edges [source] [(source, [])] :=
      fun node member => .inl (by rwa [List.map_singleton])
    have least := search_earliest (.start edges source) settled (.start edges source) given
    rcases least way trail (Nat.succ.inj same) with rfl | precedes
    · exact .inl rfl
    · exact .inr precedes

end PathQuery.Graph

namespace PathQuery.Topology

variable {topology : Topology}

/-! ### Positions of links -/

/-- The position of the link between two types among the links of the first, in the order in which
they were added. -/
def position (topology : Topology) (source target : ResourceType) : Nat :=
  (topology.linksFrom source).findIdx (·.target == target)

/-- The positions of the links that a route takes. -/
def positions (topology : Topology) : List ResourceType → List Nat
  | source :: target :: rest =>
    topology.position source target :: topology.positions (target :: rest)
  | _ => []

theorem successors_edges (topology : Topology) (source : ResourceType) :
    Graph.successors topology.edges source = (topology.linksFrom source).map (·.target) := by
  rw [Graph.successors, edges, linksFrom, List.filter_map, List.map_map]
  rfl

theorem turns_edges (topology : Topology) (route : List ResourceType) :
    Graph.turns topology.edges route = topology.positions route := by
  induction route with
  | nil => rfl
  | cons first rest inductionHypothesis =>
    cases rest with
    | nil => rfl
    | cons second rest =>
      rw [Graph.turns, positions, inductionHypothesis, successors_edges, List.idxOf,
        List.findIdx_map, position]
      rfl

/-- Between two registered types that a route joins, routing answers with a route that is as short
as any. Of the routes that are as short it is the one that takes the earliest links: the positions
of the links of every other one follow its own. -/
theorem shortestPath_earliest (topology : Topology) {source target : ResourceType}
    (known : topology.contains source = true ∧ topology.contains target = true)
    (joined : ∃ route, IsRoute topology source target route) :
    ∃ path, topology.shortestPath source target = .ok path ∧
      IsRoute topology source target path ∧
      ∀ route, IsRoute topology source target route → path.length ≤ route.length ∧
        (route.length = path.length →
          route = path ∨ topology.positions path < topology.positions route) := by
  have registered := unknown?_eq_none_iff.mpr known
  have routed := routed registered
  obtain ⟨path, answered⟩ := routed.found_iff.mpr joined
  obtain ⟨isRoute, -, least⟩ := routed.shortest path answered
  refine ⟨path, answered, isRoute, fun route other => ⟨least route other, fun same => ?_⟩⟩
  have found := (shortestPath_eq_ok_iff registered).mp answered
  rw [← turns_edges, ← turns_edges]
  exact Graph.shortestWalk?_earliest found (isRoute_iff.mp other) same

/-- Two ways that are equally long lead from the first of four types to the last. The link to the
third type was added before that to the second one. -/
def fork : Except Error Topology := do
  let types ← ["a", "b", "c", "d"].foldlM
    (fun topology name => topology.addType (labType name) ["id"]) empty
  [("a", "c"), ("a", "b"), ("b", "d"), ("c", "d")].foldlM
    (fun topology ends => topology.addLink (labType ends.1) (labType ends.2) ⟨"id", "id"⟩) types

def forkEdges : Graph.Edges ResourceType :=
  [("a", "c"), ("a", "b"), ("b", "d"), ("c", "d")].map fun ends => (labType ends.1, labType ends.2)

theorem fork_edges : ∃ topology, fork = .ok topology ∧ topology.edges = forkEdges ∧
    (topology.contains (labType "a") = true ∧ topology.contains (labType "d") = true) ∧
    topology.positions [labType "a", labType "c", labType "d"] = [0, 0] ∧
    topology.positions [labType "a", labType "b", labType "d"] = [1, 0] :=
  ⟨_, rfl, rfl, ⟨rfl, rfl⟩, rfl, rfl⟩

/-- Of the types that the first one leads to, the third one comes before the second one. -/
theorem shortestWalk?_forkEdges : Graph.shortestWalk? forkEdges (labType "a") (labType "d") =
    some [labType "a", labType "c", labType "d"] := by
  have hit : labType "d" ∈ Graph.fresh forkEdges [labType "c", labType "b", labType "a"]
      (labType "c") := by
    decide
  rw [Graph.shortestWalk?, if_neg (by decide), Graph.search_of_miss [] [] (by decide) (by decide)]
  exact congrArg (Option.map List.reverse)
    (Graph.search_of_hit [labType "a"] [(labType "b", [labType "a"])] hit)

/-- The way by the third type is answered: its first link is at position zero, and that of the way
by the second type at position one. -/
theorem shortestPath_earliest_fork : ∃ topology, fork = .ok topology ∧
    topology.shortestPath (labType "a") (labType "d") =
      .ok [labType "a", labType "c", labType "d"] ∧
    topology.positions [labType "a", labType "b", labType "d"] = [1, 0] ∧
    ∀ route, IsRoute topology (labType "a") (labType "d") route → route.length = 3 →
      route = [labType "a", labType "c", labType "d"] ∨ [0, 0] < topology.positions route := by
  obtain ⟨topology, made, edges, registered, own, other⟩ := fork_edges
  have known := unknown?_eq_none_iff.mpr registered
  have answered : topology.shortestPath (labType "a") (labType "d") =
      .ok [labType "a", labType "c", labType "d"] := by
    rw [shortestPath_eq_ok_iff known, edges]
    exact shortestWalk?_forkEdges
  have joined := (routed known).found_iff.mp ⟨_, answered⟩
  obtain ⟨path, found, -, least⟩ := shortestPath_earliest topology registered joined
  cases answered.symm.trans found
  rw [own] at least
  exact ⟨topology, made, answered, other, fun route isRoute short => (least route isRoute).2 short⟩

end PathQuery.Topology
