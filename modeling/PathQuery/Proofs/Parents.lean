/-
This file describes a search that remembers of the walk to a node only the node before it, its
parent, and reads the walk back from the target once that is met. It meets the target exactly
where the search that keeps whole walks does. Reading back never comes to a node without a
parent before it comes to the source, and gives the walk that the other search finds.
-/

import PathQuery.Proofs.Reachability

namespace PathQuery.Graph

variable {α : Type} [DecidableEq α]

/-! ### Parents -/

/-- Nodes that have been reached, each with its parent, the latest first. -/
abbrev Parents (α : Type) := List (α × α)

/-- Whether a node has a parent. -/
def Parents.holds (parents : Parents α) (node : α) : Bool := (parents.lookup node).isSome

theorem lookup_cons_self (parents : Parents α) (node parent : α) :
    List.lookup node ((node, parent) :: parents) = some parent := by
  rw [List.lookup_cons, beq_self_eq_true]

theorem holds_cons (parents : Parents α) (node parent other : α) :
    Parents.holds ((node, parent) :: parents) other = (other == node || parents.holds other) := by
  rw [Parents.holds, List.lookup_cons]
  cases other == node <;> rfl

/-- Reading back the parents from a node to the source. It ends at the source, and every node before
has a parent. -/
inductive Traces (parents : Parents α) (source : α) : α → List α → Prop where
  | here : Traces parents source source [source]
  | back {node parent : α} {rest : List α} : node ≠ source →
    parents.lookup node = some parent → Traces parents source parent rest →
    Traces parents source node (node :: rest)

/-- Nodes keep the parents that they have. -/
def Keeps (parents grown : Parents α) : Prop :=
  ∀ node parent, parents.lookup node = some parent → grown.lookup node = some parent

theorem Keeps.cons {parents : Parents α} {node : α} (parent : α)
    (fresh : parents.holds node = false) : Keeps parents ((node, parent) :: parents) := by
  intro other held found
  have different : other ≠ node := by
    rintro rfl
    rw [Parents.holds, found] at fresh
    cases fresh
  rw [List.lookup_cons, beq_eq_false_iff_ne.mpr different]
  exact found

theorem Keeps.trans {parents grown last : Parents α} (first : Keeps parents grown)
    (second : Keeps grown last) : Keeps parents last :=
  fun node parent found => second node parent (first node parent found)

theorem Traces.keep {parents grown : Parents α} {source node : α} {nodes : List α}
    (traces : Traces parents source node nodes) (keeps : Keeps parents grown) :
    Traces grown source node nodes := by
  induction traces with
  | here => exact .here
  | back different found _ inductionHypothesis =>
    exact .back different (keeps _ _ found) inductionHypothesis

/-! ### Adopting successors -/

/-- Makes a node the parent of those among further nodes that have none, one after the other, and
puts them at the end of the queue. Where the target is among them there is no queue any more. -/
def adopt (target current : α) (parents : Parents α) (waiting : List α) :
    List α → Parents α × Option (List α)
  | [] => (parents, some waiting)
  | next :: rest =>
    if parents.holds next then adopt target current parents waiting rest
    else if next = target then ((next, current) :: parents, none)
    else adopt target current ((next, current) :: parents) (waiting ++ [next]) rest

/-- Those of further nodes that have no parent, each once. -/
def orphans (parents : Parents α) (further : List α) : List α :=
  (further.filter fun next => !parents.holds next).eraseDups

theorem orphans_cons_of_holds {parents : Parents α} {next : α} {rest : List α}
    (held : parents.holds next = true) :
    orphans parents (next :: rest) = orphans parents rest := by
  rw [orphans, List.filter_cons_of_neg (by rw [held]; decide), orphans]

/-- The first orphan is adopted, and the other orphans are orphans still. -/
theorem orphans_cons_of_fresh {parents : Parents α} {next : α} {rest : List α} (parent : α)
    (fresh : parents.holds next = false) :
    orphans parents (next :: rest) = next :: orphans ((next, parent) :: parents) rest := by
  rw [orphans, List.filter_cons_of_pos (by rw [fresh]; decide), List.eraseDups_cons,
    List.filter_filter, orphans]
  refine congrArg (fun list => next :: List.eraseDups list) (List.filter_congr fun other _ => ?_)
  rw [holds_cons, Bool.not_or]

/-- What adopting leaves where the target is not among the orphans. -/
structure Adopted (current : α) (parents grown : Parents α) (new : List α) : Prop where
  keeps : Keeps parents grown
  adopts : ∀ node ∈ new, grown.lookup node = some current
  only : ∀ node, grown.holds node = true ↔ node ∈ new ∨ parents.holds node = true

theorem Adopted.none (current : α) (parents : Parents α) : Adopted current parents parents [] where
  keeps _ _ found := found
  adopts _ member := absurd member List.not_mem_nil
  only _ := ⟨.inr, fun either => either.resolve_left List.not_mem_nil⟩

theorem Adopted.cons {current next : α} {parents grown : Parents α} {new : List α}
    (fresh : parents.holds next = false)
    (adopted : Adopted current ((next, current) :: parents) grown new) :
    Adopted current parents grown (next :: new) where
  keeps := (Keeps.cons current fresh).trans adopted.keeps
  adopts node member := by
    rcases List.mem_cons.mp member with rfl | later
    · exact adopted.keeps node current (lookup_cons_self parents node current)
    · exact adopted.adopts node later
  only node := by
    rw [adopted.only, holds_cons, Bool.or_eq_true, beq_iff_eq, List.mem_cons, or_assoc,
      or_left_comm]

theorem adopt_of_not_mem (target : α) {current : α} {further : List α} {parents : Parents α}
    (waiting : List α) (missed : target ∉ orphans parents further) :
    ∃ grown, adopt target current parents waiting further =
        (grown, some (waiting ++ orphans parents further)) ∧
      Adopted current parents grown (orphans parents further) := by
  induction further generalizing parents waiting with
  | nil =>
    have none : orphans parents [] = [] := List.eraseDups_nil
    rw [none, List.append_nil]
    exact ⟨parents, rfl, .none current parents⟩
  | cons next rest inductionHypothesis =>
    rw [adopt]
    by_cases held : parents.holds next = true
    · rw [if_pos held]
      rw [orphans_cons_of_holds held] at missed ⊢
      exact inductionHypothesis waiting missed
    · have fresh := Bool.eq_false_iff.mpr held
      rw [orphans_cons_of_fresh current fresh] at missed ⊢
      have different : next ≠ target := fun same => missed (same ▸ List.mem_cons_self)
      rw [if_neg held, if_neg different]
      obtain ⟨grown, same, adopted⟩ := inductionHypothesis (waiting ++ [next])
        fun later => missed (List.mem_cons_of_mem next later)
      exact ⟨grown, by rw [same, List.append_assoc]; rfl, adopted.cons fresh⟩

/-- Adopting stops at the target where it is among the orphans. -/
theorem adopt_of_mem {target current : α} {further : List α} {parents : Parents α}
    (waiting : List α) (hit : target ∈ orphans parents further) :
    ∃ grown, adopt target current parents waiting further = (grown, none) ∧
      Keeps parents grown ∧ grown.lookup target = some current := by
  induction further generalizing parents waiting with
  | nil => exact absurd hit List.not_mem_nil
  | cons next rest inductionHypothesis =>
    rw [adopt]
    by_cases held : parents.holds next = true
    · rw [if_pos held]
      rw [orphans_cons_of_holds held] at hit
      exact inductionHypothesis waiting hit
    · have fresh := Bool.eq_false_iff.mpr held
      have keeps := Keeps.cons current fresh
      rw [if_neg held]
      rw [orphans_cons_of_fresh current fresh] at hit
      by_cases here : next = target
      · subst here
        rw [if_pos rfl]
        exact ⟨_, rfl, keeps, lookup_cons_self parents next current⟩
      · rw [if_neg here]
        have later := (List.mem_cons.mp hit).resolve_left fun same => here same.symm
        obtain ⟨grown, same, further, found⟩ := inductionHypothesis (waiting ++ [next]) later
        exact ⟨grown, same, keeps.trans further, found⟩

/-! ### The search -/

/-- The edges that lead to a node without a parent. -/
def openTo (edges : Edges α) (parents : Parents α) : Edges α :=
  edges.filter fun edge => !parents.holds edge.2

/-- A node that is adopted closes the edge that leads to it. -/
theorem length_openTo_lt {edges : Edges α} {parents grown : Parents α} {current next : α}
    {new : List α} (adopted : Adopted current parents grown new) (given : next ∈ new)
    (fresh : next ∈ orphans parents (successors edges current)) :
    (openTo edges grown).length < (openTo edges parents).length := by
  have stillOpen : openTo edges grown =
      (openTo edges parents).filter fun edge => !grown.holds edge.2 := by
    rw [openTo, openTo, List.filter_filter]
    refine List.filter_congr fun edge _ => ?_
    cases held : parents.holds edge.2 with
    | false => rw [Bool.not_false, Bool.and_true]
    | true => rw [(adopted.only edge.2).mpr (.inr held)]; rfl
  simp only [orphans, List.mem_eraseDups, List.mem_filter, mem_successors] at fresh
  rw [stillOpen]
  refine List.length_filter_lt_length_iff_exists.mpr ⟨(current, next), ?_, ?_⟩
  · exact List.mem_filter.mpr fresh
  · rw [(adopted.only next).mpr (.inl given)]
    decide

/-- Where nothing is adopted, the same edges are open. -/
theorem openTo_eq {edges : Edges α} {parents grown : Parents α} {current : α}
    (adopted : Adopted current parents grown []) : openTo edges grown = openTo edges parents := by
  refine List.filter_congr fun edge _ => ?_
  rw [Bool.eq_iff_iff.mpr ((adopted.only edge.2).trans (or_iff_right List.not_mem_nil))]

/-- Taking a node from the queue leaves fewer edges open or shortens the queue. -/
theorem adopt_decreases {edges : Edges α} {target current : α} {parents grown : Parents α}
    {waiting left : List α}
    (same : adopt target current parents waiting (successors edges current) = (grown, some left)) :
    Prod.Lex (· < ·) (· < ·) ((openTo edges grown).length, left.length)
      ((openTo edges parents).length, waiting.length + 1) := by
  by_cases hit : target ∈ orphans parents (successors edges current)
  · obtain ⟨_, other, -⟩ := adopt_of_mem waiting hit
    cases other.symm.trans same
  · obtain ⟨_, other, adopted⟩ := adopt_of_not_mem target waiting hit
    cases other.symm.trans same
    cases new : orphans parents (successors edges current) with
    | nil =>
      rw [new] at adopted
      rw [openTo_eq adopted, List.append_nil]
      exact .right _ (Nat.lt_succ_self waiting.length)
    | cons next rest =>
      have fresh : next ∈ orphans parents (successors edges current) :=
        new ▸ List.mem_cons_self
      exact .left _ _ (length_openTo_lt adopted fresh fresh)

/-- Searches for a node from the nodes in a queue, all of which have a parent. Gives the parents
once the node is met. -/
def explore (edges : Edges α) (target : α) (parents : Parents α) :
    List α → Option (Parents α)
  | [] => none
  | current :: waiting =>
    match _same : adopt target current parents waiting (successors edges current) with
    | (grown, none) => some grown
    | (grown, some left) => explore edges target grown left
termination_by waiting => ((openTo edges parents).length, waiting.length)
decreasing_by exact adopt_decreases _same

theorem explore_nil (edges : Edges α) (target : α) (parents : Parents α) :
    explore edges target parents [] = none := by
  rw [explore]

theorem explore_of_hit {edges : Edges α} {target current : α} {parents grown : Parents α}
    {waiting : List α}
    (hit : adopt target current parents waiting (successors edges current) = (grown, none)) :
    explore edges target parents (current :: waiting) = some grown := by
  rw [explore]
  split
  · rename_i other same
    cases hit.symm.trans same
    rfl
  · rename_i other left same
    cases hit.symm.trans same

theorem explore_of_miss {edges : Edges α} {target current : α} {parents grown : Parents α}
    {waiting left : List α}
    (miss : adopt target current parents waiting (successors edges current) = (grown, some left)) :
    explore edges target parents (current :: waiting) = explore edges target grown left := by
  rw [explore]
  split
  · rename_i other same
    cases miss.symm.trans same
  · rename_i other left same
    cases miss.symm.trans same
    rfl

/-! ### Both searches agree -/

/-- The parents hold the walks in the queue of the other search. -/
structure Tracks (source : α) (reached : List α) (queue : List (α × List α))
    (parents : Parents α) : Prop where
  same : ∀ node, parents.holds node = reached.contains node
  rooted : source ∈ reached
  traced : ∀ entry ∈ queue, Traces parents source entry.1 (entry.1 :: entry.2)

theorem Tracks.start (source : α) : Tracks source [source] [(source, [])] [(source, source)] where
  same node := by
    rw [holds_cons, List.contains_cons]
    rfl
  rooted := List.mem_singleton_self source
  traced entry member := by
    cases List.mem_singleton.mp member
    exact .here

namespace Tracks

variable {edges : Edges α} {source current : α} {before : List α} {reached : List α}
  {others : List (α × List α)} {parents grown : Parents α}

/-- The orphans are the fresh successors. -/
theorem orphans_eq {queue : List (α × List α)} (tracks : Tracks source reached queue parents)
    (node : α) : orphans parents (successors edges node) = fresh edges reached node := by
  simp only [orphans, fresh, tracks.same]

/-- An adopted node is read back through its parent. -/
theorem traces (tracks : Tracks source reached ((current, before) :: others) parents)
    (keeps : Keeps parents grown) {node : α} (unmet : node ∉ reached)
    (found : grown.lookup node = some current) :
    Traces grown source node (node :: current :: before) := by
  refine .back (fun same => unmet (same ▸ tracks.rooted)) found ?_
  exact (tracks.traced (current, before) List.mem_cons_self).keep keeps

theorem expand (tracks : Tracks source reached ((current, before) :: others) parents)
    (adopted : Adopted current parents grown (fresh edges reached current)) :
    Tracks source (fresh edges reached current ++ reached)
      (others ++ (fresh edges reached current).map fun node => (node, current :: before))
      grown where
  same node := by
    rw [Bool.eq_iff_iff, adopted.only, tracks.same, List.contains_iff_mem, List.contains_iff_mem,
      List.mem_append]
  rooted := List.mem_append_right _ tracks.rooted
  traced entry member := by
    rcases List.mem_append.mp member with older | newer
    · exact (tracks.traced entry (List.mem_cons_of_mem _ older)).keep adopted.keeps
    · obtain ⟨node, given, rfl⟩ := List.mem_map.mp newer
      exact tracks.traces adopted.keeps (mem_fresh_iff.mp given).2 (adopted.adopts node given)

end Tracks

/-- The search for parents meets the target where the search for walks finds one, and reads that
walk back. -/
theorem explore_eq (edges : Edges α) {source : α} (target : α) {reached : List α}
    {queue : List (α × List α)} {parents : Parents α}
    (tracks : Tracks source reached queue parents) :
    (search edges target reached queue = none ∧
        explore edges target parents (queue.map (·.1)) = none) ∨
      ∃ walk grown, search edges target reached queue = some walk ∧
        explore edges target parents (queue.map (·.1)) = some grown ∧
        Traces grown source target walk := by
  induction reached, queue using search_induction edges target generalizing parents with
  | empty reached => exact .inl ⟨search_nil edges target reached, explore_nil edges target parents⟩
  | barren reached current before others barren inductionHypothesis =>
    have none : orphans parents (successors edges current) = [] :=
      (tracks.orphans_eq current).trans barren
    obtain ⟨grown, miss, adopted⟩ := adopt_of_not_mem target (others.map (·.1))
      (by rw [none]; exact List.not_mem_nil)
    rw [none, List.append_nil] at miss
    rw [search_of_barren target before others barren, List.map_cons, explore_of_miss miss]
    rw [none, ← barren] at adopted
    have expanded := tracks.expand adopted
    rw [barren, List.map_nil, List.append_nil, List.nil_append] at expanded
    exact inductionHypothesis expanded
  | hit reached current before others hit =>
    have orphan : target ∈ orphans parents (successors edges current) :=
      tracks.orphans_eq current ▸ hit
    obtain ⟨grown, met, keeps, found⟩ := adopt_of_mem (others.map (·.1)) orphan
    refine .inr ⟨_, grown, search_of_hit before others hit, explore_of_hit met, ?_⟩
    exact tracks.traces keeps (mem_fresh_iff.mp hit).2 found
  | miss reached current before others fruitful miss inductionHypothesis =>
    have same : orphans parents (successors edges current) = fresh edges reached current :=
      tracks.orphans_eq current
    obtain ⟨grown, missed, adopted⟩ := adopt_of_not_mem target (others.map (·.1))
      (by rw [same]; exact miss)
    rw [same] at missed adopted
    rw [search_of_miss before others fruitful miss, List.map_cons, explore_of_miss missed]
    have expanded := inductionHypothesis (tracks.expand adopted)
    rw [List.map_append, List.map_map] at expanded
    have nodes : (fresh edges reached current).map
        ((fun entry : α × List α => entry.1) ∘ fun node => (node, current :: before)) =
        fresh edges reached current := List.map_id _
    rwa [nodes] at expanded

/-- From the source, which is its own parent, the search for parents and reading back from a target
give the shortest walk, where there is one. -/
theorem explore_iff (edges : Edges α) {source target : α} (different : source ≠ target) :
    (shortestWalk? edges source target = none ∧
        explore edges target [(source, source)] [source] = none) ∨
      ∃ walk grown, shortestWalk? edges source target = some walk.reverse ∧
        explore edges target [(source, source)] [source] = some grown ∧
        Traces grown source target walk := by
  rw [shortestWalk?, if_neg different]
  rcases explore_eq edges target (.start source) with
    ⟨unfound, unmet⟩ | ⟨walk, grown, found, met, traces⟩
  · exact .inl ⟨by rw [unfound]; rfl, unmet⟩
  · exact .inr ⟨walk, grown, by rw [found]; rfl, met, traces⟩

end PathQuery.Graph
