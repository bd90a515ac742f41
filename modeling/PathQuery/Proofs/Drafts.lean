/-
This file proves that the drafts of plans stay sound under all sequences of additions, with refused
ones among them. A draft is compared with the plan that holds its nodes and links in order: every
addition answers the same for both, and what it leaves behind is the draft of the plan that it leads
to. A refused addition leaves the draft as it was, with its count of nodes.
-/

import PathQuery.Plan.Draft
import PathQuery.Proofs.Construction
import PathQuery.Proofs.Demands
import PathQuery.Proofs.Descent
import PathQuery.Proofs.Histories
import PathQuery.Proofs.Steps

namespace PathQuery.Plan

/-! ### Values under identities -/

namespace Entries

variable {α : Type} {id : String} {change : Option α → α}

theorem lookup_map_of_mem {ids : List String} (held : String → α) (member : id ∈ ids) :
    (ids.map fun key => (key, held key)).lookup id = some (held id) := by
  induction ids with
  | nil => exact absurd member List.not_mem_nil
  | cons first rest inductionHypothesis =>
    rw [List.map_cons, List.lookup_cons]
    by_cases same : id = first
    · rw [same, beq_self_eq_true]
    · rw [beq_false_of_ne same]
      exact inductionHypothesis ((List.mem_cons.mp member).resolve_left same)

/-- A value under a new identity goes last. -/
theorem alter_of_fresh {entries : Entries α} (fresh : ∀ entry ∈ entries, entry.1 ≠ id) :
    entries.alter id change = entries ++ [(id, change none)] := by
  induction entries with
  | nil => rfl
  | cons first rest inductionHypothesis =>
    rw [alter, if_neg (fresh first List.mem_cons_self),
      inductionHypothesis fun entry member => fresh entry (List.mem_cons_of_mem _ member)]
    rfl

/-- A value under an identity that is there is changed in its place. -/
theorem alter_of_mem {ids : List String} (held : String → α) (distinct : ids.Nodup)
    (member : id ∈ ids) : Entries.alter id change (ids.map fun key => (key, held key)) =
      ids.map fun key => (key, if key = id then change (some (held id)) else held key) := by
  induction ids with
  | nil => exact absurd member List.not_mem_nil
  | cons first rest inductionHypothesis =>
    obtain ⟨apart, distinct⟩ := List.nodup_cons.mp distinct
    rw [List.map_cons, List.map_cons, alter]
    by_cases same : first = id
    · subst same
      rw [if_pos rfl, if_pos rfl]
      refine congrArg _ (List.map_congr_left fun key later => ?_)
      have different : key ≠ first := fun same => apart (same ▸ later)
      rw [if_neg different]
    · rw [if_neg same, if_neg same,
        inductionHypothesis distinct ((List.mem_cons.mp member).resolve_left (Ne.symm same))]

/-- One value that grows by one element makes all of them together longer by one. -/
theorem length_flatMap_alter (entries : Entries (List α)) (added : α) :
    ((entries.alter id fun held => held.getD [] ++ [added]).flatMap (·.2)).length =
      (entries.flatMap (·.2)).length + 1 := by
  induction entries with
  | nil => rfl
  | cons first rest inductionHypothesis =>
    rw [alter]
    by_cases same : first.1 = id
    · rw [if_pos same]
      simp only [List.flatMap_cons, List.length_append, Option.getD_some, List.length_singleton]
      omega
    · rw [if_neg same]
      simp only [List.flatMap_cons, List.length_append, inductionHypothesis]
      omega

end Entries

namespace Draft

/-! ### What single changes leave behind -/

theorem after_bind {α β : Type} (draft : Draft) (first : Change α) (rest : α → Change β) :
    draft.after (first >>= rest) =
      onward (fun value next => next.after (rest value)) (draft.after first) :=
  run_bind first rest draft

theorem after_map {α β : Type} (draft : Draft) (change : Change α) (convert : α → β) :
    draft.after (convert <$> change) =
      ((draft.after change).1.map convert, (draft.after change).2) := by
  rw [← bind_pure_comp, after_bind]
  rcases draft.after change with ⟨_ | _, next⟩
  · rfl
  · rfl

theorem after_get (draft : Draft) : draft.after get = (.ok draft, draft) := rfl

theorem after_setRoot (draft : Draft) (spec : Spec) : draft.after (setRoot spec) =
    if draft.root.isSome then (.error .rootAlreadySet, draft)
    else (.ok Identity.root, { draft with
      nodes := draft.nodes.alter Identity.root fun _ => ⟨Identity.root, spec⟩
      root := some Identity.root }) := by
  obtain ⟨nodes, links, _ | id, count⟩ := draft
  · rfl
  · rfl

theorem after_addNode (draft : Draft) (spec : Spec) : draft.after (addNode spec) =
    if draft.root.isNone then (.error .rootNotSet, draft)
    else (.ok (nodeId (draft.count + 1)), { draft with
      nodes := draft.nodes.alter (nodeId (draft.count + 1)) fun _ =>
        ⟨nodeId (draft.count + 1), spec⟩
      count := draft.count + 1 }) := by
  obtain ⟨nodes, links, _ | id, count⟩ := draft
  · rfl
  · rfl

theorem after_require (draft : Draft) (id : String) : draft.after (require id) =
    (if draft.contains id then .ok () else .error (.unknownNode id), draft) := by
  rw [require, after_bind, after_get, onward_ok]
  cases draft.contains id with
  | false => rfl
  | true => rfl

/-- The ends of a link are looked at before the cycles that it would close. -/
theorem after_addLink (draft : Draft) (source target : String) (mapping : Mapping) :
    draft.after (addLink source target mapping) =
      if !draft.contains source then (.error (.unknownNode source), draft)
      else if !draft.contains target then (.error (.unknownNode target), draft)
      else if source = target || draft.reaches target source then
        (.error (.cycle source target), draft)
      else (.ok (), { draft with
        links := draft.links.alter source fun held =>
          held.getD [] ++ [⟨source, target, mapping⟩] }) := by
  rw [addLink, after_bind, after_require]
  cases draft.contains source with
  | false => rfl
  | true =>
    rw [if_pos rfl, if_neg (by decide), onward_ok, after_bind, after_require]
    cases draft.contains target with
    | false => rfl
    | true =>
      rw [if_pos rfl, if_neg (by decide), onward_ok, after_bind, after_get, onward_ok]
      split
      · rfl
      · rfl

/-! ### The graph of a draft -/

/-- A link starts from one identity and leads to another. -/
def Leads (draft : Draft) (source target : String) : Prop :=
  ∃ link ∈ draft.allLinks, link.source = source ∧ link.target = target

/-- With one more link, the links would lead from some identity back to it. -/
def ClosesCycle (draft : Draft) (source target : String) : Prop :=
  ∃ id, Relation.TransGen
    (fun first second => draft.Leads first second ∨ (first = source ∧ second = target)) id id

theorem follows_iff {draft : Draft} {source target : String} :
    draft.adjacency.Follows source target ↔
      ∃ link ∈ draft.linksFrom source, link.target = target := by
  have next : draft.adjacency.next source = (draft.linksFrom source).map (·.target) := by
    rw [Graph.Adjacency.next, adjacency, Dict.lookup_map, linksFrom]
    cases draft.links.lookup source with
    | none => rfl
    | some held => rfl
  rw [Graph.Adjacency.Follows, next, List.mem_map]

end Draft

/-! ### Plans as drafts -/

/-- The draft that holds the nodes and links of a plan. -/
def draft (plan : Plan) : Draft where
  nodes := plan.nodes.map fun node => (node.id, node)
  links := (plan.links.map (·.source)).eraseDups.map fun id => (id, plan.linksFrom id)
  root := if plan.nodes.isEmpty then none else some Identity.root
  count := plan.nodes.length - 1

theorem contains_draft (plan : Plan) (id : String) :
    plan.draft.contains id = plan.contains id := by
  have found : ∀ nodes : List Node, (nodes.map fun node => (node.id, node)).lookup id =
      nodes.find? (·.id == id) := by
    intro nodes
    induction nodes with
    | nil => rfl
    | cons first rest inductionHypothesis =>
      rw [List.map_cons, List.lookup_cons, List.find?_cons, Bool.beq_comm, inductionHypothesis]
  rw [Draft.contains, contains, node?, draft, found]

theorem linksFrom_draft (plan : Plan) (id : String) :
    plan.draft.linksFrom id = plan.linksFrom id := by
  rw [Draft.linksFrom, draft]
  by_cases member : id ∈ plan.links.map (·.source)
  · rw [Entries.lookup_map_of_mem _ (List.mem_eraseDups.mpr member), Option.getD_some]
  · have missing : List.lookup id ((plan.links.map (·.source)).eraseDups.map
        fun id => (id, plan.linksFrom id)) = none := by
      refine List.lookup_eq_none_iff.mpr fun entry given => ?_
      obtain ⟨key, listed, rfl⟩ := List.mem_map.mp given
      exact bne_iff_ne.mpr fun same => member (same ▸ List.mem_eraseDups.mp listed)
    rw [missing, Option.getD_none, eq_comm, List.eq_nil_iff_forall_not_mem]
    intro link given
    obtain ⟨held, rfl⟩ := mem_linksFrom.mp given
    exact member (List.mem_map_of_mem held)

theorem mem_allLinks_draft {plan : Plan} {link : Link} :
    link ∈ plan.draft.allLinks ↔ link ∈ plan.links := by
  simp only [Draft.allLinks, draft, List.mem_flatMap, List.mem_map, List.mem_eraseDups]
  constructor
  · rintro ⟨_, ⟨id, -, rfl⟩, given⟩
    exact (mem_linksFrom.mp given).1
  · exact fun given => ⟨_, ⟨link.source, ⟨link, given, rfl⟩, rfl⟩, mem_linksFrom.mpr ⟨given, rfl⟩⟩

theorem leads_draft (plan : Plan) : plan.draft.Leads = Graph.Leads plan.edges := by
  funext source target
  simp only [Draft.Leads, Graph.Leads, edges, List.mem_map, Prod.mk.injEq, mem_allLinks_draft]

/-- A draft searches exactly along the links of its plan. -/
theorem reaches_draft {plan : Plan} {start goal : String} : plan.draft.reaches start goal = true ↔
    Relation.ReflTransGen (Graph.Leads plan.edges) start goal := by
  have same : plan.draft.adjacency.Follows = Graph.Leads plan.edges := by
    funext source target
    simp only [Draft.follows_iff, linksFrom_draft, mem_linksFrom, Graph.Leads, edges,
      List.mem_map, Prod.mk.injEq, and_assoc]
  rw [Draft.reaches, Graph.descends_iff, same]

/-! ### An addition to a plan and to its draft -/

theorem draft_append_node {plan : Plan} (formed : WellFormed plan) (set : plan.nodes ≠ [])
    (spec : Spec) :
    draft { plan with nodes := plan.nodes ++ [⟨idAt plan.nodes.length, spec⟩] } =
      { plan.draft with
        nodes := plan.draft.nodes.alter (idAt plan.nodes.length) fun _ =>
          ⟨idAt plan.nodes.length, spec⟩
        root := some Identity.root
        count := plan.draft.count + 1 } := by
  have fresh : ∀ entry ∈ plan.draft.nodes, entry.1 ≠ idAt plan.nodes.length := by
    intro entry member
    obtain ⟨node, given, rfl⟩ := List.mem_map.mp member
    have numbered := List.mem_map_of_mem (f := (·.id)) given
    rw [formed.numbered] at numbered
    obtain ⟨number, before, same⟩ := List.mem_map.mp numbered
    intro last
    rw [idAt_injective (same.trans last)] at before
    exact Nat.lt_irrefl _ (List.mem_range.mp before)
  have after : (plan.nodes ++ [(⟨idAt plan.nodes.length, spec⟩ : Node)]).isEmpty = false :=
    List.isEmpty_eq_false_iff.mpr (List.append_ne_nil_of_left_ne_nil set _)
  have counted : plan.nodes.length + 1 - 1 = plan.nodes.length - 1 + 1 :=
    (Nat.sub_add_cancel (List.length_pos_of_ne_nil set)).symm
  rw [Entries.alter_of_fresh fresh]
  simp only [draft, after, counted, List.map_append, List.map_singleton, List.length_append,
    List.length_singleton, linksFrom]
  rfl

theorem draft_append_link (plan : Plan) (added : Link) :
    draft { plan with links := plan.links ++ [added] } =
      { plan.draft with
        links := plan.draft.links.alter added.source fun held => held.getD [] ++ [added] } := by
  simp only [draft, List.map_append, List.map_singleton, eraseDups_append_single,
    linksFrom_append]
  congr 1
  by_cases member : added.source ∈ plan.links.map (·.source)
  · rw [if_pos member, Entries.alter_of_mem _ (nodup_eraseDups _) (List.mem_eraseDups.mpr member)]
    refine List.map_congr_left fun id _ => ?_
    by_cases same : id = added.source
    · rw [if_pos same, if_pos same, same, Option.getD_some]
    · rw [if_neg same, if_neg same]
  · have fresh : ∀ id ∈ (plan.links.map (·.source)).eraseDups, id ≠ added.source :=
      fun id given same => member (same ▸ List.mem_eraseDups.mp given)
    have unlinked : plan.linksFrom added.source = [] := by
      refine List.eq_nil_iff_forall_not_mem.mpr fun link given => ?_
      obtain ⟨held, same⟩ := mem_linksFrom.mp given
      exact member (same ▸ List.mem_map_of_mem held)
    rw [if_neg member, List.map_append, Entries.alter_of_fresh (by simpa using fresh)]
    refine congrArg₂ _ (List.map_congr_left fun id given => ?_) ?_
    · rw [if_neg (fresh id given)]
    · rw [List.map_singleton, if_pos rfl, unlinked, Option.getD_none]

/-- What an addition to a plan answers, and the draft that is left behind. -/
def answered (plan : Plan) (addition : Addition) : Except Error (Option String) × Draft :=
  match plan.add addition with
  | .ok (next, id) => (.ok id, next.draft)
  | .error error => (.error error, plan.draft)

theorem links_of_no_nodes {plan : Plan} (formed : WellFormed plan) (unset : plan.nodes = []) :
    plan.links = [] := by
  refine List.eq_nil_iff_forall_not_mem.mpr fun link member => ?_
  obtain ⟨node, given, -⟩ := contains_iff.mp (formed.joined link member).1
  rw [unset] at given
  exact List.not_mem_nil given

theorem after_root {plan : Plan} (formed : WellFormed plan) (spec : Spec) :
    plan.draft.after (Draft.add (.root spec)) = plan.answered (.root spec) := by
  rw [Draft.add, Draft.after_map, Draft.after_setRoot, answered, add, setRoot]
  cases set : plan.nodes with
  | nil =>
    obtain ⟨nodes, links⟩ := plan
    cases set
    cases links_of_no_nodes formed rfl
    rfl
  | cons first rest =>
    have rooted : plan.draft.root = some Identity.root := by
      rw [draft, set]
      rfl
    rw [rooted]
    rfl

theorem after_node {plan : Plan} (formed : WellFormed plan) (spec : Spec) :
    plan.draft.after (Draft.add (.node spec)) = plan.answered (.node spec) := by
  rw [Draft.add, Draft.after_map, Draft.after_addNode, answered, add]
  cases set : plan.nodes with
  | nil =>
    obtain ⟨nodes, links⟩ := plan
    cases set
    rfl
  | cons first rest =>
    have filled : plan.nodes ≠ [] := set ▸ List.cons_ne_nil first rest
    have rooted : plan.draft.root = some Identity.root := by
      rw [draft, set]
      rfl
    have numbered : nodeId (plan.draft.count + 1) = idAt plan.nodes.length := by
      rw [draft, set]
      rfl
    have added : plan.addNode spec = .ok (⟨plan.nodes ++ [⟨idAt plan.nodes.length, spec⟩],
        plan.links⟩, idAt plan.nodes.length) := by
      rw [addNode, set]
      rfl
    rw [added, rooted, numbered]
    exact congrArg (Prod.mk _) (draft_append_node formed filled spec).symm

/-- A draft answers to a link by what its plan has. -/
theorem after_addLink_draft (plan : Plan) (source target : String) (mapping : Mapping) :
    plan.draft.after (Draft.addLink source target mapping) =
      if !plan.contains source then (.error (.unknownNode source), plan.draft)
      else if !plan.contains target then (.error (.unknownNode target), plan.draft)
      else if Graph.reaches plan.edges target source then
        (.error (.cycle source target), plan.draft)
      else (.ok (), draft { plan with links := plan.links ++ [⟨source, target, mapping⟩] }) := by
  have closing : (source = target || plan.draft.reaches target source : Bool) =
      Graph.reaches plan.edges target source := by
    rw [Bool.eq_iff_iff, Bool.or_eq_true, decide_eq_true_eq, reaches_draft, Graph.reaches_iff]
    exact or_iff_right_of_imp fun same => same ▸ .refl
  rw [Draft.after_addLink, closing, contains_draft, contains_draft, draft_append_link]

theorem after_link (plan : Plan) (source target : String) (mapping : Mapping) :
    plan.draft.after (Draft.add (.link source target mapping)) =
      plan.answered (.link source target mapping) := by
  rw [Draft.add, Draft.after_bind, after_addLink_draft, answered, add, addLink]
  split_ifs
  · rfl
  · rfl
  · rfl
  · rfl

/-- An addition answers the same for a plan and for its draft, and it leaves the draft of the plan
behind that it leads to. -/
theorem after_add {plan : Plan} (formed : WellFormed plan) (addition : Addition) :
    plan.draft.after (Draft.add addition) = plan.answered addition := by
  cases addition with
  | root spec => exact after_root formed spec
  | node spec => exact after_node formed spec
  | link source target mapping => exact after_link plan source target mapping

/-! ### All sequences of additions -/

/-- The drafts that additions lead to, with refused ones among them. -/
inductive Draft.Reached : Draft → Prop where
  | empty : Reached .empty
  | add {draft : Draft} (addition : Addition) :
    Reached draft → Reached (draft.after (Draft.add addition)).2

theorem Built.add {plan next : Plan} {addition : Addition} {id : Option String}
    (built : Built plan) (added : plan.add addition = .ok (next, id)) : Built next := by
  cases addition with
  | root spec =>
    obtain ⟨made, set, same⟩ := map_eq_ok added
    cases same
    exact .setRoot built set
  | node spec =>
    obtain ⟨made, set, same⟩ := map_eq_ok added
    cases same
    exact .addNode built set
  | link source target mapping =>
    obtain ⟨made, set, same⟩ := map_eq_ok added
    cases same
    exact .addLink built set

theorem Draft.Reached.built {draft : Draft} (reached : Draft.Reached draft) :
    ∃ plan, Built plan ∧ plan.draft = draft := by
  induction reached with
  | empty => exact ⟨.empty, .empty, rfl⟩
  | add addition _ inductionHypothesis =>
    obtain ⟨plan, built, rfl⟩ := inductionHypothesis
    rw [after_add built.wellFormed, answered]
    split
    · rename_i next id added
      exact ⟨next, built.add added, rfl⟩
    · exact ⟨plan, built, rfl⟩

theorem Draft.Reached.grow {plan next : Plan} {addition : Addition} {id : Option String}
    (reached : Draft.Reached plan.draft) (formed : WellFormed plan)
    (added : plan.add addition = .ok (next, id)) : Draft.Reached next.draft := by
  have left := reached.add addition
  rw [after_add formed, answered, added] at left
  exact left

theorem Built.reached {plan : Plan} (built : Built plan) : Draft.Reached plan.draft := by
  induction built with
  | empty => exact .empty
  | @setRoot plan next spec id built set inductionHypothesis =>
    have added : plan.add (.root spec) = .ok (next, some id) := by
      rw [Plan.add, set]
      rfl
    exact inductionHypothesis.grow built.wellFormed added
  | @addNode plan next spec id built set inductionHypothesis =>
    have added : plan.add (.node spec) = .ok (next, some id) := by
      rw [Plan.add, set]
      rfl
    exact inductionHypothesis.grow built.wellFormed added
  | @addLink plan next source target mapping built set inductionHypothesis =>
    have added : plan.add (.link source target mapping) = .ok (next, none) := by
      rw [Plan.add, set]
      rfl
    exact inductionHypothesis.grow built.wellFormed added

/-! ### What holds of every draft that is reached -/

namespace Draft

/-- What all drafts have in common that additions lead to. -/
structure Sound (draft : Draft) : Prop where
  acyclic : ∀ id, ¬ Relation.TransGen draft.Leads id id
  ownSource : ∀ entry ∈ draft.links, ∀ link ∈ entry.2, link.source = entry.1
  joined : ∀ link ∈ draft.allLinks, draft.contains link.source ∧ draft.contains link.target
  ownId : ∀ entry ∈ draft.nodes, entry.2.id = entry.1
  distinct : (draft.nodes.map (·.1)).Nodup
  rooted : draft.nodes = [] ↔ draft.root = none

/-- What linking two nodes answers, and what it leaves behind where it succeeds. -/
structure LinksExactly (draft : Draft) (source target : String) (mapping : Mapping) : Prop where
  unknown : ∀ id, (draft.after (addLink source target mapping)).1 = .error (.unknownNode id) ↔
    (source = id ∧ ¬ draft.contains source) ∨
      (target = id ∧ draft.contains source ∧ ¬ draft.contains target)
  cyclic : (draft.after (addLink source target mapping)).1 = .error (.cycle source target) ↔
    draft.contains source ∧ draft.contains target ∧ draft.ClosesCycle source target
  closes : draft.ClosesCycle source target ↔
    source = target ∨ Relation.ReflTransGen draft.Leads target source
  accepted : (draft.after (addLink source target mapping)).1 = .ok () ↔
    draft.contains source ∧ draft.contains target ∧ ¬ draft.ClosesCycle source target
  appended : (draft.after (addLink source target mapping)).1 = .ok () →
    let next := (draft.after (addLink source target mapping)).2
    next.linksFrom source = draft.linksFrom source ++ [⟨source, target, mapping⟩] ∧
      (∀ other, other ≠ source → next.linksFrom other = draft.linksFrom other) ∧
      next.allLinks.length = draft.allLinks.length + 1 ∧
      next.nodes = draft.nodes ∧ next.root = draft.root ∧ next.count = draft.count

end Draft

/-- The draft of a well formed plan is sound. -/
theorem WellFormed.draft_sound {plan : Plan} (formed : WellFormed plan) : plan.draft.Sound where
  acyclic id path := by
    rw [leads_draft, ← Relation.transGen_swap] at path
    exact formed.descends.transGen.irrefl.irrefl id path
  ownSource entry member link given := by
    obtain ⟨id, -, rfl⟩ := List.mem_map.mp member
    exact (mem_linksFrom.mp given).2
  joined link member := by
    rw [contains_draft, contains_draft]
    exact formed.joined link (mem_allLinks_draft.mp member)
  ownId entry member := by
    obtain ⟨node, -, rfl⟩ := List.mem_map.mp member
    rfl
  distinct := by
    rw [draft, List.map_map]
    exact formed.nodup_ids
  rooted := by
    rw [draft, List.map_eq_nil_iff]
    cases plan.nodes with
    | nil => exact iff_of_true rfl rfl
    | cons first rest => exact iff_of_false (List.cons_ne_nil first rest) nofun

/-- One more link closes a cycle exactly where its end leads to its start. -/
theorem closesCycle_draft {plan : Plan} (formed : WellFormed plan) (source target : String) :
    plan.draft.ClosesCycle source target ↔
      Relation.ReflTransGen (Graph.Leads plan.edges) target source := by
  have joined : (fun first second =>
      plan.draft.Leads first second ∨ (first = source ∧ second = target)) =
      Graph.Leads (plan.edges ++ [(source, target)]) := by
    funext first second
    rw [leads_draft, Graph.leads_append_single]
  rw [Draft.ClosesCycle, joined]
  constructor
  · rintro ⟨id, path⟩
    by_contra apart
    have descends := Graph.wellFounded_append formed.descends apart
    rw [← Relation.transGen_swap] at path
    exact descends.transGen.irrefl.irrefl id path
  · intro back
    have kept : ∀ first second, Graph.Leads plan.edges first second →
        Graph.Leads (plan.edges ++ [(source, target)]) first second :=
      fun first second leads => Graph.leads_append_single.mpr (.inl leads)
    exact ⟨target, .tail' (Relation.ReflTransGen.mono kept _ _ back)
      (Graph.leads_append_single.mpr (.inr ⟨rfl, rfl⟩))⟩

/-- A draft refuses a link for its source, for its target or for a cycle, or it takes the link. -/
theorem after_addLink_cases {plan : Plan} (formed : WellFormed plan) (source target : String)
    (mapping : Mapping) :
    let answered := plan.draft.after (Draft.addLink source target mapping)
    (¬ plan.draft.contains source ∧ answered = (.error (.unknownNode source), plan.draft)) ∨
    (plan.draft.contains source ∧ ¬ plan.draft.contains target ∧
      answered = (.error (.unknownNode target), plan.draft)) ∨
    (plan.draft.contains source ∧ plan.draft.contains target ∧
      plan.draft.ClosesCycle source target ∧
      answered = (.error (.cycle source target), plan.draft)) ∨
    (plan.draft.contains source ∧ plan.draft.contains target ∧
      ¬ plan.draft.ClosesCycle source target ∧
      answered =
        (.ok (), draft { plan with links := plan.links ++ [⟨source, target, mapping⟩] })) := by
  rw [after_addLink_draft, contains_draft, contains_draft, closesCycle_draft formed,
    ← Graph.reaches_iff]
  cases plan.contains source with
  | false => exact .inl ⟨Bool.false_ne_true, rfl⟩
  | true =>
    cases plan.contains target with
    | false => exact .inr (.inl ⟨rfl, Bool.false_ne_true, rfl⟩)
    | true =>
      cases Graph.reaches plan.edges target source with
      | true => exact .inr (.inr (.inl ⟨rfl, rfl, rfl, rfl⟩))
      | false => exact .inr (.inr (.inr ⟨rfl, rfl, Bool.false_ne_true, rfl⟩))

theorem linksExactly_draft {plan : Plan} (formed : WellFormed plan) (source target : String)
    (mapping : Mapping) : plan.draft.LinksExactly source target mapping := by
  have closes : plan.draft.ClosesCycle source target ↔
      source = target ∨ Relation.ReflTransGen plan.draft.Leads target source := by
    rw [closesCycle_draft formed, leads_draft]
    exact (or_iff_right_of_imp fun same => same ▸ .refl).symm
  rcases after_addLink_cases formed source target mapping with ⟨missing, answer⟩ |
    ⟨known, missing, answer⟩ | ⟨known, knownToo, back, answer⟩ | ⟨known, knownToo, apart, answer⟩
  · refine ⟨?_, ?_, closes, ?_, ?_⟩ <;> simp [answer, missing]
  · refine ⟨?_, ?_, closes, ?_, ?_⟩ <;> simp [answer, known, missing]
  · refine ⟨?_, ?_, closes, ?_, ?_⟩ <;> simp [answer, known, knownToo, back]
  · refine ⟨?_, ?_, closes, ?_, fun _ => ?_⟩
    · simp [answer, known, knownToo]
    · simp [answer, apart]
    · simp [answer, known, knownToo, apart]
    · rw [answer]
      refine ⟨?_, fun other different => ?_, ?_, rfl, rfl, rfl⟩
      · rw [linksFrom_draft, linksFrom_draft, linksFrom_append, if_pos rfl]
      · rw [linksFrom_draft, linksFrom_draft, linksFrom_append, if_neg different]
      · rw [draft_append_link]
        exact Entries.length_flatMap_alter plan.draft.links _

/-- Along every sequence of additions, with refused ones among them, a draft has no cycle of links,
its links join nodes and are held under their sources, its nodes are held under their own different
identities, and there is a root exactly where there are nodes. Linking two nodes is refused exactly
where an end is missing, the source being looked at first, or where a cycle would close, and it adds
one link otherwise. The search along links is exact. What is refused leaves all of the draft as it
was. The plan that holds the same nodes and links gives the same answers. -/
theorem additions_keep_drafts_sound {draft : Draft} (reached : Draft.Reached draft) :
    draft.Sound ∧
    (∀ source target mapping, draft.LinksExactly source target mapping) ∧
    (∀ start goal, draft.reaches start goal = true ↔
      Relation.ReflTransGen draft.Leads start goal) ∧
    (∀ addition error, (draft.after (Draft.add addition)).1 = .error error →
      (draft.after (Draft.add addition)).2 = draft) ∧
    ∃ plan, Built plan ∧ plan.draft = draft ∧
      ∀ addition, draft.after (Draft.add addition) = plan.answered addition := by
  obtain ⟨plan, built, rfl⟩ := reached.built
  have formed := built.wellFormed
  refine ⟨formed.draft_sound, linksExactly_draft formed, fun start goal => ?_,
    fun addition error refused => ?_, plan, built, rfl, after_add formed⟩
  · rw [leads_draft]
    exact reaches_draft
  · rw [after_add formed, answered] at refused ⊢
    split at refused
    · cases refused
    · rfl

/-- The node of a plan that asks a reader which breaks off. -/
def brokenNode (id name : String) : Node :=
  ⟨id, ⟨⟨"lab", name⟩, ["main"], [], [], Run.brokenOff⟩⟩

/-- A plan of two nodes, with a link from the root to the other one. -/
def deadEnd : Plan :=
  ⟨[brokenNode Identity.root "probe", brokenNode (nodeId 1) "sample"],
    [⟨Identity.root, nodeId 1, ⟨"sample", "id"⟩⟩]⟩

theorem deadEnd_built : deadEnd.Built := by
  have root : Built ⟨[brokenNode Identity.root "probe"], []⟩ := .setRoot .empty rfl
  have node : Built ⟨[brokenNode Identity.root "probe", brokenNode (nodeId 1) "sample"], []⟩ :=
    .addNode root rfl
  exact node.addLink (addLink_ok_of_leaf Identity.root (nodeId 1) ⟨"sample", "id"⟩ rfl rfl
    (nodeId_ne_root 1).symm fun _ member => absurd member List.not_mem_nil)

/-- Of two nodes the first is linked to the second. A link back is refused for the cycle that it
would close, and the draft stays as it was. -/
theorem additions_keep_drafts_sound_deadEnd :
    Draft.Reached deadEnd.draft ∧
    (deadEnd.draft.after (Draft.addLink (nodeId 1) Identity.root ⟨"id", "sample"⟩)).1 =
      .error (.cycle (nodeId 1) Identity.root) ∧
    (deadEnd.draft.after (Draft.add (.link (nodeId 1) Identity.root ⟨"id", "sample"⟩))).2 =
      deadEnd.draft := by
  have reached := deadEnd_built.reached
  obtain ⟨-, links, -, refused, -⟩ := additions_keep_drafts_sound reached
  have exactly := links (nodeId 1) Identity.root ⟨"id", "sample"⟩
  have leads : deadEnd.draft.Leads Identity.root (nodeId 1) :=
    ⟨_, mem_allLinks_draft.mpr List.mem_cons_self, rfl, rfl⟩
  have answer := exactly.cyclic.mpr ⟨rfl, rfl, exactly.closes.mpr (.inr (.single leads))⟩
  refine ⟨reached, answer, refused _ (.cycle (nodeId 1) Identity.root) ?_⟩
  rw [Draft.add, Draft.after_bind]
  generalize deadEnd.draft.after (Draft.addLink (nodeId 1) Identity.root _) = left at answer ⊢
  obtain ⟨_, next⟩ := left
  cases answer
  rfl

end PathQuery.Plan
