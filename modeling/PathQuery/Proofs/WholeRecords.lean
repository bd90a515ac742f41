/-
This file says what becomes of queries, plans and results when attributes are left out. A query that
shows nothing compiles to the plan for whole records: the same nodes and links, without a selection
of attributes. A result without properties is that of groups without properties.
-/

import PathQuery.Proofs.Construction
import PathQuery.Proofs.Items

namespace PathQuery

/-! ### Queries that show nothing -/

/-- Whether a modifier sets a condition. -/
def Modifier.isSearch : Modifier → Bool
  | .show _ => false
  | .search _ => true

/-- An item without the attributes that it shows. -/
def QueryItem.bare (item : QueryItem) : QueryItem :=
  ⟨item.mention, item.modifiers.filter Modifier.isSearch⟩

/-- A query without the attributes that it shows. -/
def Query.bare (query : Query) : Query :=
  ⟨query.profiles, query.root.bare, query.sequence.map fun linked => (linked.1, linked.2.bare)⟩

theorem Query.items_bare (query : Query) : query.bare.items = query.items.map QueryItem.bare := by
  simp only [items, bare, List.map_cons, List.map_map]
  rfl

/-! ### Plans for whole records -/

namespace Plan

/-- A node for whole records. -/
def Spec.bare (spec : Spec) : Spec := { spec with attrs := [] }

/-- A node of a plan for whole records. -/
def Node.bare (node : Node) : Node := ⟨node.id, node.spec.bare⟩

/-- A plan for whole records. -/
def bare (plan : Plan) : Plan := ⟨plan.nodes.map Node.bare, plan.links⟩

variable {plan next : Plan} {id : String}

@[simp] theorem node?_bare (plan : Plan) (id : String) :
    plan.bare.node? id = (plan.node? id).map Node.bare := by
  rw [node?, node?, bare, List.find?_map]
  rfl

@[simp] theorem contains_bare (plan : Plan) (id : String) :
    plan.bare.contains id = plan.contains id := by
  rw [contains, contains, node?_bare, Option.isSome_map]

@[simp] theorem linksFrom_bare (plan : Plan) (id : String) :
    plan.bare.linksFrom id = plan.linksFrom id := rfl

theorem root_bare (plan : Plan) : plan.bare.root = plan.root.map Node.bare := by
  rw [root, root, node?_bare]
  cases plan.node? Identity.root <;> rfl

theorem fetchAttrs_bare (plan : Plan) (id : String) : plan.bare.fetchAttrs id = [] := by
  rw [fetchAttrs, node?_bare]
  cases plan.node? id <;> rfl

/-! ### Compiling a query that shows nothing -/

theorem addNode_bare {spec : Spec} (added : plan.addNode spec = .ok (next, id)) :
    plan.bare.addNode spec.bare = .ok (next.bare, id) := by
  rw [addNode] at added ⊢
  rw [bare, List.isEmpty_map]
  split at added
  · cases added
  · next set =>
    cases added
    rw [if_neg set]
    simp [bare, Node.bare]

theorem setRoot_bare {spec : Spec} (added : plan.setRoot spec = .ok (next, id)) :
    plan.bare.setRoot spec.bare = .ok (next.bare, id) := by
  rw [setRoot] at added ⊢
  rw [bare, List.isEmpty_map]
  split at added
  · next unset =>
    cases added
    rw [if_pos unset]
    rfl
  · cases added

theorem addLink_bare {source target : String} {mapping : Mapping}
    (added : plan.addLink source target mapping = .ok next) :
    plan.bare.addLink source target mapping = .ok next.bare := by
  obtain ⟨known, knownToo, apart, rfl⟩ := addLink_eq added
  exact addLink_ok source target mapping ((contains_bare plan source).trans known)
    ((contains_bare plan target).trans knownToo) apart

variable {topology : Topology} {readers : List Reader} {profiles : List String}

/-- Conditions are gathered alike when the attributes are left out. -/
theorem foldlM_add_bare {kind : ResourceType} {modifiers : List Modifier} :
    ∀ {asked last : Asked}, modifiers.foldlM (Asked.add topology kind) asked = .ok last →
    (modifiers.filter Modifier.isSearch).foldlM (Asked.add topology kind)
      ⟨[], asked.conditions⟩ = .ok ⟨[], last.conditions⟩ := by
  induction modifiers with
  | nil =>
    rintro asked last ⟨⟩
    rfl
  | cons modifier rest inductionHypothesis =>
    intro asked last folded
    rw [List.foldlM_cons, bind_eq_ok] at folded
    obtain ⟨next, added, folded⟩ := folded
    have continued := inductionHypothesis folded
    cases modifier with
    | «show» choice =>
      have conditions : next.conditions = asked.conditions := by
        cases choice with
        | all =>
          cases added
          rfl
        | named names =>
          rw [Asked.add] at added
          split at added
          · cases added
          · cases added
            rfl
      rw [conditions] at continued
      exact continued
    | search condition =>
      rw [Asked.add] at added
      split at added
      · next supports =>
        cases added
        refine bind_eq_ok.mpr ⟨_, ?_, continued⟩
        rw [Asked.add, if_pos supports]
      · cases added

theorem specOf_bare {item : QueryItem} {spec : Spec}
    (accepted : specOf topology readers profiles item = .ok spec) :
    specOf topology readers profiles item.bare = .ok spec.bare := by
  obtain ⟨kind, resolved, accepted⟩ := bind_eq_ok.mp accepted
  obtain ⟨asked, folded, accepted⟩ := bind_eq_ok.mp accepted
  obtain ⟨reader, found, accepted⟩ := bind_eq_ok.mp accepted
  cases accepted
  exact bind_eq_ok.mpr ⟨kind, resolved, bind_eq_ok.mpr ⟨_, foldlM_add_bare folded,
    bind_eq_ok.mpr ⟨reader, found, rfl⟩⟩⟩

theorem mapM_specOf_bare {items : List QueryItem} : ∀ {specs : List Spec},
    items.mapM (specOf topology readers profiles) = .ok specs →
    (items.map QueryItem.bare).mapM (specOf topology readers profiles) =
      .ok (specs.map Spec.bare) := by
  induction items with
  | nil =>
    rintro specs ⟨⟩
    rfl
  | cons item rest inductionHypothesis =>
    intro specs asked
    rw [List.mapM_cons, bind_eq_ok] at asked
    obtain ⟨spec, accepted, asked⟩ := asked
    obtain ⟨others, further, asked⟩ := bind_eq_ok.mp asked
    cases asked
    rw [List.map_cons, List.mapM_cons]
    exact bind_eq_ok.mpr ⟨_, specOf_bare accepted, bind_eq_ok.mpr
      ⟨_, inductionHypothesis further, rfl⟩⟩

theorem place_bare {specs : List Spec} : ∀ {plan next : Plan} {places : List Place},
    place specs plan = .ok (next, places) →
    place (specs.map Spec.bare) plan.bare = .ok (next.bare, places) := by
  induction specs with
  | nil =>
    rintro plan next places ⟨⟩
    rfl
  | cons spec rest inductionHypothesis =>
    intro plan next places placed
    rw [place] at placed
    rw [List.map_cons, place]
    have unset_eq : plan.bare.nodes.isEmpty = plan.nodes.isEmpty := List.isEmpty_map
    rw [unset_eq]
    split at placed
    · next unset =>
      rw [if_pos unset]
      obtain ⟨⟨grown, id⟩, added, placed⟩ := bind_eq_ok.mp placed
      obtain ⟨⟨last, others⟩, further, placed⟩ := bind_eq_ok.mp placed
      cases placed
      exact bind_eq_ok.mpr ⟨_, setRoot_bare added, bind_eq_ok.mpr
        ⟨_, inductionHypothesis further, rfl⟩⟩
    · next set =>
      rw [if_neg set]
      obtain ⟨⟨grown, id⟩, added, placed⟩ := bind_eq_ok.mp placed
      obtain ⟨⟨last, others⟩, further, placed⟩ := bind_eq_ok.mp placed
      cases placed
      exact bind_eq_ok.mpr ⟨_, addNode_bare added, bind_eq_ok.mpr
        ⟨_, inductionHypothesis further, rfl⟩⟩

theorem connectAlong_bare {goal : Place} {path : List ResourceType} :
    ∀ {current : Place} {plan next : Plan},
    connectAlong topology readers profiles goal current path plan = .ok next →
    connectAlong topology readers profiles goal current path plan.bare = .ok next.bare := by
  induction path with
  | nil =>
    rintro current plan next ⟨⟩
    rfl
  | cons kind rest inductionHypothesis =>
    intro current plan next connected
    cases rest with
    | nil =>
      obtain ⟨mapping, mapped, added⟩ := bind_eq_ok.mp connected
      exact bind_eq_ok.mpr ⟨mapping, mapped, addLink_bare added⟩
    | cons second rest =>
      obtain ⟨spec, asked, connected⟩ := bind_eq_ok.mp connected
      obtain ⟨⟨grown, id⟩, added, connected⟩ := bind_eq_ok.mp connected
      obtain ⟨mapping, mapped, connected⟩ := bind_eq_ok.mp connected
      obtain ⟨linked, joined, connected⟩ := bind_eq_ok.mp connected
      have whole : spec.bare = spec := by
        rw [Spec.bare, ← (hopSpec_ok asked).2.attrs]
      have addedBare := addNode_bare added
      rw [whole] at addedBare
      exact bind_eq_ok.mpr ⟨spec, asked, bind_eq_ok.mpr ⟨_, addedBare, bind_eq_ok.mpr
        ⟨mapping, mapped, bind_eq_ok.mpr ⟨_, addLink_bare joined, inductionHypothesis connected⟩⟩⟩⟩

theorem connect_bare {source target : Place}
    (connected : connect topology readers profiles source target plan = .ok next) :
    connect topology readers profiles source target plan.bare = .ok next.bare := by
  unfold connect at connected ⊢
  split at connected
  · next same =>
    rw [if_pos same]
    split at connected
    · exact addLink_bare connected
    · cases connected
  · next different =>
    rw [if_neg different]
    split at connected
    · cases connected
    · exact connectAlong_bare connected

theorem connectAll_bare {places : List Place} : ∀ {plan next : Plan},
    connectAll topology readers profiles places plan = .ok next →
    connectAll topology readers profiles places plan.bare = .ok next.bare := by
  induction places with
  | nil =>
    rintro plan next ⟨⟩
    rfl
  | cons first rest inductionHypothesis =>
    cases rest with
    | nil =>
      rintro plan next ⟨⟩
      rfl
    | cons second rest =>
      intro plan next connected
      obtain ⟨joined, first, connected⟩ := bind_eq_ok.mp connected
      exact bind_eq_ok.mpr ⟨_, connect_bare first, inductionHypothesis connected⟩

/-- A query that shows nothing compiles to the plan for whole records. -/
theorem compile_bare {query : Query} (compiled : compile query topology readers = .ok plan) :
    compile query.bare topology readers = .ok plan.bare := by
  obtain ⟨offer, given, compiled⟩ := bind_eq_ok.mp compiled
  obtain ⟨profiles, chosen, compiled⟩ := bind_eq_ok.mp compiled
  obtain ⟨specs, asked, compiled⟩ := bind_eq_ok.mp compiled
  obtain ⟨⟨placed, places⟩, added, compiled⟩ := bind_eq_ok.mp compiled
  refine bind_eq_ok.mpr ⟨offer, given, bind_eq_ok.mpr ⟨profiles, chosen, bind_eq_ok.mpr
    ⟨_, ?_, bind_eq_ok.mpr ⟨_, place_bare added, connectAll_bare compiled⟩⟩⟩⟩
  rw [Query.items_bare]
  exact mapM_specOf_bare asked

end Plan

/-! ### Results without properties -/

namespace Dict

variable {α β : Type}

/-- Changes every value of a dictionary. -/
def map (change : α → β) (dict : Dict α) : Dict β :=
  ⟨dict.entries.map fun entry => (entry.1, change entry.2), List.pairwise_map.mpr dict.ascending⟩

theorem get?_map (change : α → β) (dict : Dict α) (name : String) :
    (dict.map change).get? name = (dict.get? name).map change :=
  lookup_map change dict.entries name

theorem map_insert (change : α → β) (dict : Dict α) (name : String) (value : α) :
    (dict.insert name value).map change = (dict.map change).insert name (change value) := by
  refine ext_get? fun other => ?_
  rw [get?_map, get?_insert, get?_insert, get?_map]
  split <;> rfl

end Dict

/-- A record without its properties. -/
def Record.bare (record : Record) : Record := { record with properties := [] }

namespace Result

/-- An item without the properties of its record. -/
def Item.bare (item : Item) : Item := { item with record := item.record.bare }

/-- A group without the properties of its records. -/
def Group.bare (group : Group) : Group := { group with items := group.items.map Item.bare }

/-- A result without the properties of its records. -/
def bare (result : Result) : Result := { result with groups := result.groups.map Group.bare }

theorem record_bare (result : Result) (group : Group) :
    (result.record group).bare = result.bare.record group.bare := by
  have owners : noteOwners result.owners group.bare = noteOwners result.owners group := by
    rw [noteOwners, noteOwners, Group.bare, List.foldl_map]
    rfl
  simp only [bare, record, Dict.map_insert, owners]
  rfl

theorem ofGroups_bare (groups : List Group) :
    (ofGroups groups).bare = ofGroups (groups.map Group.bare) := by
  induction groups using List.reverseRecOn with
  | nil => rfl
  | append_singleton groups last inductionHypothesis =>
    rw [ofGroups_append_single, record_bare, inductionHypothesis, List.map_append,
      List.map_singleton, ofGroups_append_single]

end Result

end PathQuery
