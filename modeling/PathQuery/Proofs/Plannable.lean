/-
This file says which queries can be planned, and why the others cannot. A query is planned exactly
where the profiles, types, attributes and readers that it needs are there and every item can be
connected with the next. Every refusal gives one of these reasons, and none comes from the
building of the plan.
-/

import PathQuery.Proofs.Connections
import PathQuery.Query.Written

namespace PathQuery.Plan

/-! ### What a query needs -/

/-- A mention stands for a registered type: by namespace and name, or by a name that the types of
one namespace only have. -/
inductive Denotes (topology : Topology) : TypeMention → ResourceType → Prop where
  | qualified {space name : String} : space ≠ "" → name ≠ "" →
    topology.contains ⟨space, name⟩ = true → Denotes topology (.qualified space name) ⟨space, name⟩
  | bare {space name : String} : name ≠ "" → topology.spaces name = [space] →
    topology.contains ⟨space, name⟩ = true → Denotes topology (.bare name) ⟨space, name⟩

/-- A type has the attributes that a modifier names. -/
def Supported (topology : Topology) (kind : ResourceType) : Modifier → Prop
  | .show .all => True
  | .show (.named names) => ∀ name ∈ names, topology.supports kind name = true
  | .search condition => topology.supports kind condition.attr = true

/-- All that a query needs is there. -/
structure Plannable (query : Query) (topology : Topology) (readers : List Reader) : Prop where
  /-- No profile is advertised twice. -/
  distinct : (advertised readers).Nodup
  /-- Profiles that are chosen are advertised. -/
  chosen : ∀ names, query.profiles = .only names → ∀ name ∈ names, name ∈ advertised readers
  /-- Every item mentions a type. -/
  denotes : ∀ item ∈ query.items, ∃ kind, Denotes topology item.mention kind
  /-- The type has the attributes that the item shows or searches. -/
  supported : ∀ item ∈ query.items, ∀ kind, Denotes topology item.mention kind →
    ∀ modifier ∈ item.modifiers, Supported topology kind modifier
  /-- There is a reader for the type. -/
  read : ∀ item ∈ query.items, ∀ kind, Denotes topology item.mention kind → HasReader readers kind
  /-- The type can be connected with that of the next item. -/
  connected : ∀ first second, [first, second] <:+: query.items → ∀ source target,
    Denotes topology first.mention source → Denotes topology second.mention target →
    Connectable topology readers source target

/-! ### Why a query is refused -/

/-- Why a mention stands for no registered type. -/
inductive Unresolved (topology : Topology) : TypeMention → Error → Prop where
  | nameless {mention : TypeMention} : "" ∈ mention.names →
    Unresolved topology mention (.badMention mention.text)
  | unknownName {name : String} : topology.spaces name = [] →
    Unresolved topology (.bare name) (.topology (.unknownName name))
  | ambiguous {name : String} {spaces : List String} : topology.spaces name = spaces →
    1 < spaces.length → Unresolved topology (.bare name) (.ambiguousType name spaces)
  | unknownBare {space name : String} : topology.spaces name = [space] →
    topology.contains ⟨space, name⟩ = false →
    Unresolved topology (.bare name) (.topology (.unknownType ⟨space, name⟩))
  | unknownQualified {space name : String} : topology.contains ⟨space, name⟩ = false →
    Unresolved topology (.qualified space name) (.topology (.unknownType ⟨space, name⟩))

/-- Why a type does not have the attributes that a modifier names. -/
inductive Unsupported (topology : Topology) (kind : ResourceType) : Modifier → Error → Prop where
  | attr {names : List String} {name : String} : name ∈ names →
    topology.supports kind name = false →
    Unsupported topology kind (.show (.named names)) (.unsupportedAttr kind name)
  | condition {condition : Condition} : topology.supports kind condition.attr = false →
    Unsupported topology kind (.search condition) (.unsupportedCondition kind condition.attr)

/-- Why there is no node for an item. -/
inductive ItemRefused (topology : Topology) (readers : List Reader) (item : QueryItem) :
    Error → Prop where
  | mention {error : Error} : Unresolved topology item.mention error →
    ItemRefused topology readers item error
  | modifier {kind : ResourceType} {modifier : Modifier} {error : Error} :
    Denotes topology item.mention kind → modifier ∈ item.modifiers →
    Unsupported topology kind modifier error → ItemRefused topology readers item error
  | reader {kind : ResourceType} : Denotes topology item.mention kind → ¬ HasReader readers kind →
    ItemRefused topology readers item (.noReader kind.space)

/-- Why a query is refused. -/
inductive Refused (query : Query) (topology : Topology) (readers : List Reader) : Error → Prop where
  | shared {repeated : List String} : repeated ≠ [] →
    (∀ profile, profile ∈ repeated ↔ 1 < (advertised readers).count profile) →
    Refused query topology readers (.sharedProfiles repeated)
  | unknown {names : List String} {name : String} : query.profiles = .only names → name ∈ names →
    name ∉ advertised readers → Refused query topology readers (.unknownProfile name)
  | item {item : QueryItem} {error : Error} : item ∈ query.items →
    ItemRefused topology readers item error → Refused query topology readers error
  | connection {first second : QueryItem} {source target : ResourceType} {error : Error} :
    [first, second] <:+: query.items → Denotes topology first.mention source →
    Denotes topology second.mention target → Unconnected topology readers source target error →
    Refused query topology readers error

/-- Whether an error is a reason to refuse a query. The others tell of plans and topologies that
were put together wrongly. -/
def Error.isReason : Error → Bool
  | .sharedProfiles _ | .unknownProfile _ | .ambiguousType _ _ | .badMention _ => true
  | .unsupportedAttr _ _ | .unsupportedCondition _ _ | .noReader _ => true
  | .topology (.unknownType _) | .topology (.unknownName _) | .topology (.noPath _ _) => true
  | _ => false

variable {topology : Topology} {readers : List Reader} {profiles : List String}

theorem Unresolved.isReason {mention : TypeMention} {error : Error}
    (unresolved : Unresolved topology mention error) : error.isReason = true := by
  cases unresolved <;> rfl

theorem Refused.isReason {query : Query} {error : Error}
    (refused : Refused query topology readers error) : error.isReason = true := by
  cases refused with
  | shared => rfl
  | unknown => rfl
  | item member refused =>
    cases refused with
    | mention unresolved => exact unresolved.isReason
    | modifier denotes among unsupported => cases unsupported <;> rfl
    | reader => rfl
  | connection pair source target unconnected => cases unconnected <;> rfl

/-! ### Reasons against a plan -/

theorem Denotes.unique {mention : TypeMention} {kind other : ResourceType}
    (denotes : Denotes topology mention kind) (also : Denotes topology mention other) :
    kind = other := by
  cases denotes with
  | qualified => cases also; rfl
  | bare _ found =>
    cases also with
    | bare _ foundToo =>
      obtain ⟨rfl, -⟩ := List.cons.inj (found.symm.trans foundToo)
      rfl

theorem Unresolved.not_denotes {mention : TypeMention} {error : Error} {kind : ResourceType}
    (unresolved : Unresolved topology mention error) : ¬ Denotes topology mention kind := by
  intro denotes
  cases denotes with
  | qualified spaced named held =>
    cases unresolved with
    | nameless empty =>
      simp only [TypeMention.names, List.mem_cons, List.not_mem_nil, or_false] at empty
      exact empty.elim (fun same => spaced same.symm) fun same => named same.symm
    | unknownQualified missing => rw [held] at missing; cases missing
  | bare named found held =>
    cases unresolved with
    | nameless empty => exact named (List.mem_singleton.mp empty).symm
    | unknownName none => rw [found] at none; cases none
    | ambiguous several more =>
      rw [← several, found] at more
      exact Nat.lt_irrefl 1 more
    | unknownBare one missing =>
      obtain ⟨rfl, -⟩ := List.cons.inj (found.symm.trans one)
      rw [held] at missing
      cases missing

theorem Unsupported.not_supported {kind : ResourceType} {modifier : Modifier} {error : Error}
    (unsupported : Unsupported topology kind modifier error) :
    ¬ Supported topology kind modifier := by
  intro supported
  cases unsupported with
  | attr among missing =>
    rw [supported _ among] at missing
    cases missing
  | condition missing =>
    rw [show topology.supports kind _ = true from supported] at missing
    cases missing

/-- There is no reason to refuse a query that has all it needs. -/
theorem Refused.not_plannable {query : Query} {error : Error}
    (refused : Refused query topology readers error) : ¬ Plannable query topology readers := by
  intro plannable
  cases refused with
  | shared some_repeated repeated_iff =>
    obtain ⟨profile, repeated⟩ := List.exists_mem_of_ne_nil _ some_repeated
    exact absurd ((repeated_iff profile).mp repeated)
      (Nat.not_lt.mpr (List.nodup_iff_count_le_one.mp plannable.distinct profile))
  | unknown choice among missing => exact missing (plannable.chosen _ choice _ among)
  | item member refused =>
    cases refused with
    | mention unresolved =>
      obtain ⟨kind, denotes⟩ := plannable.denotes _ member
      exact unresolved.not_denotes denotes
    | modifier denotes among unsupported =>
      exact unsupported.not_supported (plannable.supported _ member _ denotes _ among)
    | reader denotes unread => exact unread (plannable.read _ member _ denotes)
  | connection pair source target unconnected =>
    exact unconnected.not_connectable (plannable.connected _ _ pair _ _ source target)

/-! ### The profiles -/

theorem mem_keys_ofList {names : List String} {name : String} :
    name ∈ (NameSet.ofList names).keys ↔ name ∈ names := by
  rw [NameSet.ofList, Dict.ofPairs, List.foldl_map]
  suffices added : ∀ set : NameSet,
      name ∈ (names.foldl (fun set name => set.insert name ()) set).keys ↔
        name ∈ set.keys ∨ name ∈ names by
    rw [added]
    exact or_iff_right List.not_mem_nil
  induction names with
  | nil => exact fun set => (or_iff_left List.not_mem_nil).symm
  | cons first rest inductionHypothesis =>
    intro set
    rw [List.foldl_cons, inductionHypothesis, Dict.mem_keys_insert, List.mem_cons, or_assoc,
      or_left_comm]

theorem mem_shared {profiles : List String} {profile : String} :
    profile ∈ shared profiles ↔ 1 < profiles.count profile := by
  rw [shared, mem_keys_ofList, List.mem_filter, decide_eq_true_eq]
  exact and_iff_right_of_imp fun more => List.count_pos_iff.mp (Nat.zero_lt_of_lt more)

/-- The profiles on offer are those that are advertised, unless one is advertised twice. -/
theorem offered_outcome (readers : List Reader) :
    ((advertised readers).Nodup ∧ ∃ offer, offered readers = .ok offer ∧
        ∀ profile, profile ∈ offer ↔ profile ∈ advertised readers) ∨
      ∃ repeated, repeated ≠ [] ∧
        (∀ profile, profile ∈ repeated ↔ 1 < (advertised readers).count profile) ∧
        offered readers = .error (.sharedProfiles repeated) := by
  rw [offered]
  split
  · next none =>
    refine .inl ⟨List.nodup_iff_count_le_one.mpr fun profile => ?_, _, rfl,
      fun _ => mem_keys_ofList⟩
    have unshared : profile ∉ shared (advertised readers) := by
      rw [none]
      exact List.not_mem_nil
    exact Nat.not_lt.mp fun more => unshared (mem_shared.mpr more)
  · next some => exact .inr ⟨_, some, fun _ => mem_shared, rfl⟩

/-- Profiles are chosen out of those on offer. -/
theorem selected_outcome (choice : ProfileChoice) (offer : List String) :
    ((∀ names, choice = .only names → ∀ name ∈ names, name ∈ offer) ∧
        ∃ profiles, selected choice offer = .ok profiles) ∨
      ∃ names name, choice = .only names ∧ name ∈ names ∧ name ∉ offer ∧
        selected choice offer = .error (.unknownProfile name) := by
  cases choice with
  | all =>
    refine .inl ⟨fun names same => ?_, _, rfl⟩
    cases same
  | only names =>
    cases names with
    | nil =>
      refine .inl ⟨fun names same => ?_, _, rfl⟩
      cases same
      exact List.forall_mem_nil _
    | cons first further =>
      rw [selected]
      · split
        · next name found =>
          have missing := List.find?_some found
          rw [Bool.not_eq_true', List.contains_eq_mem, decide_eq_false_iff_not] at missing
          exact .inr ⟨_, name, rfl, List.mem_of_find?_eq_some found, missing, rfl⟩
        · next none =>
          refine .inl ⟨fun names same name member => ?_, _, rfl⟩
          cases same
          have offers := List.find?_eq_none.mp none name member
          rwa [Bool.not_eq_true', Bool.not_eq_false, List.contains_iff_mem] at offers
      · intro none
        cases none

/-! ### The items -/

/-- A mention stands for a type, once that is registered, or there is a reason why not. -/
theorem candidate_outcome (mention : TypeMention) (topology : Topology) :
    (∃ kind, mention.candidate topology = .ok kind ∧
        (topology.contains kind = true → Denotes topology mention kind) ∧
        (topology.contains kind = false →
          Unresolved topology mention (.topology (.unknownType kind)))) ∨
      ∃ error, Unresolved topology mention error ∧ mention.candidate topology = .error error := by
  cases mention with
  | qualified space name =>
    rw [TypeMention.candidate]
    split
    · next empty =>
      rw [Bool.or_eq_true, String.isEmpty_iff, String.isEmpty_iff] at empty
      refine .inr ⟨_, .nameless ?_, rfl⟩
      rcases empty with rfl | rfl
      · exact List.mem_cons_self
      · exact List.mem_cons_of_mem _ List.mem_cons_self
    · next full =>
      rw [Bool.or_eq_true, String.isEmpty_iff, String.isEmpty_iff, not_or] at full
      exact .inl ⟨_, rfl, .qualified full.1 full.2, .unknownQualified⟩
  | bare name =>
    rw [TypeMention.candidate]
    split
    · next empty =>
      rw [String.isEmpty_iff] at empty
      refine .inr ⟨_, .nameless ?_, rfl⟩
      rw [empty]
      exact List.mem_cons_self
    · next full =>
      rw [String.isEmpty_iff] at full
      rw [Topology.spacesOf]
      cases found : topology.spaces name with
      | nil => exact .inr ⟨_, .unknownName found, rfl⟩
      | cons first further =>
        cases further with
        | nil => exact .inl ⟨_, rfl, .bare full found, .unknownBare found⟩
        | cons second rest =>
          exact .inr ⟨_, .ambiguous found (Nat.succ_lt_succ (Nat.succ_pos _)), rfl⟩

/-- A mention stands for a registered type, or there is a reason why not. -/
theorem resolve_outcome (mention : TypeMention) (topology : Topology) :
    (∃ kind, Denotes topology mention kind ∧ mention.resolve topology = .ok kind) ∨
      ∃ error, Unresolved topology mention error ∧ mention.resolve topology = .error error := by
  rcases candidate_outcome mention topology with
    ⟨kind, found, denotes, unresolved⟩ | ⟨error, unresolved, refused⟩
  · cases held : topology.contains kind with
    | true =>
      exact .inl ⟨kind, denotes held, bind_eq_ok.mpr ⟨kind, found, by rw [held]; rfl⟩⟩
    | false =>
      exact .inr ⟨_, unresolved held, bind_eq_error.mpr (.inr ⟨kind, found, by rw [held]; rfl⟩)⟩
  · exact .inr ⟨error, unresolved, bind_eq_error.mpr (.inl refused)⟩

/-- A modifier names attributes of a type, or there is a reason why not. -/
theorem add_outcome (topology : Topology) (asked : Asked) (kind : ResourceType)
    (modifier : Modifier) :
    (Supported topology kind modifier ∧ ∃ next, asked.add topology kind modifier = .ok next) ∨
      ∃ error, Unsupported topology kind modifier error ∧
        asked.add topology kind modifier = .error error := by
  match modifier with
  | .show .all => exact .inl ⟨trivial, _, rfl⟩
  | .show (.named names) =>
    rw [Asked.add]
    split
    · next name found =>
      have missing := List.find?_some found
      rw [Bool.not_eq_true'] at missing
      exact .inr ⟨_, .attr (List.mem_of_find?_eq_some found) missing, rfl⟩
    · next none =>
      refine .inl ⟨fun name member => ?_, _, rfl⟩
      have supports := List.find?_eq_none.mp none name member
      rwa [Bool.not_eq_true', Bool.not_eq_false] at supports
  | .search condition =>
    rw [Asked.add]
    cases supports : topology.supports kind condition.attr with
    | false => exact .inr ⟨_, .condition supports, rfl⟩
    | true => exact .inl ⟨supports, _, rfl⟩

theorem foldlM_add_outcome (topology : Topology) (kind : ResourceType) (modifiers : List Modifier) :
    ∀ asked : Asked,
    ((∀ modifier ∈ modifiers, Supported topology kind modifier) ∧
        ∃ last, modifiers.foldlM (Asked.add topology kind) asked = .ok last) ∨
      ∃ modifier ∈ modifiers, ∃ error, Unsupported topology kind modifier error ∧
        modifiers.foldlM (Asked.add topology kind) asked = .error error := by
  induction modifiers with
  | nil => exact fun _ => .inl ⟨nofun, _, rfl⟩
  | cons modifier rest inductionHypothesis =>
    intro asked
    rw [List.foldlM_cons]
    rcases add_outcome topology asked kind modifier with
      ⟨supported, next, added⟩ | ⟨error, unsupported, refused⟩
    · rw [added]
      rcases inductionHypothesis next with ⟨all, done⟩ | ⟨other, among, reason⟩
      · exact .inl ⟨List.forall_mem_cons.mpr ⟨supported, all⟩, done⟩
      · exact .inr ⟨other, List.mem_cons_of_mem _ among, reason⟩
    · rw [refused]
      exact .inr ⟨modifier, List.mem_cons_self, error, unsupported, rfl⟩

/-- There is a node for an item, or a reason why not. -/
theorem specOf_outcome (topology : Topology) (readers : List Reader) (profiles : List String)
    (item : QueryItem) :
    ((∃ kind, Denotes topology item.mention kind ∧
          (∀ modifier ∈ item.modifiers, Supported topology kind modifier) ∧
          HasReader readers kind) ∧
        ∃ spec, specOf topology readers profiles item = .ok spec) ∨
      ∃ error, ItemRefused topology readers item error ∧
        specOf topology readers profiles item = .error error := by
  rcases resolve_outcome item.mention topology with
    ⟨kind, denotes, resolved⟩ | ⟨error, unresolved, refused⟩
  · rcases foldlM_add_outcome topology kind item.modifiers ⟨[], []⟩ with
      ⟨supported, asked, folded⟩ | ⟨modifier, among, error, unsupported, refused⟩
    · rcases readerFor_outcome readers kind with ⟨has, reader, found⟩ | ⟨unread, refused⟩
      · exact .inl ⟨⟨kind, denotes, supported, has⟩,
          ⟨kind, profiles, asked.attrs, asked.conditions, reader⟩, bind_eq_ok.mpr ⟨kind, resolved,
            bind_eq_ok.mpr ⟨asked, folded, bind_eq_ok.mpr ⟨reader, found, rfl⟩⟩⟩⟩
      · exact .inr ⟨_, .reader denotes unread, bind_eq_error.mpr (.inr ⟨kind, resolved,
          bind_eq_error.mpr (.inr ⟨asked, folded, bind_eq_error.mpr (.inl refused)⟩)⟩)⟩
    · exact .inr ⟨error, .modifier denotes among unsupported, bind_eq_error.mpr
        (.inr ⟨kind, resolved, bind_eq_error.mpr (.inl refused)⟩)⟩
  · exact .inr ⟨error, .mention unresolved, bind_eq_error.mpr (.inl refused)⟩

/-! ### The plan -/

/-- The nodes of a query can always be added. -/
theorem place_outcome (specs : List Spec) :
    ∀ plan : Plan, ∃ next places, place specs plan = .ok (next, places) := by
  induction specs with
  | nil => exact fun plan => ⟨plan, [], rfl⟩
  | cons spec rest inductionHypothesis =>
    intro plan
    have continued : ∀ (grown : Plan) (id : String), ∃ next places,
        (place rest grown >>= fun placed => .ok (placed.1, ⟨id, spec.kind⟩ :: placed.2)) =
          .ok (next, places) := by
      intro grown id
      obtain ⟨next, places, placed⟩ := inductionHypothesis grown
      exact ⟨next, _, bind_eq_ok.mpr ⟨_, placed, rfl⟩⟩
    rw [place]
    split
    · next unset =>
      obtain ⟨next, places, placed⟩ := continued ⟨[⟨Identity.root, spec⟩], plan.links⟩ Identity.root
      exact ⟨next, places, bind_eq_ok.mpr ⟨_, by rw [setRoot, if_pos unset], placed⟩⟩
    · next set =>
      have added := addNode_of_ne_nil (fun none => set (by rw [none]; rfl)) spec
      obtain ⟨next, places, placed⟩ := continued _ (idAt plan.nodes.length)
      exact ⟨next, places, bind_eq_ok.mpr ⟨_, added, placed⟩⟩

/-- Neighbours in a list match neighbours in another that matches it. -/
theorem exists_pair_of_forall₂ {α β : Type} {matching : α → β → Prop} {list : List α}
    {others : List β} (all : List.Forall₂ matching list others) {first second : α}
    (pair : [first, second] <:+: list) :
    ∃ one other, [one, other] <:+: others ∧ matching first one ∧ matching second other := by
  induction all with
  | nil => exact absurd (List.infix_nil.mp pair) (List.cons_ne_nil _ _)
  | cons matched all inductionHypothesis =>
    rcases List.infix_cons_iff.mp pair with ⟨behind, front⟩ | later
    · obtain ⟨rfl, rest⟩ := List.cons.inj front
      subst rest
      cases all with
      | cons matchedToo all => exact ⟨_, _, ⟨[], _, rfl⟩, matched, matchedToo⟩
    · obtain ⟨one, other, pair, matches'⟩ := inductionHypothesis later
      exact ⟨one, other, List.infix_cons pair, matches'⟩

/-! ### Outcomes of planning -/

theorem denotes_of_resolve {mention : TypeMention} {kind : ResourceType}
    (resolved : mention.resolve topology = .ok kind) : Denotes topology mention kind := by
  rcases resolve_outcome mention topology with ⟨other, denotes, found⟩ | ⟨error, -, refused⟩
  · cases resolved.symm.trans found
    exact denotes
  · cases resolved.symm.trans refused

theorem Denotes.contains {mention : TypeMention} {kind : ResourceType}
    (denotes : Denotes topology mention kind) : topology.contains kind = true := by
  cases denotes with
  | qualified _ _ held => exact held
  | bare _ _ held => exact held

/-- What an item needs is there where it has a node. -/
theorem needs_of_specOf {item : QueryItem} {spec : Spec}
    (accepted : specOf topology readers profiles item = .ok spec) {kind : ResourceType}
    (denotes : Denotes topology item.mention kind) :
    (∀ modifier ∈ item.modifiers, Supported topology kind modifier) ∧ HasReader readers kind := by
  rcases specOf_outcome topology readers profiles item with
    ⟨⟨other, denotesToo, supported, has⟩, -⟩ | ⟨error, -, refused⟩
  · obtain rfl := denotes.unique denotesToo
    exact ⟨supported, has⟩
  · cases accepted.symm.trans refused

/-- The nodes of the items wait to be connected when they have been added. -/
theorem ready_of_place {query : Query} {specs : List Spec} {placed : Plan} {places : List Place}
    (asked : query.items.mapM (specOf topology readers profiles) = .ok specs)
    (added : place specs empty = .ok (placed, places)) :
    ∃ first others, places = (first :: others).map Node.place ∧
      Ready topology placed (first :: others) ∧
      List.Forall₂ (fun item node => Denotes topology item.mention node.spec.kind) query.items
        (first :: others) := by
  obtain ⟨nodes, built, allNodes, allLinks, same, rfl⟩ := place_ok .empty added
  have denoted : List.Forall₂ (fun item spec => Denotes topology item.mention spec.kind)
      query.items specs :=
    (mapM_eq_ok_iff.mp asked).imp fun _ _ accepted => denotes_of_resolve (specOf_ok accepted).kind
  rw [← same, List.forall₂_map_right_iff] at denoted
  have held : placed.nodes = nodes := allNodes
  cases nodes with
  | nil => cases denoted
  | cons first others =>
    refine ⟨first, others, rfl, ⟨built, fun node member => ?_, fun node member => ?_, ?_, ?_⟩,
      denoted⟩
    · exact contains_iff.mpr ⟨node, held ▸ member, rfl⟩
    · obtain ⟨item, -, denotes⟩ := exists_of_forall₂_of_mem denoted member
      exact denotes.contains
    · rw [← held]
      exact built.wellFormed.nodup_ids
    · intro node _
      rw [linksFrom, allLinks]
      rfl

/-- A query is planned where it has all it needs, and refused for a reason otherwise. -/
theorem compile_outcome (query : Query) (topology : Topology) (readers : List Reader) :
    (Plannable query topology readers ∧ ∃ plan, compile query topology readers = .ok plan) ∨
      ∃ error, Refused query topology readers error ∧
        compile query topology readers = .error error := by
  rcases offered_outcome readers with
    ⟨distinct, offer, offered, offer_iff⟩ | ⟨repeated, some_repeated, repeated_iff, refused⟩
  swap
  · exact .inr ⟨_, .shared some_repeated repeated_iff, bind_eq_error.mpr (.inl refused)⟩
  rcases selected_outcome query.profiles offer with
    ⟨chosen, profiles, selected⟩ | ⟨names, name, choice, among, missing, refused⟩
  swap
  · exact .inr ⟨_, .unknown choice among (mt (offer_iff name).mpr missing), bind_eq_error.mpr
      (.inr ⟨offer, offered, bind_eq_error.mpr (.inl refused)⟩)⟩
  rcases mapM_outcome (specOf topology readers profiles) query.items with
    ⟨specs, asked⟩ | ⟨item, member, error, failed, stopped⟩
  swap
  · rcases specOf_outcome topology readers profiles item
      with ⟨-, spec, accepted⟩ | ⟨reason, refused, found⟩
    · cases failed.symm.trans accepted
    · cases failed.symm.trans found
      exact .inr ⟨error, .item member refused, bind_eq_error.mpr (.inr ⟨offer, offered,
        bind_eq_error.mpr (.inr ⟨profiles, selected, bind_eq_error.mpr (.inl stopped)⟩)⟩)⟩
  obtain ⟨placed, places, added⟩ := place_outcome specs empty
  obtain ⟨first, others, rfl, ready, denoted⟩ := ready_of_place asked added
  rcases connectAll_outcome readers profiles ready with
    ⟨chain, plan, connected⟩ | ⟨source, target, error, pair, unconnected, refused⟩
  · refine .inl ⟨?_, plan, bind_eq_ok.mpr ⟨offer, offered, bind_eq_ok.mpr ⟨profiles, selected,
      bind_eq_ok.mpr ⟨specs, asked, bind_eq_ok.mpr ⟨_, added, connected⟩⟩⟩⟩⟩
    have needs : ∀ item ∈ query.items, ∀ kind, Denotes topology item.mention kind →
        (∀ modifier ∈ item.modifiers, Supported topology kind modifier) ∧
          HasReader readers kind := by
      intro item member kind denotes
      obtain ⟨spec, -, accepted⟩ := exists_of_forall₂_of_mem (mapM_eq_ok_iff.mp asked).flip member
      exact needs_of_specOf accepted denotes
    constructor
    case distinct => exact distinct
    case chosen => exact fun names choice name among =>
      (offer_iff name).mp (chosen names choice name among)
    case denotes =>
      intro item member
      obtain ⟨node, -, denotes⟩ := exists_of_forall₂_of_mem denoted.flip member
      exact ⟨_, denotes⟩
    case supported => exact fun item member kind denotes => (needs item member kind denotes).1
    case read => exact fun item member kind denotes => (needs item member kind denotes).2
    case connected =>
      intro first second pair source target denotes denotesToo
      obtain ⟨one, other, nodes, found, foundToo⟩ := exists_pair_of_forall₂ denoted pair
      obtain rfl := denotes.unique found
      obtain rfl := denotesToo.unique foundToo
      have connectable := chain.infix nodes
      exact (List.isChain_cons_cons.mp connectable).1
  · obtain ⟨one, other, items, denotes, denotesToo⟩ := exists_pair_of_forall₂ denoted.flip pair
    exact .inr ⟨error, .connection items denotes denotesToo unconnected, bind_eq_error.mpr
      (.inr ⟨offer, offered, bind_eq_error.mpr (.inr ⟨profiles, selected, bind_eq_error.mpr
        (.inr ⟨specs, asked, bind_eq_error.mpr (.inr ⟨_, added, refused⟩)⟩)⟩)⟩)⟩

theorem plannable_of_compile {query : Query} {plan : Plan}
    (compiled : compile query topology readers = .ok plan) : Plannable query topology readers := by
  rcases compile_outcome query topology readers with ⟨plannable, -⟩ | ⟨error, -, stopped⟩
  · exact plannable
  · cases compiled.symm.trans stopped

theorem compile_of_plannable {query : Query} (plannable : Plannable query topology readers) :
    ∃ plan, compile query topology readers = .ok plan := by
  rcases compile_outcome query topology readers with ⟨-, compiled⟩ | ⟨error, refused, -⟩
  · exact compiled
  · exact absurd plannable refused.not_plannable

theorem refused_of_compile {query : Query} {error : Error}
    (stopped : compile query topology readers = .error error) :
    Refused query topology readers error := by
  rcases compile_outcome query topology readers with
    ⟨-, plan, compiled⟩ | ⟨reason, refused, stoppedToo⟩
  · cases stopped.symm.trans compiled
  · cases stopped.symm.trans stoppedToo
    exact refused

/-- A query is planned exactly where it has all it needs. Otherwise the error gives a reason that
speaks against it, and none that tells of a plan put together wrongly. -/
theorem compile_plannable (query : Query) (topology : Topology) (readers : List Reader) :
    ((∃ plan, compile query topology readers = .ok plan) ↔ Plannable query topology readers) ∧
      ∀ error, compile query topology readers = .error error →
        Refused query topology readers error ∧ error.isReason = true := by
  refine ⟨⟨?_, compile_of_plannable⟩, fun error stopped => ?_⟩
  · rintro ⟨plan, compiled⟩
    exact plannable_of_compile compiled
  · have refused := refused_of_compile stopped
    exact ⟨refused, refused.isReason⟩

/-- Back from the last type to the first one, against the links. -/
def backwards : Query where
  profiles := .all
  root := ⟨.bare "c", []⟩
  sequence := [(.short, ⟨.bare "a", []⟩)]

theorem compile_plannable_threeTypes :
    Plannable twice threeTypes [noRecords] ∧
      Refused backwards threeTypes [noRecords]
        (.topology (.noPath ⟨"lab", "c"⟩ ⟨"lab", "a"⟩)) ∧
      ¬ Plannable backwards threeTypes [noRecords] := by
  have forwards : ((compile twice threeTypes [noRecords]).map fun _ => ()) = .ok () := by cbv
  have against : ((compile backwards threeTypes [noRecords]).map fun _ => ()) =
      .error (.topology (.noPath ⟨"lab", "c"⟩ ⟨"lab", "a"⟩)) := by cbv
  obtain ⟨planned, -⟩ := compile_plannable twice threeTypes [noRecords]
  obtain ⟨unplanned, reason⟩ := compile_plannable backwards threeTypes [noRecords]
  refine ⟨?_, ?_, fun plannable => ?_⟩
  · cases compiled : compile twice threeTypes [noRecords] with
    | ok plan => exact planned.mp ⟨plan, compiled⟩
    | error error => rw [compiled] at forwards; cases forwards
  · cases refused : compile backwards threeTypes [noRecords] with
    | ok plan => rw [refused] at against; cases against
    | error error =>
      rw [refused] at against
      cases against
      exact (reason _ refused).1
  · obtain ⟨plan, compiled⟩ := unplanned.mpr plannable
    rw [compiled] at against
    cases against

end PathQuery.Plan
