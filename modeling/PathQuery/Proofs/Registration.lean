/-
This file says which types a topology knows after additions. A type is looked up under its written
form, so a question about it is answered by the registered type that is written like it. Namespace
and name tell a type exactly where no other registered type is written like it, and so wherever
there are no dots in namespaces.
-/

import PathQuery.Proofs.Plannable
import PathQuery.Proofs.WrittenForms

namespace PathQuery

/-- A new element at the end of a list without repetition repeats nothing. -/
theorem nodup_append_single {α : Type} {list : List α} {last : α} (distinct : list.Nodup)
    (new : last ∉ list) : (list ++ [last]).Nodup := by
  rw [← List.concat_eq_append]
  exact distinct.concat new

namespace Topology

/-! ### The types of a topology -/

/-- The types of a topology are those of a list, each under its written form. -/
structure Files (topology : Topology) (held : List TopologyType) : Prop where
  distinct : (held.map (·.kind.text)).Nodup
  found_iff : ∀ {text type}, topology.types.get? text = some type ↔
    type ∈ held ∧ type.kind.text = text

variable {topology next : Topology} {held : List TopologyType} {kind : ResourceType}

theorem files_empty : Files empty [] where
  distinct := List.nodup_nil
  found_iff := ⟨nofun, nofun⟩

namespace Files

theorem type?_isSome_iff (files : topology.Files held) :
    (topology.type? kind).isSome = true ↔ ∃ type ∈ held, type.kind.text = kind.text := by
  rw [type?, Option.isSome_iff_exists]
  exact exists_congr fun type => files.found_iff

/-- A type is there exactly where one of the list is written like it. -/
theorem contains_iff (files : topology.Files held) :
    topology.contains kind = true ↔ ∃ type ∈ held, type.kind.text = kind.text :=
  files.type?_isSome_iff

theorem mem_values_iff (files : topology.Files held) {type : TopologyType} :
    type ∈ topology.types.values ↔ type ∈ held := by
  rw [Dict.values, List.mem_map]
  constructor
  · rintro ⟨⟨text, _⟩, entry, rfl⟩
    exact (files.found_iff.mp (Dict.get?_eq_some_iff.mpr entry)).1
  · intro member
    have found := files.found_iff.mpr ⟨member, rfl⟩
    exact ⟨(type.kind.text, type), Dict.get?_eq_some_iff.mp found, rfl⟩

/-- The types are listed in the order of their written forms, each once. -/
theorem ascending (files : topology.Files held) :
    (topology.types.values.map (·.kind.text)).Pairwise (· < ·) := by
  have keys : topology.types.values.map (·.kind.text) = topology.types.keys := by
    rw [Dict.values, Dict.keys, List.map_map]
    refine List.map_congr_left fun entry member => ?_
    exact (files.found_iff.mp (Dict.get?_eq_some_iff.mpr member)).2
  rw [keys]
  exact topology.types.keys_ascending

/-- A new type joins the others. -/
theorem insert (files : topology.Files held) {attrs : List String}
    (new : topology.contains kind = false) :
    Files { topology with types := topology.types.insert kind.text ⟨kind, attrs⟩ }
      (held ++ [⟨kind, attrs⟩]) where
  distinct := by
    rw [List.map_append, List.map_singleton]
    refine nodup_append_single files.distinct fun old => ?_
    obtain ⟨type, member, same⟩ := List.mem_map.mp old
    have known := files.contains_iff.mpr ⟨type, member, same⟩
    rw [new] at known
    cases known
  found_iff {text type} := by
    rw [Dict.get?_insert, List.mem_append, List.mem_singleton, or_and_right]
    by_cases here : text = kind.text
    · have older : ¬ (type ∈ held ∧ type.kind.text = text) := by
        rintro ⟨member, same⟩
        have known := files.contains_iff.mpr ⟨type, member, same.trans here⟩
        rw [new] at known
        cases known
      rw [if_pos here, or_iff_right older, Option.some.injEq, eq_comm (b := type)]
      exact (and_iff_left_of_imp fun same => same ▸ here.symm).symm
    · have newer : ¬ (type = ⟨kind, attrs⟩ ∧ type.kind.text = text) := by
        rintro ⟨rfl, same⟩
        exact here same.symm
      rw [if_neg here, or_iff_left newer, files.found_iff]

theorem withLinks (files : topology.Files held) (links : List TopologyLink) :
    Files ⟨topology.types, links⟩ held :=
  ⟨files.distinct, files.found_iff⟩

end Files

/-- Adding a type ends in one of three ways. -/
theorem addType_cases (topology : Topology) (kind : ResourceType) (attrs : List String) :
    ((kind.space = "" ∨ kind.name = "") ∧
        topology.addType kind attrs = .error (.emptyIdentity kind.text)) ∨
      (kind.space ≠ "" ∧ kind.name ≠ "" ∧ topology.contains kind = true ∧
        topology.addType kind attrs = .error (.repeatedType kind)) ∨
      (kind.space ≠ "" ∧ kind.name ≠ "" ∧ topology.contains kind = false ∧
        topology.addType kind attrs = .ok { topology with
          types := topology.types.insert kind.text ⟨kind, attrs.eraseDups⟩ }) := by
  rw [addType]
  split
  · next empty =>
    rw [Bool.or_eq_true, String.isEmpty_iff, String.isEmpty_iff] at empty
    exact .inl ⟨empty, rfl⟩
  · next full =>
    rw [Bool.or_eq_true, String.isEmpty_iff, String.isEmpty_iff, not_or] at full
    cases topology.contains kind with
    | true => exact .inr (.inl ⟨full.1, full.2, rfl, rfl⟩)
    | false => exact .inr (.inr ⟨full.1, full.2, rfl, rfl⟩)

/-- Adding a link ends in one of four ways. -/
theorem addLink_cases (topology : Topology) (source target : ResourceType) (mapping : Mapping) :
    (topology.contains source = false ∧
        topology.addLink source target mapping = .error (.unknownType source)) ∨
      (topology.contains source = true ∧ topology.contains target = false ∧
        topology.addLink source target mapping = .error (.unknownType target)) ∨
      (topology.contains source = true ∧ topology.contains target = true ∧
        topology.Linked source target ∧
        topology.addLink source target mapping = .error (.repeatedLink source target)) ∨
      (topology.contains source = true ∧ topology.contains target = true ∧
        ¬ topology.Linked source target ∧
        topology.addLink source target mapping =
          .ok { topology with links := topology.links ++ [⟨source, target, mapping⟩] }) := by
  rw [linked_iff_isSome, addLink, unknown?]
  cases topology.contains source with
  | false => exact .inl ⟨rfl, rfl⟩
  | true =>
    cases topology.contains target with
    | false => exact .inr (.inl ⟨rfl, rfl, rfl⟩)
    | true =>
      cases (topology.mapping? source target).isSome with
      | true => exact .inr (.inr (.inl ⟨rfl, rfl, rfl, rfl⟩))
      | false => exact .inr (.inr (.inr ⟨rfl, rfl, Bool.false_ne_true, rfl⟩))

/-! ### What tells a type -/

/-- Every question about a type is answered by whether it is one of the registered types. -/
structure Tells (topology : Topology) (kinds : List ResourceType) (kind : ResourceType) : Prop where
  contains_iff : topology.contains kind = true ↔ kind ∈ kinds
  attrs_iff : (topology.attrs? kind).isSome = true ↔ kind ∈ kinds
  /-- It is refused as a repetition exactly where it was registered. -/
  repeated_iff : kind.space ≠ "" → kind.name ≠ "" → ∀ attrs,
    topology.addType kind attrs = .error (.repeatedType kind) ↔ kind ∈ kinds
  /-- A link from it is refused for it exactly where it was not. -/
  source_iff : ∀ target mapping,
    topology.addLink kind target mapping = .error (.unknownType kind) ↔ kind ∉ kinds
  target_iff : ∀ source mapping, topology.contains source = true →
    (topology.addLink source kind mapping = .error (.unknownType kind) ↔ kind ∉ kinds)
  /-- No mention stands for it unless it was registered. -/
  resolved : ∀ mention : TypeMention, mention.resolve topology = .ok kind → kind ∈ kinds

/-- A type is told where each question about it finds no other one. -/
theorem tells_of_contains_iff {kinds : List ResourceType}
    (contains_iff : topology.contains kind = true ↔ kind ∈ kinds) : topology.Tells kinds kind where
  contains_iff := contains_iff
  attrs_iff := by
    rw [← contains_iff, attrs?, Option.isSome_map, contains]
  repeated_iff spaced named attrs := by
    rw [← contains_iff]
    rcases addType_cases topology kind attrs with
      ⟨empty, -⟩ | ⟨-, -, known, refused⟩ | ⟨-, -, new, added⟩
    · exact absurd empty (not_or.mpr ⟨spaced, named⟩)
    · exact iff_of_true refused known
    · refine iff_of_false (fun refused => ?_) (Bool.eq_false_iff.mp new)
      cases added.symm.trans refused
  source_iff target mapping := by
    rw [← contains_iff]
    rcases addLink_cases topology kind target mapping with ⟨unknown, refused⟩ |
      ⟨known, unknown, refused⟩ | ⟨known, -, -, refused⟩ | ⟨known, -, -, added⟩
    · exact iff_of_true refused (Bool.eq_false_iff.mp unknown)
    · refine iff_of_false (fun same => ?_) (not_not_intro known)
      cases refused.symm.trans same
      cases known.symm.trans unknown
    · refine iff_of_false (fun same => ?_) (not_not_intro known)
      cases refused.symm.trans same
    · refine iff_of_false (fun refused => ?_) (not_not_intro known)
      cases added.symm.trans refused
  target_iff source mapping held := by
    rw [← contains_iff]
    rcases addLink_cases topology source kind mapping with ⟨unknown, -⟩ |
      ⟨-, unknown, refused⟩ | ⟨-, known, -, refused⟩ | ⟨-, known, -, added⟩
    · cases held.symm.trans unknown
    · exact iff_of_true refused (Bool.eq_false_iff.mp unknown)
    · refine iff_of_false (fun same => ?_) (not_not_intro known)
      cases refused.symm.trans same
    · refine iff_of_false (fun refused => ?_) (not_not_intro known)
      cases added.symm.trans refused
  resolved mention resolved :=
    contains_iff.mp (Plan.denotes_of_resolve resolved).contains

/-- A type is told exactly where no other type of the topology is written like it. -/
theorem Files.tells_iff (files : topology.Files held) :
    topology.Tells (held.map (·.kind)) kind ↔
      ∀ other ∈ held.map (·.kind), other.text = kind.text → other = kind := by
  have distinct : ((held.map (·.kind)).map ResourceType.text).Nodup := by
    rw [List.map_map]
    exact files.distinct
  have found_iff : topology.contains kind = true ↔
      ∃ other ∈ held.map (·.kind), other.text = kind.text := by
    rw [files.contains_iff]
    simp only [List.mem_map, exists_exists_and_eq_and]
  constructor
  · intro tells other member same
    have own := tells.contains_iff.mp (found_iff.mpr ⟨other, member, same⟩)
    exact List.inj_on_of_nodup_map distinct member own same
  · intro alone
    refine tells_of_contains_iff (found_iff.trans ⟨?_, fun member => ⟨kind, member, rfl⟩⟩)
    rintro ⟨other, member, same⟩
    exact alone other member same ▸ member

/-- Among types without dots in their namespaces every type without one is told. -/
theorem Files.tells_of_dotless (files : topology.Files held)
    (dotless : ∀ type ∈ held, type.kind.Dotless) (free : kind.Dotless) :
    topology.Tells (held.map (·.kind)) kind := by
  refine files.tells_iff.mpr fun other member same => ?_
  obtain ⟨type, given, rfl⟩ := List.mem_map.mp member
  exact ResourceType.eq_of_text_eq (dotless type given) free same

/-! ### All sequences of additions -/

/-- An addition to a topology. -/
inductive Addition where
  | type (kind : ResourceType) (attrs : List String)
  | link (source target : ResourceType) (mapping : Mapping)

/-- Makes an addition. -/
def add (topology : Topology) : Addition → Except Error Topology
  | .type kind attrs => topology.addType kind attrs
  | .link source target mapping => topology.addLink source target mapping

/-- A topology with the types that were registered in it, in order. -/
structure History where
  registered : List TopologyType
  topology : Topology

namespace History

/-- The types that were registered, by their namespaces and names. -/
def kinds (history : History) : List ResourceType := history.registered.map (·.kind)

/-- Makes an addition. One that is refused leaves all as it was. -/
def add (history : History) (addition : Addition) : History :=
  match history.topology.add addition, addition with
  | .error _, _ => history
  | .ok next, .type kind attrs => ⟨history.registered ++ [⟨kind, attrs.eraseDups⟩], next⟩
  | .ok next, .link _ _ _ => ⟨history.registered, next⟩

/-- What additions lead to, one after the other. -/
def ofAdditions (additions : List Addition) : History :=
  additions.foldl add ⟨[], empty⟩

/-- A topology has the types that were registered in it. -/
theorem files_add {history : History} (files : history.topology.Files history.registered)
    (addition : Addition) :
    (history.add addition).topology.Files (history.add addition).registered := by
  cases addition with
  | type kind attrs =>
    rcases addType_cases history.topology kind attrs with
      ⟨-, refused⟩ | ⟨-, -, -, refused⟩ | ⟨-, -, new, added⟩
    · simpa only [add, Topology.add, refused] using files
    · simpa only [add, Topology.add, refused] using files
    · simpa only [add, Topology.add, added] using files.insert new
  | link source target mapping =>
    rcases addLink_cases history.topology source target mapping with
      ⟨-, refused⟩ | ⟨-, -, refused⟩ | ⟨-, -, -, refused⟩ | ⟨-, -, -, added⟩
    · simpa only [add, Topology.add, refused] using files
    · simpa only [add, Topology.add, refused] using files
    · simpa only [add, Topology.add, refused] using files
    · simpa only [add, Topology.add, added] using files.withLinks _

theorem files_ofAdditions (additions : List Addition) :
    (ofAdditions additions).topology.Files (ofAdditions additions).registered := by
  induction additions using List.reverseRecOn with
  | nil => exact files_empty
  | append_singleton earlier addition inductionHypothesis =>
    rw [ofAdditions, List.foldl_append]
    exact files_add inductionHypothesis addition

/-- After any additions, refused ones among them, a type is told by its namespace and its name
exactly where no other registered type is written like it. -/
theorem tells_iff_unlike (additions : List Addition) (kind : ResourceType) :
    (ofAdditions additions).topology.Tells (ofAdditions additions).kinds kind ↔
      ∀ other ∈ (ofAdditions additions).kinds, other.text = kind.text → other = kind :=
  (files_ofAdditions additions).tells_iff

/-- Only the type of the name c in the namespace a.b is registered. -/
def dotted : History := ofAdditions [.type ⟨"a.b", "c"⟩ ["id"]]

/-- The type of the name b.c in the namespace a was not registered, and yet it is there, is refused
as a repetition, can be linked, and is what a mention stands for. -/
theorem dotted_knows_another :
    ⟨"a", "b.c"⟩ ∉ dotted.kinds ∧
    dotted.topology.contains ⟨"a", "b.c"⟩ = true ∧
    dotted.topology.attrs? ⟨"a", "b.c"⟩ = some ["id"] ∧
    dotted.topology.addType ⟨"a", "b.c"⟩ [] = .error (.repeatedType ⟨"a", "b.c"⟩) ∧
    (∃ next, dotted.topology.addLink ⟨"a", "b.c"⟩ ⟨"a", "b.c"⟩ ⟨"id", "id"⟩ = .ok next) ∧
    TypeMention.resolve (.qualified "a" "b.c") dotted.topology = .ok ⟨"a", "b.c"⟩ ∧
    ¬ dotted.topology.Tells dotted.kinds ⟨"a", "b.c"⟩ := by
  have unregistered : (⟨"a", "b.c"⟩ : ResourceType) ∉ dotted.kinds := by decide
  have known : dotted.topology.contains ⟨"a", "b.c"⟩ = true := by cbv
  refine ⟨unregistered, known, by cbv, by cbv, ?_, by cbv,
    fun tells => unregistered (tells.contains_iff.mp known)⟩
  rcases addLink_cases dotted.topology ⟨"a", "b.c"⟩ ⟨"a", "b.c"⟩ ⟨"id", "id"⟩ with
    ⟨unknown, -⟩ | ⟨-, unknown, -⟩ | ⟨-, -, linked, -⟩ | ⟨-, -, -, added⟩
  · cases known.symm.trans unknown
  · cases known.symm.trans unknown
  · obtain ⟨mapping, found⟩ := linked
    cases found
  · exact ⟨_, added⟩

end History

end Topology

end PathQuery
