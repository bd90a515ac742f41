/-
This file says what building a topology from documents comes to. It succeeds exactly where every
type and both ends of every link are in their written form, no type is declared twice and no two
types are linked twice, and links join declared types by attributes that are named. The topology
then has what the documents declare, in their order, and otherwise the first declaration that cannot
be added says why.
-/

import PathQuery.Proofs.Registration

namespace PathQuery

namespace Schema

/-- The types that are declared, in order. -/
def declared (decls : List TypeDecl) : List ResourceType :=
  decls.filterMap fun decl => ResourceType.ofText? decl.written

end Schema

namespace Topology

open Schema (TypeDecl LinkDecl)

/-! ### What documents declare -/

/-- The type of a declaration: each attribute has the place where it is named first. -/
structure TypeOf (decl : TypeDecl) (type : TopologyType) : Prop where
  kind : type.kind.IsWritten decl.written
  attrs : type.attrs = (decl.attrs.map (·.name)).eraseDups

/-- The link of a declaration. -/
structure LinkOf (decl : LinkDecl) (link : TopologyLink) : Prop where
  source : link.source.IsWritten decl.source
  target : link.target.IsWritten decl.target
  mapping : link.mapping = decl.mapping

/-- All types are in their written form, and no two are the same. -/
structure SoundTypes (types : List TypeDecl) : Prop where
  written : ∀ decl ∈ types, ∃ kind : ResourceType, kind.IsWritten decl.written
  distinct : (types.map (·.written)).Nodup

/-- Both ends of every link are in their written form and declared, attributes are compared, and no
link joins the same types as another. -/
structure SoundLinks (types : List TypeDecl) (links : List LinkDecl) : Prop where
  written : ∀ decl ∈ links, (∃ kind : ResourceType, kind.IsWritten decl.source) ∧
    ∃ kind : ResourceType, kind.IsWritten decl.target
  declared : ∀ decl ∈ links,
    decl.source ∈ types.map (·.written) ∧ decl.target ∈ types.map (·.written)
  compared : ∀ decl ∈ links, decl.mapping.source ≠ "" ∧ decl.mapping.target ≠ ""
  single : (links.map fun decl => (decl.source, decl.target)).Nodup

/-! ### Why a declaration is refused -/

/-- Why a type cannot be added after others. -/
inductive TypeRefused (earlier : List TypeDecl) (decl : TypeDecl) : Error → Prop where
  | unwritten : (¬ ∃ kind : ResourceType, kind.IsWritten decl.written) →
    TypeRefused earlier decl (.emptyIdentity decl.written)
  | repeated {kind : ResourceType} : kind.IsWritten decl.written →
    decl.written ∈ earlier.map (·.written) → TypeRefused earlier decl (.repeatedType kind)

/-- A declaration joins two types by attributes that are named. -/
structure Joins (decl : LinkDecl) (source target : ResourceType) : Prop where
  source : source.IsWritten decl.source
  target : target.IsWritten decl.target
  compared : decl.mapping.source ≠ "" ∧ decl.mapping.target ≠ ""

/-- Why a link cannot be added after others. Of several reasons the first counts. -/
inductive LinkRefused (types : List TypeDecl) (earlier : List LinkDecl) (decl : LinkDecl) :
    Error → Prop where
  | source : (¬ ∃ kind : ResourceType, kind.IsWritten decl.source) →
    LinkRefused types earlier decl
      (.malformedLink decl.source decl.target "source must be namespace.type")
  | target {source : ResourceType} : source.IsWritten decl.source →
    (¬ ∃ kind : ResourceType, kind.IsWritten decl.target) →
    LinkRefused types earlier decl
      (.malformedLink decl.source decl.target "target must be namespace.type")
  | mapping {source target : ResourceType} : source.IsWritten decl.source →
    target.IsWritten decl.target → decl.mapping.source = "" ∨ decl.mapping.target = "" →
    LinkRefused types earlier decl
      (.malformedLink decl.source decl.target "mapping fields must not be empty")
  | unknownSource {source target : ResourceType} : Joins decl source target →
    decl.source ∉ types.map (·.written) → LinkRefused types earlier decl (.unknownType source)
  | unknownTarget {source target : ResourceType} : Joins decl source target →
    decl.source ∈ types.map (·.written) → decl.target ∉ types.map (·.written) →
    LinkRefused types earlier decl (.unknownType target)
  | repeated {source target : ResourceType} : Joins decl source target →
    decl.source ∈ types.map (·.written) → decl.target ∈ types.map (·.written) →
    (decl.source, decl.target) ∈ earlier.map (fun decl => (decl.source, decl.target)) →
    LinkRefused types earlier decl (.repeatedLink source target)

/-- The first declaration that is refused, where all types come before any link. -/
inductive FirstRefused (types : List TypeDecl) (links : List LinkDecl) : Error → Prop where
  | type {before after : List TypeDecl} {decl : TypeDecl} {error : Error} :
    types = before ++ decl :: after → SoundTypes before → TypeRefused before decl error →
    FirstRefused types links error
  | link {before after : List LinkDecl} {decl : LinkDecl} {error : Error} : SoundTypes types →
    links = before ++ decl :: after → SoundLinks types before →
    LinkRefused types before decl error → FirstRefused types links error

theorem TypeRefused.not_sound {before after : List TypeDecl} {decl : TypeDecl} {error : Error}
    (refused : TypeRefused before decl error) : ¬ SoundTypes (before ++ decl :: after) := by
  intro sound
  have member : decl ∈ before ++ decl :: after := List.mem_append_right _ List.mem_cons_self
  cases refused with
  | unwritten none => exact none (sound.written decl member)
  | repeated _ again =>
    have distinct := sound.distinct
    rw [List.map_append, List.map_cons] at distinct
    exact (List.nodup_append.mp distinct).2.2 _ again _ List.mem_cons_self rfl

theorem LinkRefused.not_sound {types : List TypeDecl} {before after : List LinkDecl}
    {decl : LinkDecl} {error : Error} (refused : LinkRefused types before decl error) :
    ¬ SoundLinks types (before ++ decl :: after) := by
  intro sound
  have member : decl ∈ before ++ decl :: after := List.mem_append_right _ List.mem_cons_self
  cases refused with
  | source none => exact none (sound.written decl member).1
  | target _ none => exact none (sound.written decl member).2
  | mapping _ _ empty =>
    obtain ⟨named, namedToo⟩ := sound.compared decl member
    exact empty.elim named namedToo
  | unknownSource _ missing => exact missing (sound.declared decl member).1
  | unknownTarget _ _ missing => exact missing (sound.declared decl member).2
  | repeated _ _ _ again =>
    have distinct := sound.single
    rw [List.map_append, List.map_cons] at distinct
    exact (List.nodup_append.mp distinct).2.2 _ again _ List.mem_cons_self rfl

/-! ### Adding types -/

variable {topology : Topology} {types : List TypeDecl} {links : List LinkDecl}

/-- A topology has the types that are declared. -/
structure HasTypes (types : List TypeDecl) (topology : Topology) (held : List TopologyType) :
    Prop where
  declared : List.Forall₂ TypeOf types held
  files : topology.Files held

theorem HasTypes.mem_written_iff {held : List TopologyType} (has : HasTypes types topology held)
    {written : String} :
    written ∈ types.map (·.written) ↔ ∃ type ∈ held, type.kind.text = written := by
  rw [List.mem_map]
  constructor
  · rintro ⟨decl, member, rfl⟩
    obtain ⟨type, given, same⟩ := exists_of_forall₂_of_mem has.declared.flip member
    exact ⟨type, given, same.kind.text⟩
  · rintro ⟨type, member, rfl⟩
    obtain ⟨decl, given, same⟩ := exists_of_forall₂_of_mem has.declared member
    exact ⟨decl, given, same.kind.text.symm⟩

/-- A type is there exactly where one is declared in its written form. -/
theorem HasTypes.contains_iff {held : List TopologyType} (has : HasTypes types topology held)
    {kind : ResourceType} : topology.contains kind = true ↔ kind.text ∈ types.map (·.written) := by
  rw [has.files.contains_iff, has.mem_written_iff]

theorem HasTypes.contains_iff_of_isWritten {held : List TopologyType}
    (has : HasTypes types topology held) {kind : ResourceType} {written : String}
    (isWritten : kind.IsWritten written) :
    topology.contains kind = true ↔ written ∈ types.map (·.written) := by
  rw [has.contains_iff, isWritten.text]

/-- What holds while types are added: those so far are sound, and the topology has them. -/
structure TypesAdded (earlier : List TypeDecl) (topology : Topology) : Prop where
  sound : SoundTypes earlier
  has : ∃ held, HasTypes earlier topology held
  unlinked : topology.links = []

theorem typesAdded_empty : TypesAdded [] empty where
  sound := ⟨nofun, List.nodup_nil⟩
  has := ⟨[], .nil, files_empty⟩
  unlinked := rfl

/-- A declared type is added, or it is refused. -/
theorem addTypeDecl_outcome (earlier : List TypeDecl) (topology : Topology) (decl : TypeDecl)
    (added : TypesAdded earlier topology) :
    (∃ next, topology.addTypeDecl decl = .ok next ∧ TypesAdded (earlier ++ [decl]) next) ∨
      ∃ error, TypeRefused earlier decl error ∧ topology.addTypeDecl decl = .error error := by
  obtain ⟨sound, ⟨held, has⟩, unlinked⟩ := added
  cases read : ResourceType.ofText? decl.written with
  | none =>
    exact .inr ⟨_, .unwritten (ResourceType.ofText?_eq_none_iff.mp read), by rw [addTypeDecl, read]⟩
  | some kind =>
    have isWritten := ResourceType.ofText?_eq_some_iff.mp read
    have step : topology.addTypeDecl decl = topology.addType kind (decl.attrs.map (·.name)) := by
      rw [addTypeDecl, read]
    have known_iff := has.contains_iff_of_isWritten isWritten
    rw [step]
    rcases addType_cases topology kind (decl.attrs.map (·.name)) with
      ⟨empty, -⟩ | ⟨-, -, known, refused⟩ | ⟨-, -, new, done⟩
    · exact absurd empty (not_or.mpr ⟨isWritten.spaced, isWritten.named⟩)
    · exact .inr ⟨_, .repeated isWritten (known_iff.mp known), refused⟩
    · have soundToo : SoundTypes (earlier ++ [decl]) := by
        refine ⟨List.forall_mem_append.mpr ⟨sound.written,
          List.forall_mem_singleton.mpr ⟨kind, isWritten⟩⟩, ?_⟩
        rw [List.map_append, List.map_singleton]
        refine nodup_append_single sound.distinct fun old => ?_
        cases new.symm.trans (known_iff.mpr old)
      exact .inl ⟨_, done, soundToo, ⟨_, List.rel_append has.declared (.cons ⟨isWritten, rfl⟩ .nil),
        has.files.insert new⟩, unlinked⟩

/-- A declared type that is refused is not added. -/
theorem TypeRefused.addTypeDecl {earlier : List TypeDecl} {decl : TypeDecl} {error : Error}
    (refused : TypeRefused earlier decl error) (added : TypesAdded earlier topology) :
    topology.addTypeDecl decl = .error error := by
  obtain ⟨sound, ⟨held, has⟩, -⟩ := added
  cases refused with
  | unwritten none => rw [Topology.addTypeDecl, ResourceType.ofText?_eq_none_iff.mpr none]
  | @repeated kind isWritten again =>
    have known := (has.contains_iff_of_isWritten isWritten).mpr again
    rw [Topology.addTypeDecl, ResourceType.ofText?_eq_some_iff.mpr isWritten]
    rcases addType_cases topology kind (decl.attrs.map (·.name)) with
      ⟨empty, -⟩ | ⟨-, -, -, refused⟩ | ⟨-, -, new, -⟩
    · exact absurd empty (not_or.mpr ⟨isWritten.spaced, isWritten.named⟩)
    · exact refused
    · cases known.symm.trans new

/-! ### Adding links -/

/-- What holds while links are added: those so far are sound, and the topology has them and all
types. -/
structure LinksAdded (types : List TypeDecl) (earlier : List LinkDecl) (topology : Topology) :
    Prop where
  sound : SoundLinks types earlier
  has : ∃ held, HasTypes types topology held
  declared : List.Forall₂ LinkOf earlier topology.links

theorem TypesAdded.linksAdded (added : TypesAdded types topology) :
    LinksAdded types [] topology where
  sound := ⟨nofun, nofun, nofun, List.nodup_nil⟩
  has := added.has
  declared := added.unlinked ▸ .nil

/-- Two types are linked exactly where a link between them is declared. -/
theorem linked_iff_declared (declared : List.Forall₂ LinkOf links topology.links)
    {source target : ResourceType} {written writtenToo : String}
    (isWritten : source.IsWritten written) (isWrittenToo : target.IsWritten writtenToo) :
    topology.Linked source target ↔
      (written, writtenToo) ∈ links.map fun decl => (decl.source, decl.target) := by
  rw [linked_iff, Graph.Leads, edges, List.mem_map, List.mem_map]
  constructor
  · rintro ⟨link, member, same⟩
    cases same
    obtain ⟨decl, given, same⟩ := exists_of_forall₂_of_mem declared member
    refine ⟨decl, given, ?_⟩
    rw [← same.source.text, ← same.target.text, isWritten.text, isWrittenToo.text]
  · rintro ⟨decl, member, same⟩
    cases same
    obtain ⟨link, given, same⟩ := exists_of_forall₂_of_mem declared.flip member
    exact ⟨link, given, Prod.ext (same.source.unique isWritten) (same.target.unique isWrittenToo)⟩

/-- A declared link whose ends are in their written form is added once its attributes are named. -/
theorem addLinkDecl_of_joins {decl : LinkDecl} {source target : ResourceType}
    (joins : Joins decl source target) (topology : Topology) :
    topology.addLinkDecl decl = topology.addLink source target decl.mapping := by
  have named : ¬ (decl.mapping.source.isEmpty || decl.mapping.target.isEmpty) = true := by
    rw [Bool.or_eq_true, String.isEmpty_iff, String.isEmpty_iff, not_or]
    exact joins.compared
  simp only [addLinkDecl, ResourceType.ofText?_eq_some_iff.mpr joins.source,
    ResourceType.ofText?_eq_some_iff.mpr joins.target, if_neg named]

/-- A link that is malformed is refused for the first thing that is wrong with it. -/
theorem malformed_or_joins (types : List TypeDecl) (earlier : List LinkDecl) (topology : Topology)
    (decl : LinkDecl) :
    (∃ error, LinkRefused types earlier decl error ∧ topology.addLinkDecl decl = .error error) ∨
      ∃ source target, Joins decl source target := by
  cases read : ResourceType.ofText? decl.source with
  | none =>
    exact .inl ⟨_, .source (ResourceType.ofText?_eq_none_iff.mp read), by rw [addLinkDecl, read]⟩
  | some source =>
    have isWritten := ResourceType.ofText?_eq_some_iff.mp read
    cases readToo : ResourceType.ofText? decl.target with
    | none =>
      exact .inl ⟨_, .target isWritten (ResourceType.ofText?_eq_none_iff.mp readToo),
        by rw [addLinkDecl, read, readToo]⟩
    | some target =>
      have isWrittenToo := ResourceType.ofText?_eq_some_iff.mp readToo
      by_cases empty : decl.mapping.source = "" ∨ decl.mapping.target = ""
      · refine .inl ⟨_, .mapping isWritten isWrittenToo empty, ?_⟩
        have unnamed : (decl.mapping.source.isEmpty || decl.mapping.target.isEmpty) = true := by
          rwa [Bool.or_eq_true, String.isEmpty_iff, String.isEmpty_iff]
        simp only [addLinkDecl, read, readToo, if_pos unnamed]
      · exact .inr ⟨source, target, isWritten, isWrittenToo, not_or.mp empty⟩

/-- A declared link is added, or it is refused. -/
theorem addLinkDecl_outcome (types : List TypeDecl) (earlier : List LinkDecl) (topology : Topology)
    (decl : LinkDecl) (added : LinksAdded types earlier topology) :
    (∃ next, topology.addLinkDecl decl = .ok next ∧ LinksAdded types (earlier ++ [decl]) next) ∨
      ∃ error, LinkRefused types earlier decl error ∧
        topology.addLinkDecl decl = .error error := by
  obtain ⟨sound, ⟨held, has⟩, declared⟩ := added
  rcases malformed_or_joins types earlier topology decl with refused | ⟨source, target, joins⟩
  · exact .inr refused
  have source_iff := has.contains_iff_of_isWritten joins.source
  have target_iff := has.contains_iff_of_isWritten joins.target
  have linked_iff := linked_iff_declared declared joins.source joins.target
  rw [addLinkDecl_of_joins joins]
  rcases addLink_cases topology source target decl.mapping with
    ⟨unknown, refused⟩ | ⟨known, unknown, refused⟩ | ⟨known, knownToo, linked, refused⟩ |
      ⟨known, knownToo, unlinked, done⟩
  · refine .inr ⟨_, .unknownSource joins fun member => ?_, refused⟩
    cases unknown.symm.trans (source_iff.mpr member)
  · refine .inr ⟨_, .unknownTarget joins (source_iff.mp known) fun member => ?_, refused⟩
    cases unknown.symm.trans (target_iff.mpr member)
  · exact .inr ⟨_, .repeated joins (source_iff.mp known) (target_iff.mp knownToo)
      (linked_iff.mp linked), refused⟩
  · have soundToo : SoundLinks types (earlier ++ [decl]) := by
      refine ⟨List.forall_mem_append.mpr ⟨sound.written, List.forall_mem_singleton.mpr
          ⟨⟨source, joins.source⟩, target, joins.target⟩⟩,
        List.forall_mem_append.mpr ⟨sound.declared, List.forall_mem_singleton.mpr
          ⟨source_iff.mp known, target_iff.mp knownToo⟩⟩,
        List.forall_mem_append.mpr ⟨sound.compared, List.forall_mem_singleton.mpr
          joins.compared⟩, ?_⟩
      rw [List.map_append, List.map_singleton]
      exact nodup_append_single sound.single fun old => unlinked (linked_iff.mpr old)
    exact .inl ⟨_, done, soundToo, ⟨held, has.declared, has.files.withLinks _⟩,
      List.rel_append declared (.cons ⟨joins.source, joins.target, rfl⟩ .nil)⟩

/-- A declared link that is refused is not added. -/
theorem LinkRefused.addLinkDecl {earlier : List LinkDecl} {decl : LinkDecl} {error : Error}
    (refused : LinkRefused types earlier decl error) (added : LinksAdded types earlier topology) :
    topology.addLinkDecl decl = .error error := by
  obtain ⟨-, ⟨held, has⟩, declared⟩ := added
  cases refused with
  | source none => simp only [Topology.addLinkDecl, ResourceType.ofText?_eq_none_iff.mpr none]
  | target isWritten none =>
    simp only [Topology.addLinkDecl, ResourceType.ofText?_eq_some_iff.mpr isWritten,
      ResourceType.ofText?_eq_none_iff.mpr none]
  | mapping isWritten isWrittenToo empty =>
    have unnamed : (decl.mapping.source.isEmpty || decl.mapping.target.isEmpty) = true := by
      rwa [Bool.or_eq_true, String.isEmpty_iff, String.isEmpty_iff]
    simp only [Topology.addLinkDecl, ResourceType.ofText?_eq_some_iff.mpr isWritten,
      ResourceType.ofText?_eq_some_iff.mpr isWrittenToo, if_pos unnamed]
  | unknownSource joins missing =>
    rw [addLinkDecl_of_joins joins, addLink, unknown?_eq_some_iff.mpr (.inl ⟨?_, rfl⟩)]
    exact Bool.eq_false_iff.mpr fun known =>
      missing ((has.contains_iff_of_isWritten joins.source).mp known)
  | unknownTarget joins known missing =>
    rw [addLinkDecl_of_joins joins, addLink, unknown?_eq_some_iff.mpr (.inr ⟨?_, ?_, rfl⟩)]
    · exact (has.contains_iff_of_isWritten joins.source).mpr known
    · exact Bool.eq_false_iff.mpr fun knownToo =>
        missing ((has.contains_iff_of_isWritten joins.target).mp knownToo)
  | repeated joins known knownToo again =>
    have linked := (linked_iff_declared declared joins.source joins.target).mpr again
    rw [addLinkDecl_of_joins joins, addLink, unknown?_eq_none_iff.mpr ⟨?_, ?_⟩]
    · exact if_pos (linked_iff_isSome.mp linked)
    · exact (has.contains_iff_of_isWritten joins.source).mpr known
    · exact (has.contains_iff_of_isWritten joins.target).mpr knownToo

/-! ### All declarations -/

theorem addTypeDecls_outcome (types : List TypeDecl) :
    (∃ typed, types.foldlM Topology.addTypeDecl empty = .ok typed ∧ TypesAdded types typed) ∨
      ∃ before decl after error reached, types = before ++ decl :: after ∧
        TypesAdded before reached ∧ TypeRefused before decl error ∧
        types.foldlM Topology.addTypeDecl empty = .error error :=
  foldlM_outcome addTypeDecl_outcome types typesAdded_empty

theorem addLinkDecls_outcome (links : List LinkDecl) (added : TypesAdded types topology) :
    (∃ last, links.foldlM Topology.addLinkDecl topology = .ok last ∧ LinksAdded types links last) ∨
      ∃ before decl after error reached, links = before ++ decl :: after ∧
        LinksAdded types before reached ∧ LinkRefused types before decl error ∧
        links.foldlM Topology.addLinkDecl topology = .error error :=
  foldlM_outcome (addLinkDecl_outcome types) links added.linksAdded

/-- Sound types are all added. -/
theorem addTypeDecls_of_sound (sound : SoundTypes types) :
    ∃ typed, types.foldlM Topology.addTypeDecl empty = .ok typed ∧ TypesAdded types typed := by
  rcases addTypeDecls_outcome types with added | ⟨before, decl, after, error, _, rfl, -, refused, -⟩
  · exact added
  · exact absurd sound refused.not_sound

/-- Sound links are all added to sound types. -/
theorem addLinkDecls_of_sound (added : TypesAdded types topology) (sound : SoundLinks types links) :
    ∃ last, links.foldlM Topology.addLinkDecl topology = .ok last ∧
      LinksAdded types links last := by
  rcases addLinkDecls_outcome links added with
    done | ⟨before, decl, after, error, _, rfl, -, refused, -⟩
  · exact done
  · exact absurd sound refused.not_sound

variable {items : List Schema.Items} {documents : List Schema.Links}

/-- Building adds all that is declared, or it stops at the first declaration that is refused. -/
theorem build_outcome (items : List Schema.Items) (documents : List Schema.Links) :
    (∃ topology, build items documents = .ok topology ∧ SoundTypes (items.flatMap (·.types)) ∧
        LinksAdded (items.flatMap (·.types)) (documents.flatMap (·.links)) topology) ∨
      ∃ error, FirstRefused (items.flatMap (·.types)) (documents.flatMap (·.links)) error ∧
        build items documents = .error error := by
  rcases addTypeDecls_outcome (items.flatMap (·.types)) with
    ⟨typed, made, added⟩ | ⟨before, decl, after, error, reached, split, added, refused, stopped⟩
  · rcases addLinkDecls_outcome (documents.flatMap (·.links)) added with
      ⟨topology, done, linked⟩ |
        ⟨before, decl, after, error, reached, split, linked, refused, stopped⟩
    · exact .inl ⟨topology, bind_eq_ok.mpr ⟨typed, made, done⟩, added.sound, linked⟩
    · exact .inr ⟨error, .link added.sound split linked.sound refused,
        bind_eq_error.mpr (.inr ⟨typed, made, stopped⟩)⟩
  · exact .inr ⟨error, .type split added.sound refused, bind_eq_error.mpr (.inl stopped)⟩

/-- A topology that is built has all that is declared. -/
theorem linksAdded_of_build (built : build items documents = .ok topology) :
    SoundTypes (items.flatMap (·.types)) ∧
      LinksAdded (items.flatMap (·.types)) (documents.flatMap (·.links)) topology := by
  rcases build_outcome items documents with ⟨other, done, all⟩ | ⟨error, -, stopped⟩
  · cases built.symm.trans done
    exact all
  · cases built.symm.trans stopped

/-- The first declaration that is refused is where building stops. -/
theorem FirstRefused.build {error : Error}
    (refused : FirstRefused (items.flatMap (·.types)) (documents.flatMap (·.links)) error) :
    build items documents = .error error := by
  cases refused with
  | type split sound refused =>
    obtain ⟨reached, made, added⟩ := addTypeDecls_of_sound sound
    refine bind_eq_error.mpr (.inl ?_)
    rw [split, List.foldlM_append, made]
    show List.foldlM _ _ _ = _
    rw [List.foldlM_cons, refused.addTypeDecl added]
    rfl
  | link sound split soundToo refused =>
    obtain ⟨typed, made, added⟩ := addTypeDecls_of_sound sound
    obtain ⟨reached, done, linked⟩ := addLinkDecls_of_sound added soundToo
    refine bind_eq_error.mpr (.inr ⟨typed, made, ?_⟩)
    rw [split, List.foldlM_append, done]
    show List.foldlM _ _ _ = _
    rw [List.foldlM_cons, refused.addLinkDecl linked]
    rfl

/-! ### The topology of documents -/

/-- A topology has exactly what is declared. -/
structure Holds (types : List TypeDecl) (links : List LinkDecl) (topology : Topology) : Prop where
  /-- Its types are those that are declared, with their attributes. -/
  types_iff : ∀ type, type ∈ topology.types.values ↔ ∃ decl ∈ types, TypeOf decl type
  /-- They are listed in the order of their written forms, each once. -/
  ascending : (topology.types.values.map (·.kind.text)).Pairwise (· < ·)
  /-- They are told from all other types without dots in their namespaces. -/
  tells : ∀ kind : ResourceType, kind.Dotless → topology.Tells (Schema.declared types) kind
  attrs : ∀ decl ∈ types, ∀ type, TypeOf decl type → topology.attrs? type.kind = some type.attrs
  /-- The namespaces of a name are those that it is declared in, in order. -/
  spaces_iff : ∀ space name, space ∈ topology.spaces name ↔
    ∃ decl ∈ types, ResourceType.IsWritten ⟨space, name⟩ decl.written
  spaces_ascending : ∀ name, (topology.spaces name).Pairwise (· < ·)
  /-- Its links are those that are declared, in order. -/
  inOrder : List.Forall₂ LinkOf links topology.links
  linksFrom : ∀ source, List.Forall₂ LinkOf
    (links.filter fun decl => ResourceType.ofText? decl.source = some source)
    (topology.linksFrom source)
  mapping_iff : ∀ source target mapping, topology.mapping source target = .ok mapping ↔
    ∃ decl ∈ links, LinkOf decl ⟨source, target, mapping⟩

theorem declared_eq_of_forall₂ {held : List TopologyType} (all : List.Forall₂ TypeOf types held) :
    Schema.declared types = held.map (·.kind) := by
  induction all with
  | nil => rfl
  | cons same _ inductionHypothesis =>
    have read := ResourceType.ofText?_eq_some_iff.mpr same.kind
    rw [List.map_cons, ← inductionHypothesis]
    simp only [Schema.declared, List.filterMap_cons, read]

theorem mem_declared {kind : ResourceType} :
    kind ∈ Schema.declared types ↔ ∃ decl ∈ types, kind.IsWritten decl.written := by
  rw [Schema.declared, List.mem_filterMap]
  exact exists_congr fun decl => and_congr_right fun _ => ResourceType.ofText?_eq_some_iff

/-- A declaration is of one type only. -/
theorem TypeOf.unique {decl : TypeDecl} {type other : TopologyType} (typeOf : TypeOf decl type)
    (also : TypeOf decl other) : type = other := by
  obtain ⟨kind, attrs⟩ := type
  obtain ⟨otherKind, otherAttrs⟩ := other
  cases typeOf.kind.unique also.kind
  cases typeOf.attrs.trans also.attrs.symm
  rfl

theorem LinkOf.unique {decl : LinkDecl} {link other : TopologyLink} (linkOf : LinkOf decl link)
    (also : LinkOf decl other) : link = other := by
  obtain ⟨source, target, mapping⟩ := link
  obtain ⟨otherSource, otherTarget, otherMapping⟩ := other
  cases linkOf.source.unique also.source
  cases linkOf.target.unique also.target
  cases linkOf.mapping.trans also.mapping.symm
  rfl

theorem mem_iff_of_forall₂ {α β : Type} {matching : α → β → Prop} {list : List α} {others : List β}
    (all : List.Forall₂ matching list others)
    (unique : ∀ {element other another}, matching element other → matching element another →
      other = another) {other : β} :
    other ∈ others ↔ ∃ element ∈ list, matching element other := by
  constructor
  · exact exists_of_forall₂_of_mem all
  · rintro ⟨element, member, matched⟩
    obtain ⟨another, given, matchedToo⟩ := exists_of_forall₂_of_mem all.flip member
    exact unique matchedToo matched ▸ given

/-- No two links join the same types where none are declared to. -/
theorem edges_nodup_of_single (declared : List.Forall₂ LinkOf links topology.links)
    (single : (links.map fun decl => (decl.source, decl.target)).Nodup) :
    topology.edges.Nodup := by
  have written : topology.edges.map (fun ends => (ends.1.text, ends.2.text)) =
      links.map fun decl => (decl.source, decl.target) := by
    rw [edges, List.map_map]
    clear single
    generalize topology.links = others at declared
    induction declared with
    | nil => rfl
    | cons same _ inductionHypothesis =>
      rw [List.map_cons, List.map_cons, inductionHypothesis, Function.comp_apply,
        same.source.text, same.target.text]
  exact List.Nodup.of_map _ (written ▸ single)

/-- Where no two links join the same types, the mapping between two types is that of their link. -/
theorem mapping_iff_of_nodup (distinct : topology.edges.Nodup) {source target : ResourceType}
    {mapping : Mapping} : topology.mapping source target = .ok mapping ↔
      ⟨source, target, mapping⟩ ∈ topology.links := by
  refine ⟨mem_links_of_mapping, fun member => ?_⟩
  obtain ⟨other, found⟩ : topology.Linked source target :=
    linked_iff.mpr (List.mem_map.mpr ⟨_, member, rfl⟩)
  cases List.inj_on_of_nodup_map distinct (mem_links_of_mapping found) member rfl
  exact found

theorem mem_spaces {space name : String} : space ∈ topology.spaces name ↔
    ∃ type ∈ topology.types.values, type.kind = ⟨space, name⟩ := by
  rw [spaces, Plan.mem_keys_ofList, List.mem_map]
  constructor
  · rintro ⟨type, member, rfl⟩
    obtain ⟨given, called⟩ := List.mem_filter.mp member
    exact ⟨type, given, by rw [← beq_iff_eq.mp called]⟩
  · rintro ⟨type, given, same⟩
    rw [show space = type.kind.space by rw [same]]
    exact ⟨type, List.mem_filter.mpr ⟨given, by rw [same]; exact beq_self_eq_true name⟩, rfl⟩

/-- A topology to which all is added has exactly what is declared. -/
theorem LinksAdded.holds (added : LinksAdded types links topology) :
    Holds types links topology := by
  obtain ⟨sound, ⟨held, declared, files⟩, linked⟩ := added
  have kinds := declared_eq_of_forall₂ declared
  have types_iff : ∀ type, type ∈ topology.types.values ↔ ∃ decl ∈ types, TypeOf decl type :=
    fun type => files.mem_values_iff.trans (mem_iff_of_forall₂ declared TypeOf.unique)
  have distinct := edges_nodup_of_single linked sound.single
  constructor
  case types_iff => exact types_iff
  case ascending => exact files.ascending
  case tells =>
    intro kind free
    rw [kinds]
    refine files.tells_of_dotless (fun type member => ?_) free
    obtain ⟨decl, -, same⟩ := exists_of_forall₂_of_mem declared member
    exact same.kind.dotless
  case attrs =>
    intro decl member type typeOf
    have given := (mem_iff_of_forall₂ declared TypeOf.unique).mpr ⟨decl, member, typeOf⟩
    rw [attrs?, type?, files.found_iff.mpr ⟨given, rfl⟩]
    rfl
  case spaces_iff =>
    intro space name
    rw [mem_spaces, ← mem_declared, kinds, List.mem_map]
    simp only [files.mem_values_iff]
  case spaces_ascending => exact fun name => Dict.keys_ascending _
  case inOrder => exact linked
  case linksFrom =>
    intro source
    refine List.rel_filter ?_ linked
    intro decl link same
    simp only [decide_eq_true_eq, beq_iff_eq, ResourceType.ofText?_eq_some_iff]
    exact ⟨fun isWritten => same.source.unique isWritten, fun here => here ▸ same.source⟩
  case mapping_iff =>
    intro source target mapping
    rw [mapping_iff_of_nodup distinct]
    exact mem_iff_of_forall₂ linked LinkOf.unique

/-- Building a topology from documents succeeds exactly where what they declare is sound, and then
it has exactly that. Otherwise it ends with the error of the first declaration that is refused,
where all types come before any link. -/
theorem build_exact (items : List Schema.Items) (documents : List Schema.Links) :
    ((∃ topology, build items documents = .ok topology) ↔
      SoundTypes (items.flatMap (·.types)) ∧
        SoundLinks (items.flatMap (·.types)) (documents.flatMap (·.links))) ∧
    (∀ topology, build items documents = .ok topology →
      Holds (items.flatMap (·.types)) (documents.flatMap (·.links)) topology) ∧
    ∀ error, build items documents = .error error ↔
      FirstRefused (items.flatMap (·.types)) (documents.flatMap (·.links)) error := by
  refine ⟨?_, fun topology built => (linksAdded_of_build built).2.holds, fun error => ?_⟩
  · constructor
    · rintro ⟨topology, built⟩
      obtain ⟨sound, added⟩ := linksAdded_of_build built
      exact ⟨sound, added.sound⟩
    · rintro ⟨sound, soundToo⟩
      obtain ⟨typed, made, added⟩ := addTypeDecls_of_sound sound
      obtain ⟨topology, done, -⟩ := addLinkDecls_of_sound added soundToo
      exact ⟨topology, bind_eq_ok.mpr ⟨typed, made, done⟩⟩
  · refine ⟨fun stopped => ?_, FirstRefused.build⟩
    rcases build_outcome items documents with ⟨topology, built, -⟩ | ⟨other, refused, stoppedToo⟩
    · cases built.symm.trans stopped
    · cases stoppedToo.symm.trans stopped
      exact refused

/-- Two documents with a type each. One attribute is named twice. -/
def acrossItems : List Schema.Items :=
  [⟨[⟨"a.x", [⟨"id", false⟩, ⟨"size", false⟩, ⟨"id", true⟩]⟩]⟩, ⟨[⟨"b.y", []⟩]⟩]

/-- A link of the first document leads to the type of the second. -/
def acrossLinks : List Schema.Links := [⟨[⟨"a.x", "b.y", ⟨"id", "owner"⟩⟩]⟩, ⟨[]⟩]

/-- The topology of both documents has both types, and the link between them. -/
theorem build_exact_across : ∃ topology, build acrossItems acrossLinks = .ok topology ∧
    topology.attrs? ⟨"a", "x"⟩ = some ["id", "size"] ∧
    topology.mapping ⟨"a", "x"⟩ ⟨"b", "y"⟩ = .ok ⟨"id", "owner"⟩ := by
  have read : ResourceType.IsWritten ⟨"a", "x"⟩ "a.x" :=
    ResourceType.ofText?_eq_some_iff.mp (by cbv)
  have readToo : ResourceType.IsWritten ⟨"b", "y"⟩ "b.y" :=
    ResourceType.ofText?_eq_some_iff.mp (by cbv)
  have built : build acrossItems acrossLinks = .ok
      ⟨(Dict.empty.insert "a.x" ⟨⟨"a", "x"⟩, ["id", "size"]⟩).insert "b.y" ⟨⟨"b", "y"⟩, []⟩,
        [⟨⟨"a", "x"⟩, ⟨"b", "y"⟩, ⟨"id", "owner"⟩⟩]⟩ := by
    cbv
  obtain ⟨-, holds, -⟩ := build_exact acrossItems acrossLinks
  have exact := holds _ built
  refine ⟨_, built, exact.attrs _ List.mem_cons_self ⟨⟨"a", "x"⟩, ["id", "size"]⟩ ⟨read, rfl⟩, ?_⟩
  exact (exact.mapping_iff _ _ _).mpr ⟨_, List.mem_cons_self, read, readToo, rfl⟩

end Topology

end PathQuery
