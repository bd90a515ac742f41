/-
This file says which reader a node of a plan is bound to. The types of a topology come from the
documents of all its readers, and each of them is declared by one reader. A node is bound to the
last reader of its namespace. Where readers have nothing to complain about but share a namespace,
this need not be the reader that declares its type.
-/

import PathQuery.Project.Load
import PathQuery.Proofs.Building
import PathQuery.Proofs.Joins
import PathQuery.Proofs.Spelling
import PathQuery.Proofs.Stops
import PathQuery.Query.Execute

namespace PathQuery

/-! ### Mentions -/

namespace Query

theorem dotless_of_spells {letters : List Char} {tokens : List Token}
    (spells : Spells letters tokens) {name : String} (member : .word name ∈ tokens) :
    '.' ∉ name.toList := by
  induction spells with
  | done => exact absurd member List.not_mem_nil
  | gap _ _ inductionHypothesis => exact inductionHypothesis member
  | @word letter others rest tokens starts continues _ _ inductionHypothesis =>
    rcases List.mem_cons.mp member with same | later
    · cases same
      rw [String.toList_ofList, List.mem_cons, not_or]
      exact ⟨fun dot => absurd (dot ▸ starts) (by decide),
        fun dot => absurd (continues _ dot) (by decide)⟩
    · exact inductionHypothesis later
  | quoted _ _ _ inductionHypothesis =>
    exact inductionHypothesis ((List.mem_cons.mp member).resolve_left nofun)
  | mark _ _ inductionHypothesis =>
    exact inductionHypothesis ((List.mem_cons.mp member).resolve_left nofun)

/-- The namespaces that a query mentions are written without a dot. -/
theorem dotless_of_parse {text : String} {query : Query} (parsed : parse text = .ok query)
    {item : QueryItem} (member : item ∈ query.items) {space name : String}
    (mentions : item.mention = .qualified space name) : '.' ∉ space.toList := by
  obtain ⟨written, -, rfl, spells⟩ := parse_iff.mp parsed
  have among : .word space ∈ item.tokens := by
    rw [QueryItem.tokens, mentions]
    exact List.mem_cons_self
  refine dotless_of_spells spells ?_
  rw [Written.tokens]
  rcases List.mem_cons.mp member with rfl | later
  · exact List.mem_append_left _ (List.mem_append_right _ among)
  · obtain ⟨linked, given, rfl⟩ := List.mem_map.mp later
    exact List.mem_append_right _
      (List.mem_flatMap.mpr ⟨linked, given, List.mem_cons_of_mem _ among⟩)

end Query

/-! ### The types of a topology -/

namespace Topology

/-- A topology has the types of a list, which are written in different ways, and its links lead to
some of them. -/
structure Covers (topology : Topology) (kinds : List ResourceType) : Prop where
  dotless : ∀ kind ∈ kinds, kind.Dotless
  distinct : (kinds.map (·.text)).Nodup
  contains_iff : ∀ kind, topology.contains kind = true ↔ ∃ other ∈ kinds, other.text = kind.text
  values : ∀ held ∈ topology.types.values, held.kind ∈ kinds
  targets : ∀ link ∈ topology.links, link.target ∈ kinds

variable {topology : Topology} {kinds : List ResourceType}

theorem Covers.mem (covers : topology.Covers kinds) {kind : ResourceType} (dotless : kind.Dotless)
    (held : topology.contains kind = true) : kind ∈ kinds := by
  obtain ⟨other, member, same⟩ := (covers.contains_iff kind).mp held
  exact ResourceType.eq_of_text_eq (covers.dotless other member) dotless same ▸ member

/-- A topology that is built from documents has the types that they declare. -/
theorem covers_of_build {items : List Schema.Items} {links : List Schema.Links}
    (built : build items links = .ok topology) :
    topology.Covers (Schema.declared (items.flatMap (·.types))) := by
  obtain ⟨-, added⟩ := linksAdded_of_build built
  obtain ⟨held, declared, files⟩ := added.has
  have kinds := declared_eq_of_forall₂ declared
  constructor
  case dotless =>
    intro kind member
    obtain ⟨decl, -, isWritten⟩ := mem_declared.mp member
    exact isWritten.dotless
  case distinct =>
    rw [kinds, List.map_map]
    exact files.distinct
  case contains_iff =>
    intro kind
    rw [files.contains_iff, kinds]
    simp only [List.mem_map, exists_exists_and_eq_and]
  case values =>
    intro type member
    rw [kinds]
    exact List.mem_map_of_mem (files.mem_values_iff.mp member)
  case targets =>
    intro link member
    obtain ⟨decl, given, linkOf⟩ := exists_of_forall₂_of_mem added.declared member
    obtain ⟨other, there, same⟩ := List.mem_map.mp (added.sound.declared decl given).2
    exact mem_declared.mpr ⟨other, there, same ▸ linkOf.target⟩

end Topology

/-! ### The types of nodes -/

namespace Plan

variable {topology : Topology} {readers : List Reader} {kinds : List ResourceType}

/-- A link of the topology leads to every type but the first of a walk, so it is there. -/
theorem mem_of_follows (covers : topology.Covers kinds) {first : ResourceType}
    {rest : List ResourceType} (follows : (first :: rest).IsChain topology.Linked) :
    ∀ kind ∈ rest, kind ∈ kinds := by
  intro kind member
  obtain ⟨before, linked⟩ := Topology.exists_rel_of_isChain follows kind member
  obtain ⟨link, given, same⟩ := List.mem_map.mp (Topology.linked_iff.mp linked)
  cases same
  exact covers.targets link given

/-- A mention without a dot in its namespace stands for a type that is there. -/
theorem mem_of_denotes (covers : topology.Covers kinds) {mention : TypeMention}
    {kind : ResourceType} (denotes : Denotes topology mention kind)
    (dotless : ∀ space name, mention = .qualified space name → '.' ∉ space.toList) :
    kind ∈ kinds := by
  cases denotes with
  | @qualified space name _ _ held => exact covers.mem (dotless space name rfl) held
  | @bare space name _ only held =>
    have listed : space ∈ topology.spaces name := only ▸ List.mem_singleton_self space
    rw [Topology.spaces, mem_keys_ofList] at listed
    obtain ⟨type, called, rfl⟩ := List.mem_map.mp listed
    obtain ⟨given, same⟩ := List.mem_filter.mp called
    cases beq_iff_eq.mp same
    exact covers.values type given

/-- The nodes of a plan for a query that is read from a text have types of the topology. -/
theorem mem_kinds_of_compile (covers : topology.Covers kinds) {text : String} {query : Query}
    (parsed : Query.parse text = .ok query) {plan : Plan}
    (compiled : compile query topology readers = .ok plan) {node : Node}
    (member : node ∈ plan.nodes) : node.spec.kind ∈ kinds := by
  obtain ⟨_, _, first, others, hops, walk, -, -, realised, spells, extended⟩ :=
    compile_ok compiled
  have nodes : plan.nodes = first :: others ++ hops := extended.allNodes
  rw [nodes] at member
  rcases List.mem_cons.mp (spells.perm.mem_iff.mpr member) with rfl | later
  · obtain ⟨realises, -⟩ := List.forall₂_cons.mp realised
    exact mem_of_denotes covers (denotes_of_resolve realises.kind) fun _ _ mentions =>
      Query.dotless_of_parse parsed List.mem_cons_self mentions
  · have follows := extended.joined.follows
    exact mem_of_follows covers follows _ (List.mem_map_of_mem later)

end Plan

/-! ### The readers that declare them -/

namespace Reader

/-- The types that the document of a reader declares. Where there is no document there are none. -/
def kinds (reader : Reader) : List ResourceType :=
  match reader.documents.items.items with
  | .ok items => Schema.declared items.types
  | .error _ => []

/-- The document of a reader declares a type. -/
def Declares (reader : Reader) (kind : ResourceType) : Prop := kind ∈ reader.kinds

theorem kinds_of_loaded {readers : List Reader} : ∀ {schemas : List (Schema.Items × Schema.Links)},
    List.Forall₂ (fun documents schema => Topology.Documents.load documents = .ok schema)
      (readers.map (·.documents)) schemas →
    Schema.declared ((schemas.map (·.1)).flatMap (·.types)) = readers.flatMap kinds := by
  induction readers with
  | nil =>
    rintro _ ⟨⟩
    rfl
  | cons reader rest inductionHypothesis =>
    intro schemas loaded
    cases loaded with
    | cons load loaded =>
      obtain ⟨items, read, load⟩ := bind_eq_ok.mp load
      obtain ⟨links, -, load⟩ := bind_eq_ok.mp load
      cases load
      have own : reader.kinds = Schema.declared items.types := by rw [kinds, read]
      rw [List.flatMap_cons, ← inductionHypothesis loaded, own, List.map_cons, List.flatMap_cons,
        Schema.declared, List.filterMap_append]
      rfl

theorem covers_of_topology {readers : List Reader} {topology : Topology}
    (built : Reader.topology readers = .ok topology) :
    topology.Covers (readers.flatMap kinds) := by
  rw [Reader.topology, Topology.load] at built
  split at built
  · cases built
  · next schemas loaded =>
    split at built
    · cases built
    · next held =>
      cases built
      rw [← kinds_of_loaded (mapM_eq_ok_iff.mp loaded)]
      exact Topology.covers_of_build held

/-- There is nothing to complain about in one reader exactly where its documents are loaded and
declare types of its own namespace only. -/
theorem readerComplaints_eq_nil_iff {reader : Reader} : Project.readerComplaints reader = [] ↔
    (∃ schema, reader.documents.load = .ok schema) ∧
      ∀ kind, reader.Declares kind → kind.space = reader.space := by
  simp only [Project.readerComplaints, Topology.Documents.load, Declares, kinds,
    List.append_eq_nil_iff]
  cases reader.documents.items.items with
  | error error =>
    refine iff_of_false ?_ ?_
    · rintro ⟨none, -⟩
      cases none
    · rintro ⟨⟨schema, loaded⟩, -⟩
      cases loaded
  | ok items =>
    simp only [List.map_eq_nil_iff, Project.foreignTypes, List.filter_eq_nil_iff, bne_iff_ne,
      not_not]
    cases reader.documents.links.links with
    | error error =>
      refine iff_of_false ?_ ?_
      · rintro ⟨-, none⟩
        cases none
      · rintro ⟨⟨schema, loaded⟩, -⟩
        cases loaded
    | ok links => exact ⟨fun own => ⟨⟨_, rfl⟩, own.1⟩, fun own => ⟨own.2, rfl⟩⟩

/-- Where there are no complaints there are none about any reader. -/
theorem readerComplaints_of_clean {readers : List Reader}
    (clean : Project.complaintsAbout readers = []) {reader : Reader} (member : reader ∈ readers) :
    Project.readerComplaints reader = [] := by
  refine List.flatMap_eq_nil_iff.mp ?_ reader member
  rw [Project.complaintsAbout] at clean
  split at clean
  · next none => exact none
  · next some => exact absurd clean some

/-- Readers without complaints declare types of their own namespaces only. -/
theorem space_of_declares {readers : List Reader} (clean : Project.complaintsAbout readers = [])
    {reader : Reader} (member : reader ∈ readers) {kind : ResourceType}
    (declares : reader.Declares kind) : reader.space = kind.space :=
  ((readerComplaints_eq_nil_iff.mp (readerComplaints_of_clean clean member)).2 kind declares).symm

/-- A type that readers declare is declared by one of them, where all their types differ. -/
theorem exists_declaring {readers : List Reader} (distinct : (readers.flatMap kinds).Nodup)
    {kind : ResourceType} (member : kind ∈ readers.flatMap kinds) :
    ∃ before declaring after, readers = before ++ declaring :: after ∧ declaring.Declares kind ∧
      ∀ other ∈ before ++ after, ¬ other.Declares kind := by
  obtain ⟨declaring, given, declares⟩ := List.mem_flatMap.mp member
  obtain ⟨before, after, rfl⟩ := List.append_of_mem given
  refine ⟨before, declaring, after, rfl, declares, fun other among also => ?_⟩
  rw [List.flatMap_append, List.flatMap_cons] at distinct
  obtain ⟨-, rest, apart⟩ := List.nodup_append.mp distinct
  rcases List.mem_append.mp among with early | late
  · exact apart kind (List.mem_flatMap.mpr ⟨other, early, also⟩) kind
      (List.mem_append_left _ declares) rfl
  · exact (List.nodup_append.mp rest).2.2 kind declares kind
      (List.mem_flatMap.mpr ⟨other, late, also⟩) rfl

/-- The reader of a namespace is a later one than one that has the namespace, or that one itself. -/
theorem ofSpace?_append {before after : List Reader} {declaring reader : Reader} {space : String}
    (own : declaring.space = space)
    (found : ofSpace? (before ++ declaring :: after) space = some reader) :
    (reader ∈ after ∧ reader.space = space) ∨
      (reader = declaring ∧ ∀ later ∈ after, later.space ≠ space) := by
  rw [ofSpace?, List.reverse_append, List.reverse_cons, List.append_assoc, List.find?_append]
    at found
  cases last : after.reverse.find? (·.space == space) with
  | some later =>
    rw [last] at found
    cases found
    exact .inl ⟨List.mem_reverse.mp (List.mem_of_find?_eq_some last),
      beq_iff_eq.mp (List.find?_some last :)⟩
  | none =>
    have here : (declaring.space == space) = true := beq_iff_eq.mpr own
    rw [last, Option.none_or, List.singleton_append, List.find?_cons, here] at found
    cases found
    refine .inr ⟨rfl, fun later member same => ?_⟩
    exact List.find?_eq_none.mp last later (List.mem_reverse.mpr member) (beq_iff_eq.mpr same)

end Reader

/-- Where readers have nothing to complain about, the type of every node of a plan is declared by
one reader, of the namespace of the type. The node is bound to a reader that declares its type
exactly where no reader that comes after this one has the same namespace, and then it is bound to
this one. -/
theorem Plan.binds_declaring_iff {readers : List Reader} {text : String} {query : Query}
    {plan : Plan} (clean : Project.complaintsAbout readers = [])
    (parsed : Query.parse text = .ok query) (planned : query.plan readers = .ok plan)
    {node : Node} (member : node ∈ plan.nodes) :
    ∃ before declaring after, readers = before ++ declaring :: after ∧
      declaring.space = node.spec.kind.space ∧ declaring.Declares node.spec.kind ∧
      (∀ other ∈ before ++ after, ¬ other.Declares node.spec.kind) ∧
      (node.spec.reader.Declares node.spec.kind ↔
        ∀ later ∈ after, later.space ≠ node.spec.kind.space) ∧
      (node.spec.reader.Declares node.spec.kind → node.spec.reader = declaring) := by
  rw [Query.plan] at planned
  split at planned
  · cases planned
  · next topology built =>
    split at planned
    · cases planned
    · next compiled =>
      cases planned
      have covers := Reader.covers_of_topology built
      have declared := mem_kinds_of_compile covers parsed compiled member
      obtain ⟨before, declaring, after, rfl, declares, sole⟩ :=
        Reader.exists_declaring (List.Nodup.of_map _ covers.distinct) declared
      have own := Reader.space_of_declares clean
        (List.mem_append_right _ List.mem_cons_self) declares
      obtain ⟨_, _, -, -, bound⟩ := bound_of_compile compiled
      refine ⟨before, declaring, after, rfl, own, declares, sole, ?_⟩
      rcases Reader.ofSpace?_append own (bound node member).2 with
        ⟨later, same⟩ | ⟨same, last⟩
      · have undeclared := sole _ (List.mem_append_right _ later)
        exact ⟨iff_of_false undeclared fun last => last _ later same,
          fun declares => absurd declares undeclared⟩
      · rw [same]
        exact ⟨iff_of_true declares last, fun _ => rfl⟩

/-! ### Two readers of one namespace -/

namespace Plan

/-- A reader that declares a type and has a record of it. -/
def declaring : Reader.Memory :=
  ((Reader.Memory.empty "r" ["dev"]).withSchemas
    "\x7b\"items\": [\x7b\"type\": \"r.t1\"\x7d]\x7d" Reader.Memory.noSchema).store
    "dev" "t1" [("id", "1")]

/-- A reader of the same namespace that declares nothing. -/
def silent : Reader.Memory := .empty "r" ["ops"]

def oneType : Topology :=
  ⟨Dict.empty.insert "r.t1" ⟨⟨"r", "t1"⟩, []⟩, []⟩

def forOneType : Query := ⟨.all, ⟨.qualified "r" "t1", []⟩, []⟩

/-- The plan for the one type, bound to some reader. -/
def boundTo (reader : Reader) : Plan :=
  ⟨[⟨"ROOT", ⟨⟨"r", "t1"⟩, ["dev", "ops"], [], [], reader⟩⟩], []⟩

theorem parse_forOneType : Query.parse "r.t1" = .ok forOneType := by
  cbv

theorem declaring_kinds : declaring.reader.kinds = [⟨"r", "t1"⟩] := by
  decide +kernel

theorem silent_kinds : silent.reader.kinds = [] := by
  decide +kernel

/-- The reader that declares the type comes last: its node is bound to it, and no reader of the
namespace comes after it. -/
theorem binds_declaring_iff_last :
    ∃ plan, forOneType.plan [silent.reader, declaring.reader] = .ok plan ∧
      ∃ node ∈ plan.nodes, node.spec.reader.Declares node.spec.kind ∧
        ∃ before after, [silent.reader, declaring.reader] =
          before ++ node.spec.reader :: after ∧ ∀ later ∈ after, later.space ≠ "r" := by
  have clean : Project.complaintsAbout [silent.reader, declaring.reader] = [] :=
    List.eq_nil_of_length_eq_zero (by decide +kernel)
  have built : Reader.topology [silent.reader, declaring.reader] = .ok oneType :=
    ok_of_toOption (by decide +kernel)
  have planned : forOneType.plan [silent.reader, declaring.reader] =
      .ok (boundTo declaring.reader) := by
    rw [Query.plan, built]
    cbv
  have declares : declaring.reader.Declares ⟨"r", "t1"⟩ := by
    rw [Reader.Declares, declaring_kinds]
    exact List.mem_cons_self
  obtain ⟨before, _, after, order, -, -, -, bound, same⟩ :=
    binds_declaring_iff clean parse_forOneType planned List.mem_cons_self
  rw [← same declares] at order
  exact ⟨_, planned, _, List.mem_cons_self, declares, before, after, order, bound.mp declares⟩

/-- The reader that declares the type comes first: its node is bound to the other one, which does
not declare it. -/
theorem binds_silent :
    Project.complaintsAbout [declaring.reader, silent.reader] = [] ∧
    Query.parse "r.t1" = .ok forOneType ∧
    ∃ plan, forOneType.plan [declaring.reader, silent.reader] = .ok plan ∧
      ∃ node ∈ plan.nodes, ¬ node.spec.reader.Declares node.spec.kind := by
  have clean : Project.complaintsAbout [declaring.reader, silent.reader] = [] :=
    List.eq_nil_of_length_eq_zero (by decide +kernel)
  have built : Reader.topology [declaring.reader, silent.reader] = .ok oneType :=
    ok_of_toOption (by decide +kernel)
  have planned : forOneType.plan [declaring.reader, silent.reader] =
      .ok (boundTo silent.reader) := by
    rw [Query.plan, built]
    cbv
  have declaresNothing : ¬ silent.reader.Declares ⟨"r", "t1"⟩ := by
    rw [Reader.Declares, silent_kinds]
    exact List.not_mem_nil
  exact ⟨clean, parse_forOneType, _, planned, _, List.mem_cons_self, declaresNothing⟩

end Plan

end PathQuery
