/-
This file says what it means that validation finds nothing. Validation goes through all readers once
and collects what is wrong with each, where loading stops at the first fault. Both agree: there is
nothing to complain about exactly where the readers give a topology and each of them declares types
of its own namespace only. Then every type of the topology has a reader, so no query is refused for
want of one.
-/

import Mathlib.Data.List.Infix
import PathQuery.Proofs.Declarations

namespace PathQuery

/-! ### One pass over the readers -/

namespace Project

/-- What a pass over readers has found: what is wrong with each of them, and the documents that
could be loaded. -/
structure Survey where
  complaints : List Complaint
  items : List Schema.Items
  links : List Schema.Links

namespace Survey

/-- Looks at the document of a reader for types. -/
def withItems (survey : Survey) (reader : Reader) : Survey :=
  match reader.documents.items.items with
  | .ok items =>
    let foreign := (foreignTypes reader.space items).map (.foreignType reader.space)
    ⟨survey.complaints ++ foreign, survey.items ++ [items], survey.links⟩
  | .error error => { survey with complaints := survey.complaints ++ [.schema error] }

/-- Looks at the document of a reader for links. -/
def withLinks (survey : Survey) (reader : Reader) : Survey :=
  match reader.documents.links.links with
  | .ok links => { survey with links := survey.links ++ [links] }
  | .error error => { survey with complaints := survey.complaints ++ [.schema error] }

/-- Looks at the documents of a reader. -/
def add (survey : Survey) (reader : Reader) : Survey :=
  (survey.withItems reader).withLinks reader

/-- Goes through readers in order. -/
def ofReaders (readers : List Reader) : Survey :=
  readers.foldl add ⟨[], [], []⟩

/-- What is wrong. Only where that is nothing so far a topology is built from the documents. -/
def problems (survey : Survey) : List Complaint :=
  match survey.complaints with
  | [] =>
    match Topology.build survey.items survey.links with
    | .ok _ => []
    | .error error => [.topology error]
  | found => found

/-- What holds on the way: there are the complaints about each of the readers so far, and without
any all of their documents were loaded. -/
structure IsOf (survey : Survey) (readers : List Reader) : Prop where
  complaints : survey.complaints = readers.flatMap readerComplaints
  loaded : survey.complaints = [] → ∃ schemas,
    (readers.map (·.documents)).mapM Topology.Documents.load = .ok schemas ∧
      survey.items = schemas.map (·.1) ∧ survey.links = schemas.map (·.2)

variable {survey : Survey} {readers : List Reader}

/-- A reader adds the complaints about it. -/
theorem add_complaints (survey : Survey) (reader : Reader) :
    (survey.add reader).complaints = survey.complaints ++ readerComplaints reader := by
  rw [add, withLinks, withItems, readerComplaints]
  cases reader.documents.items.items <;> cases reader.documents.links.links <;>
    simp only [List.append_assoc, List.append_nil]

/-- A reader whose documents are loaded adds them. -/
theorem add_loaded {reader : Reader} {schema : Schema.Items × Schema.Links}
    (loaded : reader.documents.load = .ok schema) (survey : Survey) :
    (survey.add reader).items = survey.items ++ [schema.1] ∧
      (survey.add reader).links = survey.links ++ [schema.2] := by
  obtain ⟨items, read, loaded⟩ := bind_eq_ok.mp loaded
  obtain ⟨links, readToo, loaded⟩ := bind_eq_ok.mp loaded
  cases loaded
  rw [add, withLinks, withItems, read, readToo]
  exact ⟨rfl, rfl⟩

theorem IsOf.add (isOf : survey.IsOf readers) (reader : Reader) :
    (survey.add reader).IsOf (readers ++ [reader]) where
  complaints := by
    rw [add_complaints, isOf.complaints, List.flatMap_append, List.flatMap_singleton]
  loaded quiet := by
    rw [add_complaints, List.append_eq_nil_iff] at quiet
    obtain ⟨schemas, loaded, items, links⟩ := isOf.loaded quiet.1
    obtain ⟨⟨schema, own⟩, -⟩ := Reader.readerComplaints_eq_nil_iff.mp quiet.2
    obtain ⟨itemsToo, linksToo⟩ := add_loaded own survey
    refine ⟨schemas ++ [schema], ?_, ?_, ?_⟩
    · have last : [reader.documents].mapM Topology.Documents.load = .ok [schema] := by
        rw [List.mapM_cons, own]
        rfl
      rw [List.map_append, List.mapM_append, loaded, List.map_singleton, last]
      rfl
    · rw [itemsToo, items, List.map_append, List.map_singleton]
    · rw [linksToo, links, List.map_append, List.map_singleton]

theorem isOf_ofReaders (readers : List Reader) : (ofReaders readers).IsOf readers := by
  induction readers using List.reverseRecOn with
  | nil => exact ⟨rfl, fun _ => ⟨[], rfl, rfl, rfl⟩⟩
  | append_singleton earlier reader inductionHypothesis =>
    rw [ofReaders, List.foldl_append]
    exact inductionHypothesis.add reader

/-- The complaints about readers are what one pass over them finds. -/
theorem problems_ofReaders (readers : List Reader) :
    (ofReaders readers).problems = complaintsAbout readers := by
  have isOf := isOf_ofReaders readers
  rw [problems, isOf.complaints, complaintsAbout]
  cases quiet : readers.flatMap readerComplaints with
  | cons first further => rfl
  | nil =>
    obtain ⟨schemas, loaded, items, links⟩ := isOf.loaded (isOf.complaints.trans quiet)
    rw [Reader.topology, Topology.load, loaded, items, links]
    dsimp only
    cases Topology.build (schemas.map (·.1)) (schemas.map (·.2)) with
    | ok topology => rfl
    | error error => rfl

end Survey

end Project

/-! ### Nothing to complain about -/

namespace Reader

variable {readers : List Reader}

/-- The documents of each of the readers that give a topology can be loaded. -/
theorem loaded_of_topology {topology : Topology}
    (built : Reader.topology readers = .ok topology) {reader : Reader} (member : reader ∈ readers) :
    ∃ schema, reader.documents.load = .ok schema := by
  rw [Reader.topology, Topology.load] at built
  split at built
  · cases built
  · next schemas loaded =>
    obtain ⟨schema, -, load⟩ := exists_of_forall₂_of_mem (mapM_eq_ok_iff.mp loaded).flip
      (List.mem_map_of_mem member)
    exact ⟨schema, load⟩

/-- There is nothing to complain about exactly where readers give a topology and each declares types
of its own namespace only. -/
theorem complaintsAbout_eq_nil_iff : Project.complaintsAbout readers = [] ↔
    (∃ topology, Reader.topology readers = .ok topology) ∧
      ∀ reader ∈ readers, ∀ kind, reader.Declares kind → kind.space = reader.space := by
  constructor
  · intro clean
    refine ⟨?_, fun reader member kind declares => (space_of_declares clean member declares).symm⟩
    have quiet : readers.flatMap Project.readerComplaints = [] :=
      List.flatMap_eq_nil_iff.mpr fun reader member => readerComplaints_of_clean clean member
    rw [Project.complaintsAbout, quiet] at clean
    cases built : Reader.topology readers with
    | ok topology => exact ⟨topology, rfl⟩
    | error error =>
      rw [built] at clean
      cases error <;> cases clean
  · rintro ⟨⟨topology, built⟩, own⟩
    have quiet : readers.flatMap Project.readerComplaints = [] :=
      List.flatMap_eq_nil_iff.mpr fun reader member =>
        readerComplaints_eq_nil_iff.mpr ⟨loaded_of_topology built member, own reader member⟩
    rw [Project.complaintsAbout, quiet, built]

/-- A type that readers without complaints declare has a reader. -/
theorem hasReader_of_clean (clean : Project.complaintsAbout readers = []) {kind : ResourceType}
    (member : kind ∈ readers.flatMap kinds) : Plan.HasReader readers kind := by
  obtain ⟨reader, given, declares⟩ := List.mem_flatMap.mp member
  exact ⟨reader, given, space_of_declares clean given declares⟩

end Reader

namespace Plan

variable {topology : Topology} {readers : List Reader} {kinds : List ResourceType}

/-- The types on the way between two others are types of the topology. -/
theorem mem_of_between (covers : topology.Covers kinds) {source target kind : ResourceType}
    {path : List ResourceType} (found : topology.shortestPath source target = .ok path)
    (between : kind ∈ path.tail.dropLast) : kind ∈ kinds := by
  obtain ⟨starts, -, follows⟩ :=
    ((Topology.routed (Topology.known_of_shortestPath found)).shortest _ found).1
  cases path with
  | nil => cases starts
  | cons first rest => exact mem_of_follows covers follows kind (List.mem_of_mem_dropLast between)

theorem Unresolved.ne_noReader {mention : TypeMention} {error : Error}
    (unresolved : Unresolved topology mention error) (space : String) :
    error ≠ .noReader space := by
  rintro rfl
  cases unresolved

theorem Unsupported.ne_noReader {kind : ResourceType} {modifier : Modifier} {error : Error}
    (unsupported : Unsupported topology kind modifier error) (space : String) :
    error ≠ .noReader space := by
  rintro rfl
  cases unsupported

/-- Where all types of a topology have readers, no query that is read from a text is refused for
want of one: neither for a type that it mentions, nor for one on the way between two others. -/
theorem compile_ne_noReader (covers : topology.Covers kinds)
    (read : ∀ kind ∈ kinds, HasReader readers kind) {text : String} {query : Query}
    (parsed : Query.parse text = .ok query) (space : String) :
    compile query topology readers ≠ .error (.noReader space) := by
  intro stopped
  cases refused_of_compile stopped with
  | item member refused =>
    cases refused with
    | mention unresolved => exact unresolved.ne_noReader space rfl
    | modifier _ _ unsupported => exact unsupported.ne_noReader space rfl
    | reader denotes unread =>
      exact unread (read _ (mem_of_denotes covers denotes fun _ _ mentions =>
        Query.dotless_of_parse parsed member mentions))
  | connection _ _ _ unconnected =>
    cases unconnected with
    | unread _ found between unread => exact unread (read _ (mem_of_between covers found between))

end Plan

/-- The complaints about readers are what one pass over them finds. There are none exactly where the
readers give a topology and each of them declares types of its own namespace only, and then no query
that is read from a text is refused over the topology for want of a reader. -/
theorem Project.complaintsAbout_exact (readers : List Reader) :
    (Project.Survey.ofReaders readers).problems = Project.complaintsAbout readers ∧
    (Project.complaintsAbout readers = [] ↔
      (∃ topology, Reader.topology readers = .ok topology) ∧
        ∀ reader ∈ readers, ∀ kind, reader.Declares kind → kind.space = reader.space) ∧
    (Project.complaintsAbout readers = [] → ∀ topology, Reader.topology readers = .ok topology →
      ∀ text query, Query.parse text = .ok query →
        ∀ space, Plan.compile query topology readers ≠ .error (.noReader space)) := by
  refine ⟨Survey.problems_ofReaders readers, Reader.complaintsAbout_eq_nil_iff, ?_⟩
  intro clean topology built text query parsed space
  exact Plan.compile_ne_noReader (Reader.covers_of_topology built)
    (fun kind member => Reader.hasReader_of_clean clean member) parsed space

namespace Plan

/-! ### A way through another namespace -/

/-- A reader of two types. The first is linked to a type of another namespace, and that to the
second. -/
def outer : Reader.Memory :=
  (Reader.Memory.empty "r" ["dev"]).withSchemas
    "\x7b\"items\": [\x7b\"type\": \"r.a\"\x7d, \x7b\"type\": \"r.c\"\x7d]\x7d"
    ("\x7b\"links\": [" ++
      "\x7b\"from\": \"r.a\", \"to\": \"s.b\", " ++
        "\"mapping\": \x7b\"from\": \"id\", \"to\": \"id\"\x7d\x7d, " ++
      "\x7b\"from\": \"s.b\", \"to\": \"r.c\", " ++
        "\"mapping\": \x7b\"from\": \"id\", \"to\": \"id\"\x7d\x7d]\x7d")

/-- A reader that declares the type in between, for some namespace. -/
def inner (space : String) : Reader.Memory :=
  (Reader.Memory.empty space ["ops"]).withSchemas
    "\x7b\"items\": [\x7b\"type\": \"s.b\"\x7d]\x7d" Reader.Memory.noSchema

/-- The topology of both. -/
def throughAnother : Topology where
  types := ((Dict.empty.insert "r.a" ⟨⟨"r", "a"⟩, []⟩).insert "r.c" ⟨⟨"r", "c"⟩, []⟩).insert
    "s.b" ⟨⟨"s", "b"⟩, []⟩
  links := [⟨⟨"r", "a"⟩, ⟨"s", "b"⟩, ⟨"id", "id"⟩⟩, ⟨⟨"s", "b"⟩, ⟨"r", "c"⟩, ⟨"id", "id"⟩⟩]

def forOuter : Query := ⟨.all, ⟨.qualified "r" "a", []⟩, [(.short, ⟨.qualified "r" "c", []⟩)]⟩

/-- Where the type in between is declared by a reader of its namespace there is nothing to complain
about, and a query across it is not refused for want of a reader. -/
theorem complaintsAbout_exact_through :
    Project.complaintsAbout [outer.reader, (inner "s").reader] = [] ∧
      Reader.topology [outer.reader, (inner "s").reader] = .ok throughAnother ∧
      Query.parse "r.a - r.c" = .ok forOuter ∧
      ∀ space, compile forOuter throughAnother [outer.reader, (inner "s").reader] ≠
        .error (.noReader space) := by
  have clean : Project.complaintsAbout [outer.reader, (inner "s").reader] = [] :=
    List.eq_nil_of_length_eq_zero (by decide +kernel)
  have built : Reader.topology [outer.reader, (inner "s").reader] = .ok throughAnother :=
    ok_of_toOption (by decide +kernel)
  have parsed : Query.parse "r.a - r.c" = .ok forOuter := ok_of_toOption (by decide +kernel)
  obtain ⟨-, -, never⟩ := Project.complaintsAbout_exact [outer.reader, (inner "s").reader]
  exact ⟨clean, built, parsed, never clean _ built _ _ parsed⟩

/-- Declared by a reader of another namespace the type in between has none: the complaint says so,
and the query is refused. -/
example : (Project.complaintsAbout [outer.reader, (inner "t").reader]).map (·.message) =
      ["reader \"t\" declares type s.b outside its namespace"] ∧
    (compile forOuter throughAnother [outer.reader, (inner "t").reader]).map (fun _ => ()) =
      .error (.noReader "s") :=
  ⟨by decide +kernel, by cbv⟩

end Plan

end PathQuery
