/-
This file says what readers with stored records answer, be the records in memory or in the files of
a directory. Which records they hold for a type under profiles, and whether reading them fails, does
not depend on the rest of a request: the answer is a selection of the records that are held,
together with the failure. Every one of these records belongs to one of the profiles that are asked
for.
-/

import PathQuery.Proofs.DataFiles
import PathQuery.Reader.Memory

namespace PathQuery.Reader

/-- Readers with stored records: in memory, or in the files of a directory. -/
inductive IsStore : Reader → Prop where
  | memory (memory : Memory) : IsStore memory.reader
  | directory (files : Files) (directory : Directory) : IsStore (directory.reader files)

/-- A record is stored for a type. -/
inductive Stores : Reader → (typeName : String) → Record → Prop where
  | memory {memory : Memory} {typeName profile : String} {record : Record} :
    record ∈ memory.shelf typeName profile → Stores memory.reader typeName record
  | directory {files : Files} {directory : Directory} {typeName profile : String}
    {records : List Record} {record : Record} :
    directory.records files typeName profile = .ok records → record ∈ records →
    Stores (directory.reader files) typeName record

/-- A record is held for a type under a profile. A directory holds records under its own profiles
only. -/
inductive Holds : Reader → (typeName profile : String) → Record → Prop where
  | memory {memory : Memory} {typeName profile : String} {record : Record} :
    record ∈ memory.shelf typeName profile → Holds memory.reader typeName profile record
  | directory {files : Files} {directory : Directory} {typeName profile : String}
    {records : List Record} {record : Record} : profile ∈ directory.manifest.profiles →
    directory.records files typeName profile = .ok records → record ∈ records →
    Holds (directory.reader files) typeName profile record

theorem Holds.stores {reader : Reader} {typeName profile : String} {record : Record}
    (holds : reader.Holds typeName profile record) : reader.Stores typeName record := by
  cases holds with
  | memory shelved => exact .memory shelved
  | directory _ read member => exact .directory read member

/-- A failure that comes without records. -/
def Error.IsBare (error : Error) : Prop := error.parts = ([], error.message)

namespace Directory

variable {files : Files} {directory : Directory} {typeName : String}

/-- Reading the records of a profile fails without records. -/
theorem records_error {profile : String} {error : Error}
    (failed : directory.records files typeName profile = .error error) : error.IsBare := by
  simp only [records] at failed
  split at failed
  · cases failed
  · split at failed
    · cases failed
      rfl
    · split at failed
      · cases failed
        rfl
      · cases failed

/-- The records of a profile, if they can be read. -/
def brought (files : Files) (directory : Directory) (typeName profile : String) : List Record :=
  (directory.records files typeName profile).toOption.getD []

/-- The failure of a profile, if its records cannot be read. -/
def failure? (files : Files) (directory : Directory) (typeName profile : String) : Option Error :=
  match directory.records files typeName profile with
  | .ok _ => none
  | .error error => some error

theorem failure?_eq_some_iff {profile : String} {error : Error} :
    failure? files directory typeName profile = some error ↔
      directory.records files typeName profile = .error error := by
  rw [failure?]
  cases directory.records files typeName profile with
  | ok records => exact ⟨nofun, nofun⟩
  | error other =>
    exact ⟨fun same => Option.some.inj same ▸ rfl, fun same => Except.error.inj same ▸ rfl⟩

theorem mem_brought {profile : String} {record : Record}
    (member : record ∈ directory.brought files typeName profile) :
    ∃ records, directory.records files typeName profile = .ok records ∧ record ∈ records := by
  rw [brought] at member
  cases read : directory.records files typeName profile with
  | ok records =>
    rw [read] at member
    exact ⟨records, rfl, member⟩
  | error error =>
    rw [read] at member
    exact absurd member List.not_mem_nil

/-- The profiles of a list that a directory has, in the order of the list. -/
def supported (directory : Directory) (profiles : List String) : List String :=
  profiles.filter directory.manifest.profiles.contains

/-- What is gathered for a type under those of the profiles that the directory has. -/
def gathered (files : Files) (directory : Directory) (typeName : String)
    (profiles : List String) : Gathered :=
  ((directory.supported profiles).map (directory.records files typeName)).foldl Gathered.add
    ⟨[], none⟩

theorem foldl_add (read : List String) (start : Gathered) :
    (read.map (directory.records files typeName)).foldl Gathered.add start =
      ⟨start.records ++ read.flatMap (directory.brought files typeName),
        start.failure.or (read.findSome? (failure? files directory typeName))⟩ := by
  induction read generalizing start with
  | nil =>
    rw [List.flatMap_nil, List.append_nil, List.findSome?_nil, Option.or_none]
    rfl
  | cons profile rest inductionHypothesis =>
    rw [List.map_cons, List.foldl_cons, inductionHypothesis, List.flatMap_cons,
      List.findSome?_cons, brought, failure?]
    cases directory.records files typeName profile with
    | ok records =>
      rw [Gathered.add, List.append_assoc]
      rfl
    | error error =>
      rw [Gathered.add, Option.or_assoc]
      rfl

/-- All records that can be read are gathered, in the order of the profiles, and the first
failure. -/
theorem gathered_eq (files : Files) (directory : Directory) (typeName : String)
    (profiles : List String) : gathered files directory typeName profiles =
      ⟨(directory.supported profiles).flatMap (directory.brought files typeName),
        (directory.supported profiles).findSome? (failure? files directory typeName)⟩ :=
  foldl_add _ _

/-- What is gathered is held under one of the profiles. -/
theorem held_of_gathered {profiles : List String} {record : Record}
    (member : record ∈ (gathered files directory typeName profiles).records) :
    ∃ profile ∈ profiles, Holds (directory.reader files) typeName profile record := by
  rw [gathered_eq] at member
  obtain ⟨profile, asked, member⟩ := List.mem_flatMap.mp member
  obtain ⟨among, own⟩ := List.mem_filter.mp asked
  obtain ⟨records, read, member⟩ := mem_brought member
  exact ⟨profile, among, .directory (List.contains_iff_mem.mp own) read member⟩

/-- The failure that is gathered comes without records. -/
theorem bare_of_gathered {profiles : List String} {error : Error}
    (failed : (gathered files directory typeName profiles).failure = some error) :
    error.IsBare := by
  rw [gathered_eq] at failed
  obtain ⟨profile, -, failed⟩ := List.exists_of_findSome?_eq_some failed
  exact records_error (failure?_eq_some_iff.mp failed)

/-- A directory answers with the records that it gathers, selected, and with the first failure. -/
theorem fetch_parts (files : Files) (directory : Directory) (typeName : String)
    (profiles attrs : List String) (conditions : List Condition) :
    ((directory.reader files).fetch ⟨typeName, profiles, attrs, conditions⟩).parts =
      (Record.select (gathered files directory typeName profiles).records attrs conditions,
        (gathered files directory typeName profiles).failure.map Error.message) := by
  simp only [reader, fetch]
  rw [← supported, ← gathered]
  cases failure : (gathered files directory typeName profiles).failure with
  | none => rfl
  | some error =>
    simp only [Answer.parts]
    split
    · next nothing =>
      rw [bare_of_gathered failure, List.isEmpty_iff.mp nothing]
      rfl
    · rfl

end Directory

/-- What a store holds for a type under profiles is selected for every request alike. -/
theorem IsStore.answers {reader : Reader} (store : reader.IsStore) (typeName : String)
    (profiles : List String) : ∃ held failure,
      (∀ record ∈ held, ∃ profile ∈ profiles, reader.Holds typeName profile record) ∧
      ∀ attrs conditions,
        (reader.fetch ⟨typeName, profiles, attrs, conditions⟩).parts =
          (Record.select held attrs conditions, failure) := by
  cases store with
  | memory memory =>
    cases failing : memory.failures.lookup typeName with
    | some message =>
      refine ⟨[], some (Error.fetch typeName message).message, nofun, fun attrs conditions => ?_⟩
      simp only [Memory.reader, Memory.fetch, failing]
      rfl
    | none =>
      refine ⟨profiles.flatMap (memory.shelf typeName), none, fun record member => ?_,
        fun attrs conditions => ?_⟩
      · obtain ⟨profile, asked, shelved⟩ := List.mem_flatMap.mp member
        exact ⟨profile, asked, .memory shelved⟩
      · simp only [Memory.reader, Memory.fetch, failing]
        rfl
  | directory files directory =>
    exact ⟨_, _, fun _ member => Directory.held_of_gathered member,
      Directory.fetch_parts files directory typeName profiles⟩

end PathQuery.Reader
