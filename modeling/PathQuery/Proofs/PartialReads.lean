/-
This file says what the reader of a directory answers where some of its files cannot be read. The
answer is complete exactly where the file of every profile is missing or loads. Otherwise it is a
failure that tells the first profile in the way, and it comes with a selection of what all the other
profiles bring, those before it and those after it.
-/

import PathQuery.Proofs.Stores

namespace PathQuery.Reader.Directory

variable {files : Files} {directory : Directory} {typeName profile : String}

/-! ### What a profile adds -/

/-- What a profile adds to an answer: the records that it brings, or none where its file is there
and does not load. -/
inductive Adds (files : Files) (directory : Directory) (typeName profile : String) :
    List Record → Prop
  | brought {records : List Record} : Brings files directory typeName profile records →
    Adds files directory typeName profile records
  | failed : ¬ Readable files directory typeName profile →
    Adds files directory typeName profile []

/-- A profile whose file is readable does not fail. -/
theorem failure?_eq_none_iff : failure? files directory typeName profile = none ↔
    Readable files directory typeName profile := by
  rw [← exists_brings_iff, failure?]
  simp only [← records_eq_ok_iff]
  cases directory.records files typeName profile with
  | ok records => exact ⟨fun _ => ⟨records, rfl⟩, fun _ => rfl⟩
  | error error =>
    constructor
    · intro none
      cases none
    · rintro ⟨_, same⟩
      cases same

/-- The first failure of several profiles is that of the first one that is not readable. -/
theorem exists_of_findSome?_failure? {profiles : List String} {error : Error}
    (failed : profiles.findSome? (failure? files directory typeName) = some error) :
    ∃ before failing after, profiles = before ++ failing :: after ∧
      (∀ profile ∈ before, Readable files directory typeName profile) ∧
      ¬ Readable files directory typeName failing ∧
      directory.records files typeName failing = .error error := by
  obtain ⟨before, failing, after, rfl, stopped, earlier⟩ := List.findSome?_eq_some_iff.mp failed
  refine ⟨before, failing, after, rfl, fun profile given => ?_, ?_, failure?_eq_some_iff.mp stopped⟩
  · exact failure?_eq_none_iff.mp (earlier profile given)
  · rw [← failure?_eq_none_iff, stopped]
    exact Option.some_ne_none error

/-- Every profile adds its records, or none where they cannot be read. -/
theorem adds_brought (files : Files) (directory : Directory) (typeName profile : String) :
    Adds files directory typeName profile (directory.brought files typeName profile) := by
  rw [brought]
  cases read : directory.records files typeName profile with
  | ok records => exact .brought (records_eq_ok_iff.mp read)
  | error error =>
    refine .failed fun readable => ?_
    rw [← failure?_eq_none_iff, failure?_eq_some_iff.mpr read] at readable
    cases readable

/-! ### Answers -/

/-- Nothing failed exactly where the files of all profiles are readable. -/
theorem failure_eq_none_iff {profiles : List String} :
    (gathered files directory typeName profiles).failure = none ↔
      ∀ profile ∈ directory.supported profiles, Readable files directory typeName profile := by
  rw [gathered_eq, List.findSome?_eq_none_iff]
  simp only [failure?_eq_none_iff]

/-- The answer to a request is all that is gathered, selected, where nothing failed. -/
theorem fetch_eq_ok_iff {request : Request} {found : List Record} :
    directory.fetch files request = .ok found ↔
      (gathered files directory request.typeName request.profiles).failure = none ∧
      found = Record.select (gathered files directory request.typeName request.profiles).records
        request.attrs request.conditions := by
  simp only [fetch]
  rw [← supported, ← gathered]
  cases (gathered files directory request.typeName request.profiles).failure with
  | none =>
    constructor
    · intro same
      exact ⟨rfl, (Except.ok.inj same).symm⟩
    · rintro ⟨-, rfl⟩
      rfl
  | some error =>
    constructor
    · intro same
      cases same
    · rintro ⟨none, -⟩
      cases none

/-- A failure comes with all that is gathered, selected, and tells the first failure. -/
theorem parts_of_fetch {request : Request} {error : Error}
    (failed : directory.fetch files request = .error error) : ∃ cause,
      (gathered files directory request.typeName request.profiles).failure = some cause ∧
      error.parts = (Record.select
        (gathered files directory request.typeName request.profiles).records request.attrs
        request.conditions, cause.message) := by
  have parts := fetch_parts files directory request.typeName request.profiles request.attrs
    request.conditions
  simp only [reader, failed, Answer.parts, Prod.mk.injEq] at parts
  obtain ⟨selected, told⟩ := parts
  obtain ⟨cause, first, same⟩ := Option.map_eq_some_iff.mp told.symm
  exact ⟨cause, first, Prod.ext selected same.symm⟩

/-- The answer of a directory is complete exactly where the file of every profile that it has is
missing or loads, and it is then a selection of all their records. Otherwise the first profile in
the way is told, and a selection of what is added by all comes with it. -/
theorem partial_reads_exact (files : Files) (directory : Directory) (request : Request) :
    ∃ batches, List.Forall₂ (Adds files directory request.typeName)
        (directory.supported request.profiles) batches ∧
      (∀ found, directory.fetch files request = .ok found ↔
        (∀ profile ∈ directory.supported request.profiles,
          Readable files directory request.typeName profile) ∧
        found = Record.select batches.flatten request.attrs request.conditions) ∧
      ∀ error, directory.fetch files request = .error error →
        ∃ before failing after cause,
          directory.supported request.profiles = before ++ failing :: after ∧
          (∀ profile ∈ before, Readable files directory request.typeName profile) ∧
          ¬ Readable files directory request.typeName failing ∧
          directory.records files request.typeName failing = .error cause ∧
          error.parts =
            (Record.select batches.flatten request.attrs request.conditions, cause.message) := by
  let batches := (directory.supported request.profiles).map
    (directory.brought files request.typeName)
  have records : (gathered files directory request.typeName request.profiles).records =
      batches.flatten := by
    rw [gathered_eq, List.flatMap_def]
  refine ⟨batches, ?_, fun found => ?_, fun error failed => ?_⟩
  · exact List.forall₂_map_right_iff.mpr
      (List.forall₂_same.mpr fun profile _ => adds_brought files directory _ profile)
  · rw [fetch_eq_ok_iff, failure_eq_none_iff, records]
  · obtain ⟨cause, first, parts⟩ := parts_of_fetch failed
    rw [records] at parts
    rw [gathered_eq] at first
    obtain ⟨before, failing, after, whole, earlier, unreadable, stopped⟩ :=
      exists_of_findSome?_failure? first
    exact ⟨before, failing, after, cause, whole, earlier, unreadable, stopped, parts⟩

end PathQuery.Reader.Directory
