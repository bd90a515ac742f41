/-
This file says what the files of a directory bring. A file loads where it is a text that holds an
array of objects with an `id` each; every object then makes a record. The records of a profile can
be read exactly where the file for them is missing or loads.
-/

import PathQuery.Proofs.Rows
import PathQuery.Reader.Directory

namespace PathQuery.Reader.Directory

variable {files : Files} {directory : Directory} {typeName profile : String}

/-! ### Files that load -/

/-- The members of an object with an `id` make a record: their values as texts. -/
def Makes (profile : String) (members : List (String × Json.Value)) (record : Record) : Prop :=
  ∃ identifier, members.lookup identifierAttr = some identifier ∧
    record = ⟨profile, identifier.attrText, members.map fun (name, value) => (name, value.attrText)⟩

/-- A file is a text that holds an array of objects. -/
def HoldsRows (files : Files) (path : String) (rows : List (List (String × Json.Value))) : Prop :=
  ∃ content, files.readText path = .ok content ∧
    Json.document Json.value content = .ok (.array (rows.map .object))

/-- A file loads: it is a text that holds an array of objects, and all of them have an `id`. -/
def Loads (files : Files) (path : String) : Prop :=
  ∃ rows, HoldsRows files path rows ∧ ∀ row ∈ rows, (row.lookup identifierAttr).isSome = true

/-- The file of a profile is missing or loads. -/
def Readable (files : Files) (directory : Directory) (typeName profile : String) : Prop :=
  files.contains (directory.dataPath profile typeName) = false ∨
    Loads files (directory.dataPath profile typeName)

/-- The records of a profile: none where there is no file for them, and one for each object in a
file. -/
inductive Brings (files : Files) (directory : Directory) (typeName profile : String) :
    List Record → Prop
  | absent : files.contains (directory.dataPath profile typeName) = false →
    Brings files directory typeName profile []
  | loaded {rows : List (List (String × Json.Value))} {records : List Record} :
    HoldsRows files (directory.dataPath profile typeName) rows →
    List.Forall₂ (Makes profile) rows records → Brings files directory typeName profile records

/-! ### Reading a file -/

/-- A row is read to the record that it makes. -/
theorem recordOf_eq_ok_iff {index : Nat} {row : Dict Json.Value} {record : Record} :
    recordOf profile index row = .ok record ↔ Makes profile row.entries record := by
  have held : Properties.get? (row.entries.map fun (name, value) => (name, value.attrText))
      identifierAttr = (row.entries.lookup identifierAttr).map Json.Value.attrText :=
    Dict.lookup_map Json.Value.attrText row.entries identifierAttr
  rw [recordOf, Makes]
  dsimp only
  rw [held]
  cases row.entries.lookup identifierAttr with
  | none =>
    constructor
    · intro none
      cases none
    · rintro ⟨_, none, -⟩
      cases none
  | some identifier =>
    constructor
    · intro same
      cases same
      exact ⟨identifier, rfl, rfl⟩
    · rintro ⟨_, same, rfl⟩
      cases same
      rfl

/-- Rows are read to the records that they make. -/
theorem mapM_recordOf_eq_ok_iff {rows : List (Dict Json.Value)} {records : List Record}
    (start : Nat) :
    (rows.zipIdx start).mapM (fun (row, index) => recordOf profile index row) = .ok records ↔
      List.Forall₂ (Makes profile) (rows.map Dict.entries) records := by
  have each : ∀ entry : Dict Json.Value × Nat, ∀ record : Record,
      (match entry with | (row, index) => recordOf profile index row) = .ok record ↔
        Makes profile entry.1.entries record := fun _ _ => recordOf_eq_ok_iff
  simp only [mapM_eq_ok_iff, each]
  rw [List.forall₂_map_left_iff]
  conv_rhs => rw [← List.zipIdx_map_fst start rows, List.forall₂_map_left_iff]

theorem recordsOf_eq_ok_iff {content : String} {records : List Record} :
    recordsOf profile content = .ok records ↔ ∃ rows,
      Json.document Json.value content = .ok (.array (rows.map .object)) ∧
        List.Forall₂ (Makes profile) rows records := by
  rw [recordsOf]
  constructor
  · intro read
    split at read
    · cases read
    · next dicts held =>
      exact ⟨_, Json.document_rows_iff.mp ⟨dicts, rfl, held⟩, (mapM_recordOf_eq_ok_iff 0).mp read⟩
  · rintro ⟨rows, held, made⟩
    obtain ⟨dicts, rfl, narrower⟩ := Json.document_rows_iff.mpr held
    rw [narrower]
    exact (mapM_recordOf_eq_ok_iff 0).mpr made

/-- What can be read is there. -/
theorem contains_of_readText {path content : String} (read : files.readText path = .ok content) :
    files.contains path = true := by
  obtain ⟨tree, found, -⟩ := bind_eq_ok.mp read
  rw [Files.contains, found]
  rfl

/-- The records of a profile are read exactly where it brings them. -/
theorem records_eq_ok_iff {records : List Record} :
    directory.records files typeName profile = .ok records ↔
      Brings files directory typeName profile records := by
  rw [Directory.records]
  constructor
  · intro read
    split at read
    · next missing =>
      cases read
      exact .absent (by simpa using missing)
    · split at read
      · cases read
      · next content found =>
        split at read
        · cases read
        · next made =>
          cases read
          obtain ⟨rows, held, made⟩ := recordsOf_eq_ok_iff.mp made
          exact .loaded ⟨content, found, held⟩ made
  · intro brings
    cases brings with
    | absent missing => rw [missing]; rfl
    | loaded held made =>
      obtain ⟨content, found, held⟩ := held
      rw [contains_of_readText found, found]
      simp only [recordsOf_eq_ok_iff.mpr ⟨_, held, made⟩]
      rfl

/-- The records that a profile brings are made of objects. -/
theorem Brings.makes {records : List Record}
    (brings : Brings files directory typeName profile records) {record : Record}
    (member : record ∈ records) : ∃ members, Makes profile members record := by
  cases brings with
  | absent missing => exact absurd member List.not_mem_nil
  | loaded held made =>
    obtain ⟨row, -, made⟩ := exists_of_forall₂_of_mem made member
    exact ⟨row, made⟩

/-- A profile brings records exactly where its file is missing or loads. -/
theorem exists_brings_iff : (∃ records, Brings files directory typeName profile records) ↔
    Readable files directory typeName profile := by
  have makes : ∀ row, (∃ record, Makes profile row record) ↔
      (row.lookup identifierAttr).isSome = true := by
    intro row
    rw [Option.isSome_iff_exists]
    constructor
    · rintro ⟨_, identifier, held, -⟩
      exact ⟨identifier, held⟩
    · rintro ⟨identifier, held⟩
      exact ⟨_, identifier, held, rfl⟩
  constructor
  · rintro ⟨records, missing | ⟨held, made⟩⟩
    · exact .inl missing
    · exact .inr ⟨_, held, fun row given =>
        (makes row).mp (exists_forall₂_iff.mp ⟨records, made⟩ row given)⟩
  · rintro (missing | ⟨rows, held, named⟩)
    · exact ⟨[], .absent missing⟩
    · obtain ⟨records, made⟩ := exists_forall₂_iff.mpr fun row given =>
        (makes row).mpr (named row given)
      exact ⟨records, .loaded held made⟩

end PathQuery.Reader.Directory
