/-
This file says which readers stay within the profiles that they advertise. A plan reads every node
under the profiles of all readers, so a profile belongs to a reader only as far as no other one
answers under it. A directory skips the profiles that are not its own, also where reading some of
them fails. A memory brings whatever was stored under a profile that it is asked for, so it stays
within its own exactly where nothing was stored under another one.
-/

import PathQuery.Proofs.ConditionLists
import PathQuery.Proofs.Profiles

namespace PathQuery.Reader

/-- All records of an answer, also those that come with a failure, carry profiles that were asked
for and that the reader advertises. -/
def StaysWithin (reader : Reader) (request : Request) : Prop :=
  ∀ record ∈ (reader.fetch request).parts.1,
    record.profile ∈ request.profiles ∧ record.profile ∈ reader.profiles

/-! ### Directories -/

/-- A directory answers with records of those profiles that it was asked for and has. -/
theorem Directory.staysWithin (files : Files) (directory : Directory) (request : Request) :
    (directory.reader files).StaysWithin request := by
  intro record brought
  rw [fetch_parts files directory request.typeName request.profiles request.attrs
    request.conditions] at brought
  obtain ⟨origin, kept, rfl⟩ := List.mem_map.mp brought
  have gathered := (List.mem_filter.mp kept).1
  rw [gathered_eq] at gathered
  obtain ⟨profile, among, added⟩ := List.mem_flatMap.mp gathered
  obtain ⟨asked, own⟩ := List.mem_filter.mp among
  obtain ⟨records, read, member⟩ := mem_brought added
  obtain rfl := profile_of_records read member
  exact ⟨asked, List.contains_iff_mem.mp own⟩

/-! ### Memories -/

namespace Memory

variable {memory : Memory} {request : Request}

/-- A request brings a record that is stored: requests for its type do not fail, its profile is
asked for, and it meets the conditions. -/
structure Reaches (memory : Memory) (request : Request) (stored : Stored) : Prop where
  held : stored ∈ memory.stored
  answered : memory.failures.lookup request.typeName = none
  typeName : stored.typeName = request.typeName
  asked : stored.record.profile ∈ request.profiles
  met : stored.record.meets request.conditions = true

theorem mem_shelves {profiles : List String} {typeName : String} {record : Record} :
    record ∈ profiles.flatMap (memory.shelf typeName) ↔ ∃ stored ∈ memory.stored,
      stored.typeName = typeName ∧ stored.record.profile ∈ profiles ∧ stored.record = record := by
  simp only [List.mem_flatMap, shelf, List.mem_map, List.mem_filter, Bool.and_eq_true, beq_iff_eq]
  constructor
  · rintro ⟨profile, asked, stored, ⟨held, kind, rfl⟩, same⟩
    exact ⟨stored, held, kind, asked, same⟩
  · rintro ⟨stored, held, kind, asked, same⟩
    exact ⟨stored.record.profile, asked, stored, ⟨held, kind, rfl⟩, same⟩

/-- A memory answers with the records that a request reaches, narrowed to the attributes. -/
theorem mem_brought_iff {record : Record} :
    record ∈ (memory.reader.fetch request).parts.1 ↔
      ∃ stored, memory.Reaches request stored ∧ stored.record.project request.attrs = record := by
  simp only [reader, fetch]
  cases answered : memory.failures.lookup request.typeName with
  | some message =>
    refine iff_of_false List.not_mem_nil ?_
    rintro ⟨stored, reaches, -⟩
    cases answered.symm.trans reaches.answered
  | none =>
    simp only [Answer.parts, Record.select, List.mem_map, List.mem_filter, mem_shelves]
    constructor
    · rintro ⟨_, ⟨⟨stored, held, kind, asked, rfl⟩, met⟩, same⟩
      exact ⟨stored, ⟨held, answered, kind, asked, met⟩, same⟩
    · rintro ⟨stored, reaches, same⟩
      exact ⟨stored.record, ⟨⟨stored, reaches.held, reaches.typeName, reaches.asked, rfl⟩,
        reaches.met⟩, same⟩

/-- Every record that a memory answers with carries a profile that was asked for. -/
theorem asked_of_brought {record : Record}
    (brought : record ∈ (memory.reader.fetch request).parts.1) :
    record.profile ∈ request.profiles := by
  obtain ⟨stored, reaches, rfl⟩ := mem_brought_iff.mp brought
  exact reaches.asked

/-- A memory stays within its profiles exactly where a request reaches no record of another one. -/
theorem staysWithin_iff : memory.reader.StaysWithin request ↔
    ∀ stored, memory.Reaches request stored → stored.record.profile ∈ memory.profiles := by
  constructor
  · intro within stored reaches
    exact (within _ (mem_brought_iff.mpr ⟨stored, reaches, rfl⟩)).2
  · intro own record brought
    refine ⟨asked_of_brought brought, ?_⟩
    obtain ⟨stored, reaches, rfl⟩ := mem_brought_iff.mp brought
    exact own stored reaches

/-- Every record of a type whose requests do not fail is reached by some request. -/
theorem exists_reaches {stored : Stored} (held : stored ∈ memory.stored)
    (answered : memory.failures.lookup stored.typeName = none) :
    ∃ request, memory.Reaches request stored :=
  ⟨⟨stored.typeName, [stored.record.profile], [], []⟩, held, answered, rfl,
    List.mem_singleton_self _, rfl⟩

end Memory

/-! ### Both -/

/-- A directory stays within its profiles, whatever it is asked for. A memory stays within those
asked for; it stays within its own for a request exactly where this reaches no record of another
profile, and for all requests exactly where all records that can be asked for are stored under its
own. -/
theorem owned_profiles_exact (files : Files) (directory : Directory) (memory : Memory)
    (request : Request) :
    (directory.reader files).StaysWithin request ∧
    (∀ record ∈ (memory.reader.fetch request).parts.1, record.profile ∈ request.profiles) ∧
    (memory.reader.StaysWithin request ↔
      ∀ stored, memory.Reaches request stored → stored.record.profile ∈ memory.profiles) ∧
    ((∀ request, memory.reader.StaysWithin request) ↔
      ∀ stored ∈ memory.stored, memory.failures.lookup stored.typeName = none →
        stored.record.profile ∈ memory.profiles) := by
  refine ⟨directory.staysWithin files request, fun record => Memory.asked_of_brought,
    Memory.staysWithin_iff, ?_⟩
  simp only [Memory.staysWithin_iff]
  constructor
  · intro own stored held answered
    obtain ⟨request, reaches⟩ := Memory.exists_reaches held answered
    exact own request stored reaches
  · intro own request stored reaches
    exact own stored reaches.held (reaches.typeName ▸ reaches.answered)

/-- A memory of one profile with a host under another one. -/
def strayHost : Memory :=
  ((Memory.empty "mem" ["dev"]).store "dev" "host" [("id", "1")]).store "ops" "host" [("id", "2")]

/-- A query that reads under the profiles of all readers finds the stray host with the reader that
does not advertise its profile. -/
theorem strayHost_answers :
    strayHost.Made ∧
    Plan.offered [strayHost.reader, (Memory.empty "other" ["ops"]).reader] = .ok ["dev", "ops"] ∧
    (strayHost.reader.fetch ⟨"host", ["dev", "ops"], [], []⟩).parts.1 =
      [⟨"dev", "1", [("id", "1")]⟩, ⟨"ops", "2", [("id", "2")]⟩] ∧
    "ops" ∉ strayHost.reader.profiles ∧
    ¬ strayHost.reader.StaysWithin ⟨"host", ["dev", "ops"], [], []⟩ := by
  have brought : (strayHost.reader.fetch ⟨"host", ["dev", "ops"], [], []⟩).parts.1 =
      [⟨"dev", "1", [("id", "1")]⟩, ⟨"ops", "2", [("id", "2")]⟩] := by decide
  have foreign : "ops" ∉ strayHost.reader.profiles := by decide
  refine ⟨.store _ _ _ (.store _ _ _ (.empty _ _)), by decide, brought, foreign, fun within => ?_⟩
  have second := within ⟨"ops", "2", [("id", "2")]⟩ (brought ▸ by decide)
  exact foreign second.2

end PathQuery.Reader
