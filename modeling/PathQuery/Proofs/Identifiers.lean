/-
This file says when identifiers tell the records of a memory apart. A record without an `id` is
called by its position on its shelf, and nothing keeps another record of the shelf from having this
position as its `id`. Where no two records of a shelf have the same `id`, that is the only way for
two of them to come to one identifier.
-/

import Mathlib.Data.List.Nodup
import PathQuery.Proofs.ConditionLists

namespace PathQuery

/-! ### Records that are called by their positions -/

/-- What tells a record from the others of an answer: its profile and its identifier. -/
def Record.label (record : Record) : String × String := (record.profile, record.identifier)

/-- The `id` that a record has among its properties. -/
def Record.ownId? (record : Record) : Option String := record.properties.get? identifierAttr

namespace Record

variable {records : List Record}

/-- The `id`s that records have among their properties. -/
def ownIds (records : List Record) : List String := records.filterMap ownId?

/-- Each record is called by its `id`, or else by its position. -/
def Called (records : List Record) : Prop :=
  ∀ position, ∀ inside : position < records.length,
    records[position].identifier = records[position].ownId?.getD (toString position)

/-- No record without an `id` stands at a position that is the `id` of another one. -/
def PositionsFree (records : List Record) : Prop :=
  ∀ position, ∀ inside : position < records.length,
    records[position].ownId? = none → toString position ∉ ownIds records

instance : DecidablePred PositionsFree := fun records => by
  unfold PositionsFree
  infer_instance

/-- A record that is added to others is called by the number of these, unless it has an `id`. -/
theorem Called.append_single (called : Called records) {last : Record}
    (next : last.identifier = last.ownId?.getD (toString records.length)) :
    Called (records ++ [last]) := by
  intro position inside
  rw [List.length_append, List.length_singleton] at inside
  rcases Nat.lt_or_eq_of_le (Nat.le_of_lt_succ inside) with early | rfl
  · rw [List.getElem_append_left early]
    exact called position early
  · rw [List.getElem_concat_length rfl]
    exact next

theorem mem_ownIds {id : String} :
    id ∈ ownIds records ↔ ∃ record ∈ records, record.ownId? = some id :=
  List.mem_filterMap

/-- A record that has an `id` is called by it. -/
theorem Called.of_own (called : Called records) {record : Record} (member : record ∈ records)
    {id : String} (own : record.ownId? = some id) : record.identifier = id := by
  obtain ⟨position, inside, rfl⟩ := List.getElem_of_mem member
  rw [called position inside, own, Option.getD_some]

/-- Records are told apart by their identifiers exactly where they are by their `id`s, as far as
they have one, and none is called by a position that is the `id` of another one. -/
theorem Called.identifiers_nodup_iff (called : Called records) :
    (records.map (·.identifier)).Nodup ↔ (ownIds records).Nodup ∧ PositionsFree records := by
  constructor
  · intro apart
    refine ⟨List.pairwise_filterMap.mpr ?_, fun position inside without taken => ?_⟩
    · refine (List.pairwise_map.mp apart).imp_of_mem ?_
      intro first second member alsoMember different id own other also same
      exact different ((called.of_own member own).trans
        (same.trans (called.of_own alsoMember also).symm))
    · obtain ⟨other, member, own⟩ := mem_ownIds.mp taken
      have here := called position inside
      rw [without, Option.getD_none] at here
      have same : records[position] = other := List.inj_on_of_nodup_map apart
        (List.getElem_mem inside) member (here.trans (called.of_own member own).symm)
      rw [same, own] at without
      cases without
  · rintro ⟨distinct, free⟩
    rw [List.Nodup, List.pairwise_map, List.pairwise_iff_getElem]
    intro first second inside alsoInside before same
    rw [called first inside, called second alsoInside] at same
    have apart := List.pairwise_iff_getElem.mp (List.pairwise_filterMap.mp distinct) first second
      inside alsoInside before
    cases own : records[first].ownId? with
    | some id =>
      cases also : records[second].ownId? with
      | some other =>
        rw [own, also] at same
        exact apart id own other also same
      | none =>
        rw [own, also] at same
        refine free second alsoInside also (mem_ownIds.mpr ⟨_, List.getElem_mem inside, ?_⟩)
        rw [own]
        exact congrArg some same
    | none =>
      cases also : records[second].ownId? with
      | some other =>
        rw [own, also] at same
        refine free first inside own (mem_ownIds.mpr ⟨_, List.getElem_mem alsoInside, ?_⟩)
        rw [also]
        exact congrArg some same.symm
      | none =>
        rw [own, also] at same
        exact absurd (Text.numeral_injective same) (Nat.ne_of_lt before)

end Record

namespace Reader.Memory

variable {memory : Memory} {typeName : String}

/-! ### Shelves -/

/-- A record that is stored goes to the end of its shelf, called by its `id` or else by its position
there; all other shelves are as before. -/
theorem shelf_store (memory : Memory) (profile typeName : String) (properties : Properties)
    (otherType otherProfile : String) :
    (memory.store profile typeName properties).shelf otherType otherProfile =
      if otherType = typeName ∧ otherProfile = profile then
        memory.shelf typeName profile ++ [⟨profile, (properties.get? identifierAttr).getD
          (toString (memory.shelf typeName profile).length), properties⟩]
      else memory.shelf otherType otherProfile := by
  simp only [shelf, store, List.filter_append, List.map_append]
  split
  · next same =>
    obtain ⟨rfl, rfl⟩ := same
    simp
  · next other =>
    have elsewhere : (typeName == otherType && profile == otherProfile) = false := by
      rw [Bool.eq_false_iff, Ne, Bool.and_eq_true, beq_iff_eq, beq_iff_eq]
      exact fun same => other ⟨same.1.symm, same.2.symm⟩
    simp [elsewhere]

/-- All records of a shelf are of its profile. -/
theorem profile_of_shelf {profile : String} {record : Record}
    (shelved : record ∈ memory.shelf typeName profile) : record.profile = profile := by
  obtain ⟨stored, kept, rfl⟩ := List.mem_map.mp shelved
  have both := (List.mem_filter.mp kept).2
  rw [Bool.and_eq_true, beq_iff_eq, beq_iff_eq] at both
  exact both.2

/-- The `id`s on a shelf are among those of all records of the memory. -/
theorem ownIds_of_shelf (memory : Memory) (typeName profile : String) :
    (Record.ownIds (memory.shelf typeName profile)).Sublist
      (Record.ownIds (memory.stored.map (·.record))) :=
  (List.filter_sublist.map _).filterMap _

/-- The records of every shelf are called by their `id`s, or else by their positions. -/
theorem Made.called (made : memory.Made) (typeName profile : String) :
    Record.Called (memory.shelf typeName profile) := by
  induction made with
  | empty => exact fun _ inside => absurd inside (Nat.not_lt_zero _)
  | withSchemas items links made inductionHypothesis => exact inductionHypothesis
  | failing other message made inductionHypothesis => exact inductionHypothesis
  | store other otherType properties made inductionHypothesis =>
    rw [shelf_store]
    split
    · next same =>
      obtain ⟨rfl, rfl⟩ := same
      exact inductionHypothesis.append_single rfl
    · exact inductionHypothesis

/-! ### Answers -/

/-- The records of one shelf are told apart by their identifiers alone. -/
theorem labels_of_shelf (memory : Memory) (typeName profile : String) :
    (memory.shelf typeName profile).map Record.label =
      ((memory.shelf typeName profile).map (·.identifier)).map (profile, ·) := by
  rw [List.map_map]
  refine List.map_congr_left fun record shelved => ?_
  rw [Record.label, profile_of_shelf shelved]
  rfl

/-- The records of different shelves are told apart by their profiles. -/
theorem nodup_labels_iff {profiles : List String} (once : profiles.Nodup) :
    ((profiles.flatMap (memory.shelf typeName)).map Record.label).Nodup ↔
      ∀ profile ∈ profiles, ((memory.shelf typeName profile).map (·.identifier)).Nodup := by
  have shelves : ∀ profile, ((memory.shelf typeName profile).map Record.label).Nodup ↔
      ((memory.shelf typeName profile).map (·.identifier)).Nodup := fun profile => by
    rw [labels_of_shelf, List.nodup_map_iff (Prod.mk_right_injective profile)]
  have apart : profiles.Pairwise (Function.onFun List.Disjoint
      fun profile => (memory.shelf typeName profile).map Record.label) := by
    refine once.imp fun {first second} different => ?_
    intro label member alsoMember
    simp only [labels_of_shelf] at member alsoMember
    obtain ⟨_, -, rfl⟩ := List.mem_map.mp member
    obtain ⟨_, -, same⟩ := List.mem_map.mp alsoMember
    exact different (congrArg Prod.fst same).symm
  rw [List.map_flatMap, List.nodup_flatMap, and_iff_left apart]
  exact forall₂_congr fun profile _ => shelves profile

/-- An answer has no more records of a profile and an identifier than the shelves asked for. -/
theorem fetch_labels (memory : Memory) (request : Request) :
    ((memory.reader.fetch request).parts.1.map Record.label).Sublist
      ((request.profiles.flatMap (memory.shelf request.typeName)).map Record.label) := by
  obtain ⟨origins, among, parts, -⟩ := memory.fetch_parts request
  rw [parts, List.map_map]
  exact among.map Record.label

/-- Asked for no attributes and under no conditions, a memory brings the whole shelves. -/
theorem fetch_shelves (working : memory.failures.lookup typeName = none)
    (profiles : List String) :
    (memory.reader.fetch ⟨typeName, profiles, [], []⟩).parts.1 =
      profiles.flatMap (memory.shelf typeName) := by
  simp only [reader, fetch, working, Answer.parts, Record.select]
  rw [List.filter_eq_self.mpr fun record _ => (rfl : record.meets [] = true)]
  exact List.map_id _

/-- In a memory where no two records of a profile and a type have the same `id`, the identifiers on
a shelf are distinct exactly where no record without an `id` stands at a position that another one
has as its `id`. And for a type whose requests do not fail, exactly where this is so on all shelves
asked for, each once, no answer has two records of the same profile and identifier. -/
theorem identifiers_exact (made : memory.Made)
    (distinct : ∀ typeName profile, (Record.ownIds (memory.shelf typeName profile)).Nodup) :
    (∀ typeName profile, ((memory.shelf typeName profile).map (·.identifier)).Nodup ↔
      Record.PositionsFree (memory.shelf typeName profile)) ∧
    ∀ typeName profiles, memory.failures.lookup typeName = none → profiles.Nodup →
      ((∀ attrs conditions, ((memory.reader.fetch
          ⟨typeName, profiles, attrs, conditions⟩).parts.1.map Record.label).Nodup) ↔
        ∀ profile ∈ profiles, Record.PositionsFree (memory.shelf typeName profile)) := by
  have identified : ∀ typeName profile,
      ((memory.shelf typeName profile).map (·.identifier)).Nodup ↔
        Record.PositionsFree (memory.shelf typeName profile) := fun typeName profile =>
    (made.called typeName profile).identifiers_nodup_iff.trans
      (and_iff_right (distinct typeName profile))
  refine ⟨identified, fun typeName profiles working once => ?_⟩
  have shelves := forall₂_congr fun profile (_ : profile ∈ profiles) => identified typeName profile
  rw [← shelves, ← nodup_labels_iff once]
  constructor
  · intro apart
    rw [← fetch_shelves working]
    exact apart [] []
  · exact fun apart attrs conditions => apart.sublist (fetch_labels memory _)

/-- Records with and without an `id` under two profiles, none at a position that is an `id`. -/
def mixedHosts : Memory :=
  ((((Memory.empty "mem" ["dev", "ops"]).store "dev" "host" [("id", "h")]).store
    "dev" "host" [("zone", "a")]).store "dev" "host" [("id", "0")]).store "ops" "host" [("id", "1")]

/-- The second host of one profile is called by its position, which is the `id` of a host of another
profile and yet of none of its own: the answer for both has four different hosts. -/
theorem identifiers_exact_mixedHosts :
    mixedHosts.Made ∧
    ((mixedHosts.reader.fetch ⟨"host", ["dev", "ops"], [], []⟩).parts.1.map Record.label) =
      [("dev", "h"), ("dev", "1"), ("dev", "0"), ("ops", "1")] ∧
    ∀ attrs conditions, ((mixedHosts.reader.fetch
      ⟨"host", ["dev", "ops"], attrs, conditions⟩).parts.1.map Record.label).Nodup := by
  have made : mixedHosts.Made := .store _ _ _ (.store _ _ _ (.store _ _ _ (.store _ _ _
    (.empty _ _))))
  have distinct : ∀ typeName profile,
      (Record.ownIds (mixedHosts.shelf typeName profile)).Nodup := fun typeName profile =>
    List.Nodup.sublist (mixedHosts.ownIds_of_shelf typeName profile) (by decide)
  refine ⟨made, by decide, ?_⟩
  exact ((identifiers_exact made distinct).2 "host" ["dev", "ops"] rfl (by decide)).mpr (by decide)

/-- A host without an `id` after a host whose `id` is 1. -/
def overlappingHosts : Memory :=
  ((Memory.empty "mem" ["dev"]).store "dev" "host" [("id", "1")]).store "dev" "host" [("zone", "a")]

/-- No two hosts have the same `id`, and yet both are called 1, and one answer has them both. -/
theorem overlappingHosts_share_identifier :
    overlappingHosts.Made ∧
    (∀ typeName profile, (Record.ownIds (overlappingHosts.shelf typeName profile)).Nodup) ∧
    ¬ ((overlappingHosts.shelf "host" "dev").map (·.identifier)).Nodup ∧
    (overlappingHosts.reader.fetch ⟨"host", ["dev"], [], []⟩).parts.1.map Record.label =
      [("dev", "1"), ("dev", "1")] := by
  refine ⟨.store _ _ _ (.store _ _ _ (.empty _ _)), fun typeName profile => ?_, by decide,
    by decide⟩
  exact List.Nodup.sublist (overlappingHosts.ownIds_of_shelf typeName profile) (by decide)

end Reader.Memory

end PathQuery
