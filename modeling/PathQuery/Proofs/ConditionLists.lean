/-
This file says what a list of conditions means for a record, whichever way its values are gathered:
the value of every attribute that equality conditions name is one that they ask for, and no value is
one that an inequality condition rules out. So neither the order of the conditions nor repetitions
among them matter. Records that readers answer with have their identifiers as the values of `id`,
also where they are narrowed to other attributes.
-/

import PathQuery.Proofs.Joins
import PathQuery.Proofs.Profiles

namespace PathQuery

/-! ### The meaning of conditions -/

/-- For every equality condition there is one on the same attribute, with the value that the record
has; and no inequality condition has the value that the record has. -/
structure Record.Satisfies (record : Record) (conditions : List Condition) : Prop where
  equal : ∀ condition ∈ conditions, condition.comparison = .equal →
    ∃ other ∈ conditions, other.comparison = .equal ∧ other.attr = condition.attr ∧
      record.value? condition.attr = some other.value
  unequal : ∀ condition ∈ conditions, condition.comparison = .unequal →
    record.value? condition.attr ≠ some condition.value

/-- A record meets exactly the conditions that it satisfies. -/
theorem Record.meets_iff_satisfies {record : Record} {conditions : List Condition} :
    record.meets conditions = true ↔ record.Satisfies conditions := by
  rw [meets_iff]
  constructor
  · intro admits
    refine ⟨?_, ?_⟩
    · rintro ⟨attr, _, value⟩ member rfl
      obtain ⟨other, held, asked⟩ := (admits attr).1 ⟨value, member⟩
      exact ⟨_, asked, rfl, rfl, held⟩
    · rintro ⟨attr, _, value⟩ member rfl
      exact (admits attr).2 value member
  · intro satisfies attr
    refine ⟨?_, fun value member => satisfies.unequal _ member rfl⟩
    rintro ⟨value, member⟩
    obtain ⟨⟨_, _, other⟩, asked, rfl, rfl, held⟩ := satisfies.equal _ member rfl
    exact ⟨other, held, asked⟩

/-- Lists of the same conditions are satisfied by the same records. -/
theorem Record.satisfies_congr {record : Record} {conditions others : List Condition}
    (same : ∀ condition, condition ∈ conditions ↔ condition ∈ others) :
    record.Satisfies conditions ↔ record.Satisfies others := by
  constructor
  · rintro ⟨equal, unequal⟩
    simp only [same] at equal unequal
    exact ⟨equal, unequal⟩
  · rintro ⟨equal, unequal⟩
    simp only [← same] at equal unequal
    exact ⟨equal, unequal⟩

/-! ### Values in two buckets -/

/-- The values that conditions ask for and those that they rule out, under their attributes. -/
structure Buckets where
  asked : Dict (List String)
  ruledOut : Dict (List String)

namespace Buckets

/-- Puts a value under an attribute, after those that are there. -/
def push (attr value : String) (bucket : Dict (List String)) : Dict (List String) :=
  bucket.insert attr ((bucket.get? attr).getD [] ++ [value])

/-- Puts the value of a condition into the bucket of its comparison. -/
def add (buckets : Buckets) (condition : Condition) : Buckets :=
  match condition.comparison with
  | .equal => { buckets with asked := push condition.attr condition.value buckets.asked }
  | .unequal => { buckets with ruledOut := push condition.attr condition.value buckets.ruledOut }

/-- The buckets of a list of conditions. -/
def ofConditions (conditions : List Condition) : Buckets :=
  conditions.foldl add ⟨.empty, .empty⟩

/-- Whether a record has a value asked for under every attribute in the first bucket, and under none
in the second one a value that is ruled out. -/
def pass (buckets : Buckets) (record : Record) : Bool :=
  (buckets.asked.entries.all fun entry => (record.value? entry.1).any entry.2.contains) &&
    buckets.ruledOut.entries.all fun entry =>
      (record.value? entry.1).all fun value => !entry.2.contains value

/-- Values, unless there are none. -/
def someValues : List String → Option (List String)
  | [] => none
  | first :: rest => some (first :: rest)

theorem someValues_eq_some_iff {values others : List String} :
    someValues values = some others ↔ values = others ∧ values ≠ [] := by
  cases values with
  | nil => exact iff_of_false nofun fun both => both.2 rfl
  | cons first rest =>
    rw [someValues, Option.some.injEq, and_iff_left (List.cons_ne_nil first rest)]

theorem get?_push (bucket : Dict (List String)) (attr value other : String)
    {values : String → List String}
    (held : ∀ attr, bucket.get? attr = someValues (values attr)) :
    (push attr value bucket).get? other =
      someValues (if other = attr then values other ++ [value] else values other) := by
  rw [push, Dict.get?_insert]
  split
  · next same =>
    subst same
    rw [held]
    cases values other <;> rfl
  · exact held other

/-- The buckets hold what the conditions demand of each attribute. -/
theorem get?_ofConditions (conditions : List Condition) (attr : String) :
    (ofConditions conditions).asked.get? attr =
        someValues (Demand.on conditions attr).accepted ∧
      (ofConditions conditions).ruledOut.get? attr =
        someValues (Demand.on conditions attr).rejected := by
  induction conditions using List.reverseRecOn generalizing attr with
  | nil => exact ⟨rfl, rfl⟩
  | append_singleton conditions last inductionHypothesis =>
    rw [ofConditions, List.foldl_append, List.foldl_cons, List.foldl_nil, ← ofConditions]
    have asked := fun attr => (inductionHypothesis attr).1
    have ruledOut := fun attr => (inductionHypothesis attr).2
    obtain ⟨named, comparison, value⟩ := last
    cases comparison with
    | equal =>
      refine ⟨(get?_push _ named value attr asked).trans ?_, (ruledOut attr).trans ?_⟩
      all_goals
        rw [Demand.on_append_single]
        by_cases same : attr = named
        · simp [same, Demand.merge, Demand.ofCondition]
        · simp [same]
    | unequal =>
      refine ⟨(asked attr).trans ?_, (get?_push _ named value attr ruledOut).trans ?_⟩
      all_goals
        rw [Demand.on_append_single]
        by_cases same : attr = named
        · simp [same, Demand.merge, Demand.ofCondition]
        · simp [same]

/-- A record passes the buckets of the conditions that it satisfies. -/
theorem pass_iff_satisfies {record : Record} {conditions : List Condition} :
    (ofConditions conditions).pass record = true ↔ record.Satisfies conditions := by
  have asked : ∀ attr values, (attr, values) ∈ (ofConditions conditions).asked.entries ↔
      (Demand.on conditions attr).accepted = values ∧
        (Demand.on conditions attr).accepted ≠ [] := by
    intro attr values
    rw [← Dict.get?_eq_some_iff, (get?_ofConditions conditions attr).1, someValues_eq_some_iff]
  have ruledOut : ∀ attr values, (attr, values) ∈ (ofConditions conditions).ruledOut.entries ↔
      (Demand.on conditions attr).rejected = values ∧
        (Demand.on conditions attr).rejected ≠ [] := by
    intro attr values
    rw [← Dict.get?_eq_some_iff, (get?_ofConditions conditions attr).2, someValues_eq_some_iff]
  rw [pass, Bool.and_eq_true, List.all_eq_true, List.all_eq_true]
  constructor
  · rintro ⟨meetsAsked, meetsRuledOut⟩
    constructor
    · rintro ⟨attr, _, value⟩ member rfl
      have listed := Demand.mem_accepted.mpr member
      have met := meetsAsked (attr, _) ((asked attr _).mpr ⟨rfl, List.ne_nil_of_mem listed⟩)
      rw [Option.any_eq_true] at met
      obtain ⟨other, held, among⟩ := met
      exact ⟨_, Demand.mem_accepted.mp (List.contains_iff_mem.mp among), rfl, rfl, held⟩
    · rintro ⟨attr, _, value⟩ member rfl held
      have listed := Demand.mem_rejected.mpr member
      have met := meetsRuledOut (attr, _)
        ((ruledOut attr _).mpr ⟨rfl, List.ne_nil_of_mem listed⟩)
      rw [held] at met
      rw [Option.all_some, Bool.not_eq_true', List.contains_eq_mem, decide_eq_false_iff_not] at met
      exact met listed
  · intro satisfies
    constructor
    · rintro ⟨attr, values⟩ entry
      obtain ⟨rfl, some⟩ := (asked attr values).mp entry
      obtain ⟨value, listed⟩ := List.exists_mem_of_ne_nil _ some
      obtain ⟨⟨_, _, other⟩, member, rfl, rfl, held⟩ :=
        satisfies.equal _ (Demand.mem_accepted.mp listed) rfl
      rw [Option.any_eq_true]
      exact ⟨other, held, List.contains_iff_mem.mpr (Demand.mem_accepted.mpr member)⟩
    · rintro ⟨attr, values⟩ entry
      obtain ⟨rfl, -⟩ := (ruledOut attr values).mp entry
      rw [Option.all_eq_true]
      intro value held
      rw [Bool.not_eq_true', List.contains_eq_mem, decide_eq_false_iff_not]
      exact fun listed => satisfies.unequal _ (Demand.mem_rejected.mp listed) rfl held

end Buckets

/-! ### The value of `id` -/

/-- The value of `id` is the identifier. -/
def Record.IsNamed (record : Record) : Prop :=
  record.value? identifierAttr = some record.identifier

/-- A record is named where a property called `id`, if there is one, is the identifier. -/
theorem Record.isNamed_of_get? {record : Record}
    (own : ∀ value, record.properties.get? identifierAttr = some value →
      value = record.identifier) : record.IsNamed := by
  rw [IsNamed, value?]
  cases held : record.properties.get? identifierAttr with
  | some value => exact congrArg some (own value held)
  | none => exact if_pos rfl

/-- A record stays named where it is narrowed, be `id` kept or not. -/
theorem Record.IsNamed.project {record : Record} (named : record.IsNamed) (attrs : List String) :
    (record.project attrs).IsNamed := by
  by_cases kept : attrs = [] ∨ identifierAttr ∈ attrs
  · exact (value?_project kept).trans named
  · rw [not_or] at kept
    refine isNamed_of_get? fun value held => ?_
    have narrowed : (record.properties.project attrs).get? identifierAttr = some value := held
    rw [Properties.project, if_neg fun all => kept.1 (List.isEmpty_iff.mp all),
      Properties.get?_ofPairs, if_neg kept.2] at narrowed
    cases narrowed

namespace Reader

/-- Memories that are made by giving an empty one schema documents, records and failures. -/
inductive Memory.Made : Memory → Prop where
  | empty (space : String) (profiles : List String) : Made (.empty space profiles)
  | withSchemas {memory : Memory} (items links : String) : Made memory →
    Made (memory.withSchemas items links)
  | store {memory : Memory} (profile typeName : String) (properties : Properties) : Made memory →
    Made (memory.store profile typeName properties)
  | failing {memory : Memory} (typeName message : String) : Made memory →
    Made (memory.failing typeName message)

/-- All records that are stored in a memory are named. -/
theorem Memory.Made.isNamed {memory : Memory} (made : memory.Made) :
    ∀ stored ∈ memory.stored, stored.record.IsNamed := by
  induction made with
  | empty => exact nofun
  | withSchemas items links made inductionHypothesis => exact inductionHypothesis
  | failing typeName message made inductionHypothesis => exact inductionHypothesis
  | store profile typeName properties made inductionHypothesis =>
    intro stored member
    rcases List.mem_append.mp member with old | new
    · exact inductionHypothesis stored old
    · rw [List.mem_singleton.mp new]
      refine Record.isNamed_of_get? fun value held => ?_
      have given : properties.get? identifierAttr = some value := held
      exact (congrArg (Option.getD · _) given).symm

/-- A record that is made of an object is named. -/
theorem Directory.Makes.isNamed {profile : String} {members : List (String × Json.Value)}
    {record : Record} (makes : Makes profile members record) : record.IsNamed := by
  obtain ⟨identifier, held, rfl⟩ := makes
  refine Record.isNamed_of_get? fun value same => ?_
  have mapped := Dict.lookup_map Json.Value.attrText members identifierAttr
  rw [held] at mapped
  exact Option.some.inj (same.symm.trans mapped)

/-- What a memory answers with is named. -/
theorem Memory.Made.isNamed_of_brought {memory : Memory} (made : memory.Made) {request : Request}
    {record : Record} (brought : record ∈ (memory.reader.fetch request).parts.1) :
    record.IsNamed := by
  obtain ⟨origins, shelved, parts, -⟩ := memory.fetch_parts request
  rw [parts] at brought
  obtain ⟨origin, member, rfl⟩ := List.mem_map.mp brought
  obtain ⟨profile, -, onShelf⟩ := List.mem_flatMap.mp (shelved.subset member)
  obtain ⟨stored, kept, rfl⟩ := List.mem_map.mp onShelf
  exact (made.isNamed stored (List.mem_filter.mp kept).1).project _

/-- What a directory answers with is named, also where reading some of it fails. -/
theorem Directory.isNamed_of_brought {files : Files} {directory : Directory} {request : Request}
    {record : Record} (brought : record ∈ ((directory.reader files).fetch request).parts.1) :
    record.IsNamed := by
  rw [fetch_parts files directory request.typeName request.profiles request.attrs
    request.conditions] at brought
  obtain ⟨origin, kept, rfl⟩ := List.mem_map.mp brought
  have gathered := (List.mem_filter.mp kept).1
  rw [gathered_eq] at gathered
  obtain ⟨profile, -, brought⟩ := List.mem_flatMap.mp gathered
  obtain ⟨records, read, member⟩ := mem_brought brought
  obtain ⟨members, makes⟩ := (records_eq_ok_iff.mp read).makes member
  exact makes.isNamed.project _

end Reader

/-- A record meets a list of conditions exactly where, for every equality condition, one on the same
attribute has the value of the record, and no inequality condition has it; the value of an attribute
is the property of that name, or else the identifier for `id`. Two buckets of values tell the same.
Lists of the same conditions are met by the same records, in any order and with any repetitions. And
the value of `id` is the identifier for every record that a memory or a directory answers with,
narrowed or not. -/
theorem meets_exactly :
    (∀ record : Record, ∀ conditions,
      (record.meets conditions = true ↔ record.Satisfies conditions) ∧
      (Buckets.ofConditions conditions).pass record = record.meets conditions) ∧
    (∀ record : Record, ∀ attr value, record.value? attr = some value ↔
      record.properties.get? attr = some value ∨
        record.properties.get? attr = none ∧ attr = "id" ∧ value = record.identifier) ∧
    (∀ record : Record, ∀ conditions others,
      (∀ condition, condition ∈ conditions ↔ condition ∈ others) →
      record.meets conditions = record.meets others) ∧
    (∀ memory : Reader.Memory, memory.Made → ∀ request,
      ∀ record ∈ (memory.reader.fetch request).parts.1,
        record.value? "id" = some record.identifier) ∧
    ∀ files, ∀ directory : Reader.Directory, ∀ request,
      ∀ record ∈ ((directory.reader files).fetch request).parts.1,
        record.value? "id" = some record.identifier := by
  refine ⟨fun record conditions => ⟨Record.meets_iff_satisfies, ?_⟩, ?_, ?_,
    fun memory made request record => made.isNamed_of_brought,
    fun files directory request record => Reader.Directory.isNamed_of_brought⟩
  · rw [Bool.eq_iff_iff, Buckets.pass_iff_satisfies, Record.meets_iff_satisfies]
  · intro record attr value
    rw [Record.value?]
    cases record.properties.get? attr with
    | some held => simp
    | none =>
      dsimp only [identifierAttr]
      by_cases called : attr = "id"
      · simp [called, eq_comm]
      · simp [called]
  · intro record conditions others same
    rw [Bool.eq_iff_iff, Record.meets_iff_satisfies, Record.meets_iff_satisfies,
      Record.satisfies_congr same]

/-- A memory with a record that has no `id`. -/
def unnamedHost : Reader.Memory :=
  (Reader.Memory.empty "mem" ["dev"]).store "dev" "host" [("zone", "a"), ("state", "up")]

/-- Asked for one of two zones, in either order, the record is found and narrowed to its zone; the
value of its `id` is its position. -/
theorem meets_exactly_unnamedHost :
    (∀ conditions ∈ [[.equals "zone" "b", ⟨"id", .unequal, "1"⟩, .equals "zone" "a"],
        [.equals "zone" "a", .equals "zone" "a", .equals "zone" "b", ⟨"id", .unequal, "1"⟩]],
      (unnamedHost.reader.fetch ⟨"host", ["dev"], ["zone"], conditions⟩).parts.1 =
        [⟨"dev", "0", [("zone", "a")]⟩] ∧
      ∀ record : Record, record.meets conditions = record.meets
        [.equals "zone" "b", ⟨"id", .unequal, "1"⟩, .equals "zone" "a"]) ∧
    (⟨"dev", "0", [("zone", "a")]⟩ : Record).value? "id" = some "0" := by
  obtain ⟨-, -, congr, memories, -⟩ := meets_exactly
  have made : unnamedHost.Made := .store _ _ _ (.empty _ _)
  refine ⟨fun conditions member => ⟨?_, fun record => congr record _ _ fun condition => ?_⟩, ?_⟩
  · rcases List.mem_cons.mp member with rfl | member
    · decide
    · obtain rfl := List.mem_singleton.mp member
      decide
  · rcases List.mem_cons.mp member with rfl | member
    · rfl
    · obtain rfl := List.mem_singleton.mp member
      simp only [List.mem_cons, List.not_mem_nil, or_false]
      tauto
  · exact memories unnamedHost made ⟨"host", ["dev"], ["zone"], []⟩ _ (by decide)

end PathQuery
