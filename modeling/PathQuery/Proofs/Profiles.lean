/-
This file proves that a query stays within the profiles that it selects. Every node of its plan is
read under these profiles, for types between two items as for the items themselves, and readers with
stored records answer with records of the profiles that they are asked for. So no record of another
profile is found, and no task starts from one.
-/

import PathQuery.Proofs.Histories
import PathQuery.Proofs.Joins
import PathQuery.Proofs.Plannable
import PathQuery.Proofs.Stores

namespace PathQuery

/-! ### The profiles that a query selects -/

/-- A choice of profiles lets a profile in: by name, or as one that readers advertise where no names
are given. -/
def ProfileChoice.Admits (choice : ProfileChoice) (readers : List Reader) (profile : String) :
    Prop :=
  match choice with
  | .all | .only [] => profile ∈ Plan.advertised readers
  | .only (first :: rest) => profile ∈ first :: rest

namespace Plan

theorem admits_of_selected {choice : ProfileChoice} {readers : List Reader}
    {offer profiles : List String} (given : offered readers = .ok offer)
    (chosen : selected choice offer = .ok profiles) {profile : String}
    (member : profile ∈ profiles) : choice.Admits readers profile := by
  have advertises : profile ∈ offer → profile ∈ advertised readers := by
    rcases offered_outcome readers with ⟨-, held, accepted, same⟩ | ⟨_, -, -, refused⟩
    · cases given.symm.trans accepted
      exact (same profile).mp
    · cases given.symm.trans refused
  cases choice with
  | all =>
    cases chosen
    exact advertises member
  | only names =>
    cases names with
    | nil =>
      cases chosen
      exact advertises member
    | cons first rest =>
      rw [selected] at chosen
      · split at chosen
        · cases chosen
        · cases chosen
          exact List.mem_eraseDups.mp member
      · intro none
        cases none

end Plan

/-! ### The profiles of stored records -/

namespace Reader

namespace Directory

/-- The records in the file of a profile belong to this profile. -/
theorem profile_of_records {files : Files} {directory : Directory} {typeName profile : String}
    {records : List Record} (read : directory.records files typeName profile = .ok records)
    {record : Record} (member : record ∈ records) : record.profile = profile := by
  obtain ⟨members, identifier, -, rfl⟩ := (records_eq_ok_iff.mp read).makes member
  rfl

end Directory

theorem Holds.profile {reader : Reader} {typeName profile : String} {record : Record}
    (holds : reader.Holds typeName profile record) : record.profile = profile := by
  cases holds with
  | memory shelved =>
    obtain ⟨stored, kept, rfl⟩ := List.mem_map.mp shelved
    have both := (List.mem_filter.mp kept).2
    exact beq_iff_eq.mp (Bool.and_eq_true_iff.mp both).2
  | directory _ read member => exact Directory.profile_of_records read member

end Reader

namespace Run

variable {query : Query} {topology : Topology} {readers : List Reader} {plan : Plan}

/-- A record at a node is one that the reader of the node holds under a profile that a choice lets
in, narrowed to what the plan asks for. -/
structure Confined (choice : ProfileChoice) (readers : List Reader) (plan : Plan)
    (node : Plan.Node) (record : Record) : Prop where
  admitted : choice.Admits readers record.profile
  held : ∃ origin, node.spec.reader.Holds node.spec.kind.name record.profile origin ∧
    record = origin.project (plan.fetchAttrs node.id)

/-- Every record that a task of a compiled plan brings is confined to the profiles of the query. -/
theorem confined_of_brought (compiled : Plan.compile query topology readers = .ok plan)
    (stores : ∀ reader ∈ readers, reader.IsStore) {task : Task} {node : Plan.Node}
    (found : plan.node? task.node = some node) {record : Record}
    (brought : record ∈ (task.perform plan).records) :
    Confined query.profiles readers plan node record := by
  obtain ⟨offer, profiles, given, chosen, bound⟩ := Plan.bound_of_compile compiled
  obtain ⟨member, -⟩ := Plan.node?_some found
  obtain ⟨read, -⟩ := bound node member
  obtain ⟨held, failure, holds, answers⟩ :=
    (stores _ (Plan.reader_mem_of_compile compiled member)).answers node.spec.kind.name
      node.spec.profiles
  rw [Task.perform_of_node found, Task.request, answers] at brought
  obtain ⟨origin, kept, rfl⟩ := List.mem_map.mp brought
  obtain ⟨profile, asked, holdsIt⟩ := holds origin (List.mem_filter.mp kept).1
  obtain rfl := holdsIt.profile
  exact ⟨Plan.admits_of_selected given chosen (read ▸ asked), origin, holdsIt, rfl⟩

/-- A task starts as that of the root, or it follows a link from a record that is confined. -/
inductive StartsConfined (choice : ProfileChoice) (readers : List Reader) (plan : Plan) :
    Task → Prop where
  | root {root : Plan.Node} : plan.root = .ok root →
    StartsConfined choice readers plan (Task.ofRoot root)
  | follows {before task : Task} {node target : Plan.Node} {record : Record} {link : Plan.Link}
    {value : String} : plan.node? before.node = some node →
    Confined choice readers plan node record →
    Task.Follows plan before record link target value task →
    StartsConfined choice readers plan task

theorem Arises.startsConfined (compiled : Plan.compile query topology readers = .ok plan)
    (stores : ∀ reader ∈ readers, reader.IsStore) {task : Task} (arises : Arises plan task) :
    StartsConfined query.profiles readers plan task := by
  cases arises with
  | root set => exact .root set
  | further arises spawned =>
    obtain ⟨node, found, -⟩ := arises.node
    obtain ⟨record, link, target, value, follows⟩ := arises.follows spawned
    exact .follows found (confined_of_brought compiled stores found follows.brought) follows

/-- Whatever the order of a run, at every point of it all items that are recorded are records of
profiles that the query selects, held by the reader of their node under these profiles, and all
tasks, recorded or outstanding, start from such records. -/
theorem stays_within_profiles (compiled : Plan.compile query topology readers = .ok plan)
    (stores : ∀ reader ∈ readers, reader.IsStore) {root : Plan.Node}
    (set : plan.root = .ok root) {state : State}
    (reached : State.Steps plan (.start root) state) :
    (∀ group ∈ state.result.groups.values,
      (∃ node, plan.node? group.node = some node ∧
        ∀ item ∈ group.items, Confined query.profiles readers plan node item.record) ∧
      ∃ task, StartsConfined query.profiles readers plan task ∧ group = task.group plan) ∧
    ∀ task ∈ state.outstanding, StartsConfined query.profiles readers plan task := by
  obtain ⟨done, history, recorded⟩ := history_of_steps reached .start rfl
  have arise := history.arise set
  refine ⟨fun group member => ?_, fun task member =>
    (arise task (List.mem_append_left _ member)).startsConfined compiled stores⟩
  rw [recorded] at member
  obtain ⟨task, performed, rfl⟩ := List.mem_map.mp (Result.mem_of_mem_values member)
  have arises := arise task (List.mem_append_right _ performed)
  obtain ⟨node, found, -⟩ := arises.node
  refine ⟨⟨node, by rwa [Task.group_node], fun item listed => ?_⟩,
    task, arises.startsConfined compiled stores, rfl⟩
  rw [Task.group_items] at listed
  obtain ⟨record, brought, rfl⟩ := List.mem_map.mp listed
  exact confined_of_brought compiled stores found brought

/-! ### Two profiles -/

/-- A memory with a record of each type under each of two profiles; all of them could be joined. -/
def twoProfiles : Reader.Memory :=
  ((((Reader.Memory.empty "r1" ["dev", "ops"]).store "dev" "t1" [("id", "1"), ("a", "x")]).store
    "ops" "t1" [("id", "2"), ("a", "x")]).store "dev" "t2" [("id", "3"), ("b", "x")]).store
    "ops" "t2" [("id", "4"), ("b", "x")]

/-- A query that reads under one of them. -/
def narrow : Query where
  profiles := .only ["dev"]
  root := ⟨.qualified "r1" "t1", []⟩
  sequence := [(.short, ⟨.bare "t2", []⟩)]

def narrowRoot : Plan.Node :=
  ⟨"ROOT", ⟨⟨"r1", "t1"⟩, ["dev"], [], [], twoProfiles.reader⟩⟩

def narrowPlan : Plan where
  nodes := [narrowRoot, ⟨"n-1", ⟨⟨"r1", "t2"⟩, ["dev"], [], [], twoProfiles.reader⟩⟩]
  links := [⟨"ROOT", "n-1", ⟨"a", "b"⟩⟩]

theorem narrow_compiles :
    Plan.compile narrow twoTypes [twoProfiles.reader] = .ok narrowPlan := by
  cbv

/-- Once the root has found a record, all items that are recorded are of the profile that is
selected, and the one task that is outstanding starts from such a record. -/
theorem stays_within_profiles_narrow :
    ∃ state, State.Steps narrowPlan (.start narrowRoot) state ∧
      (∃ group ∈ state.result.groups.values, group.items.length = 1) ∧
      (∀ group ∈ state.result.groups.values, ∀ item ∈ group.items, item.record.profile = "dev") ∧
      ∃ task, state.outstanding = [task] ∧
        StartsConfined narrow.profiles [twoProfiles.reader] narrowPlan task := by
  have stores : ∀ reader ∈ [twoProfiles.reader], reader.IsStore := fun reader member => by
    rw [List.mem_singleton.mp member]
    exact .memory twoProfiles
  have step : State.Step narrowPlan (.start narrowRoot)
      ⟨(Task.ofRoot narrowRoot).further narrowPlan,
        Result.ofGroups [(Task.ofRoot narrowRoot).group narrowPlan]⟩ :=
    .done [] [] (Task.ofRoot narrowRoot) .empty
  have reached := State.Steps.more step (.none _)
  obtain ⟨recorded, outstanding⟩ := stays_within_profiles narrow_compiles stores rfl reached
  refine ⟨_, reached, ⟨_, Result.last_mem_values [] _, rfl⟩, fun group member item listed => ?_,
    _, rfl, outstanding _ List.mem_cons_self⟩
  obtain ⟨⟨node, -, confined⟩, -⟩ := recorded group member
  exact List.mem_singleton.mp (confined item listed).admitted

end Run

end PathQuery
