/-
This file says where the tasks of a run stand. The address of a task lists the records that lead to
it from the root, each by its profile and its identifier. Identities are made of addresses and of
the nodes of the plan: where different components get different identities, tasks of the same
identity stand at the same address, and where no node has two links, tasks at the same address have
the same identity. There the addresses say as much as the identities do.
-/

import PathQuery.Proofs.Tasks

namespace PathQuery.Run

/-- The records on the way to a task, the last one first, each by its profile and its identifier. -/
abbrev Address := List (String × String)

/-- A task stands at an address: nothing leads to the root task, and a record leads to every other
one. -/
inductive At (plan : Plan) : Address → Task → Prop where
  | root {root : Plan.Node} : plan.root = .ok root → At plan [] (Task.ofRoot root)
  | further {address : Address} {key : String × String} {before task : Task} {record : Record}
    {link : Plan.Link} {target : Plan.Node} {value : String} : At plan address before →
    Task.Follows plan before record link target value task →
    (record.profile, record.identifier) = key → At plan (key :: address) task

/-- No node of a plan has two links. -/
def Unforked (plan : Plan) : Prop :=
  ∀ id, ∀ first ∈ plan.linksFrom id, ∀ second ∈ plan.linksFrom id, first = second

/-- What makes addresses say as much as identities. -/
structure Addressed (plan : Plan) : Prop where
  free : CollisionFree plan
  unforked : Unforked plan

variable {plan : Plan} {address other : Address} {task twin : Task}

theorem At.arises (stands : At plan address task) : Arises plan task := by
  induction stands with
  | root set => exact .root set
  | further _ follows _ inductionHypothesis => exact inductionHypothesis.of_follows follows

/-- A task without a parent item is the root task, which has an identity of its own. -/
theorem At.parent_eq_none_iff (stands : At plan address task) :
    task.parent = none ↔ task.id = Identity.root := by
  cases stands with
  | root => exact ⟨fun _ => rfl, fun _ => rfl⟩
  | further _ follows =>
    have under : task.parent ≠ none := by
      rw [follows.eq]
      exact nofun
    exact ⟨fun none => absurd none under, fun same => absurd same (id_ne_root_of_follows follows)⟩

/-- Tasks of the same identity stand at the same address. -/
theorem At.address_eq (free : CollisionFree plan) (stands : At plan address task)
    (standsToo : At plan other twin) (same : task.id = twin.id) : address = other := by
  induction stands generalizing other twin with
  | root =>
    cases standsToo with
    | root => rfl
    | further _ follows => exact absurd same.symm (id_ne_root_of_follows follows)
  | further before follows key inductionHypothesis =>
    cases standsToo with
    | root => exact absurd same (id_ne_root_of_follows follows)
    | further beforeToo followsToo keyToo =>
      have arises := before.arises
      have arisesToo := beforeToo.arises
      obtain ⟨items, -⟩ := follow_injective free arises arisesToo follows followsToo same
      obtain ⟨groups, keys⟩ :=
        item_injective free arises arisesToo follows.brought followsToo.brought items
      rw [inductionHypothesis beforeToo groups, ← key, ← keyToo, keys]

/-- Where no node has two links, tasks at the same address have the same identity. -/
theorem At.id_eq (unforked : Unforked plan) (stands : At plan address task)
    (standsToo : At plan address twin) : task.id = twin.id ∧ task.node = twin.node := by
  induction stands generalizing twin with
  | root set =>
    cases standsToo with
    | root setToo =>
      cases set.symm.trans setToo
      exact ⟨rfl, rfl⟩
  | further before follows key inductionHypothesis =>
    cases standsToo with
    | further beforeToo followsToo keyToo =>
      obtain ⟨ids, nodes⟩ := inductionHypothesis beforeToo
      obtain ⟨profiles, identifiers⟩ := Prod.mk.inj (key.trans keyToo.symm)
      obtain rfl := unforked _ _ follows.leaves _ (nodes ▸ followsToo.leaves)
      cases follows.known.symm.trans followsToo.known
      rw [follows.eq, followsToo.eq, Task.follow, Task.follow, Outcome.itemId, Outcome.itemId,
        Task.perform_task, Task.perform_task, ids, profiles, identifiers]
      exact ⟨rfl, rfl⟩

theorem At.id_eq_iff (addressed : Addressed plan) (stands : At plan address task)
    (standsToo : At plan other twin) : task.id = twin.id ↔ address = other := by
  refine ⟨stands.address_eq addressed.free standsToo, ?_⟩
  rintro rfl
  exact (stands.id_eq addressed.unforked standsToo).1

/-- A task has an item for its parent exactly where it stands next after the record of the item. -/
theorem At.parent_eq_iff (addressed : Addressed plan) (stands : At plan address task)
    {record : Record} (brought : record ∈ (task.perform plan).records)
    (standsToo : At plan other twin) :
    twin.parent = some ((task.perform plan).itemId record) ↔
      other = (record.profile, record.identifier) :: address := by
  constructor
  · intro under
    cases standsToo with
    | root => cases under
    | further before follows key =>
      rw [follows.eq] at under
      obtain ⟨groups, keys⟩ := item_injective addressed.free before.arises stands.arises
        follows.brought brought (Option.some.inj under)
      rw [before.address_eq addressed.free stands groups, ← key, keys]
  · rintro rfl
    cases standsToo with
    | further before follows key =>
      obtain ⟨profiles, identifiers⟩ := Prod.mk.inj key
      rw [follows.eq, Task.follow, Outcome.itemId, Outcome.itemId, Task.perform_task,
        Task.perform_task, (before.id_eq addressed.unforked stands).1, profiles, identifiers]

/-- The tasks under an item all have the identity of one of them. -/
theorem At.parent_eq_iff_id_eq (addressed : Addressed plan) (stands : At plan address task)
    {record : Record} (brought : record ∈ (task.perform plan).records) {below : Address}
    {child : Task} (standsBelow : At plan below child)
    (under : child.parent = some ((task.perform plan).itemId record))
    (standsToo : At plan other twin) :
    twin.parent = some ((task.perform plan).itemId record) ↔ twin.id = child.id := by
  rw [stands.parent_eq_iff addressed brought standsToo, standsToo.id_eq_iff addressed standsBelow,
    (stands.parent_eq_iff addressed brought standsBelow).mp under]

end PathQuery.Run
