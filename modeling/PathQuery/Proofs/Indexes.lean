/-
This file says what a result answers after groups have been recorded that share neither their
identity nor an item. In whatever order they come, parents before their children or after them,
the result is the same one: it finds every group and every item, lists the groups of each parent
in the order of identities, and counts groups and items.
-/

import Mathlib.Data.Finset.Card
import PathQuery.Proofs.Recording

namespace PathQuery

/-- A dictionary has as many entries as there are different names among those that it holds. -/
theorem Dict.size_eq_card {α : Type} {dict : Dict α} {names : List String}
    (held : ∀ name, name ∈ dict.keys ↔ name ∈ names) : dict.size = names.toFinset.card := by
  have same : dict.keys.toFinset = names.toFinset := by
    ext name
    rw [List.mem_toFinset, List.mem_toFinset, held]
  rw [← same, List.toFinset_card_of_nodup dict.keys_nodup, keys, List.length_map]
  rfl

namespace Result

/-! ### Items and their groups -/

/-- The identities of the items of a group. -/
def Group.itemIds (group : Group) : List String := group.items.map (·.id)

/-- After a group is recorded it is noted of its items; of any other item it is as before. -/
theorem get?_owners_record (result : Result) (group : Group) (item : String) :
    (result.record group).owners.get? item =
      if item ∈ group.itemIds then some group.id else result.owners.get? item :=
  get?_noteOwners result.owners group item

/-- The items of which a group is noted are those of the recorded groups. -/
theorem mem_owners_ofGroups {groups : List Group} {item : String} :
    item ∈ (ofGroups groups).owners.keys ↔ item ∈ groups.flatMap Group.itemIds := by
  induction groups using List.reverseRecOn with
  | nil => rfl
  | append_singleton groups last inductionHypothesis =>
    rw [ofGroups_append_single, List.flatMap_append, List.mem_append, ← inductionHypothesis,
      List.flatMap_singleton, Dict.mem_keys, Dict.mem_keys, get?_owners_record]
    by_cases here : item ∈ last.itemIds
    · rw [if_pos here]
      exact iff_of_true ⟨last.id, rfl⟩ (.inr here)
    · rw [if_neg here, or_iff_left here]

/-- The group that is noted of an item was recorded, and has the item. -/
theorem group_of_owner {groups : List Group} {item owner : String}
    (noted : (ofGroups groups).owners.get? item = some owner) :
    ∃ group ∈ groups, group.id = owner ∧ item ∈ group.itemIds := by
  induction groups using List.reverseRecOn with
  | nil => cases noted
  | append_singleton groups last inductionHypothesis =>
    rw [ofGroups_append_single, get?_owners_record] at noted
    by_cases here : item ∈ last.itemIds
    · rw [if_pos here] at noted
      exact ⟨last, List.mem_append_right _ (List.mem_singleton_self _), Option.some.inj noted, here⟩
    · rw [if_neg here] at noted
      obtain ⟨group, given, own, holds⟩ := inductionHypothesis noted
      exact ⟨group, List.mem_append_left _ given, own, holds⟩

instance : DecidableRel Group.Apart := fun first second =>
  decidable_of_iff (first.id ≠ second.id ∧
    ∀ one ∈ first.items, ∀ other ∈ second.items, one.id ≠ other.id)
    ⟨fun both => ⟨both.1, both.2⟩, fun apart => ⟨apart.ids, apart.items⟩⟩

/-- Groups that are apart have no item in common. -/
theorem eq_of_common_item {groups : List Group} (apart : groups.Pairwise Group.Apart)
    {first second : Group} (given : first ∈ groups) (alsoGiven : second ∈ groups) {item : String}
    (holds : item ∈ first.itemIds) (alsoHolds : item ∈ second.itemIds) : first = second := by
  by_contra different
  obtain ⟨one, member, same⟩ := List.mem_map.mp holds
  obtain ⟨other, alsoMember, alsoSame⟩ := List.mem_map.mp alsoHolds
  exact (apart.forall given alsoGiven different).items one member other alsoMember
    (same.trans alsoSame.symm)

/-- Among groups that are apart, the group that is noted of an item is the one that has it. -/
theorem owner_of_mem {groups : List Group} (apart : groups.Pairwise Group.Apart) {group : Group}
    (given : group ∈ groups) {item : String} (holds : item ∈ group.itemIds) :
    (ofGroups groups).owners.get? item = some group.id := by
  obtain ⟨owner, noted⟩ := Dict.mem_keys.mp
    (mem_owners_ofGroups.mpr (List.mem_flatMap.mpr ⟨group, given, holds⟩))
  obtain ⟨other, alsoGiven, rfl, alsoHolds⟩ := group_of_owner noted
  rw [noted, eq_of_common_item apart given alsoGiven holds alsoHolds]

theorem nodup_ids_of_apart {groups : List Group} (apart : groups.Pairwise Group.Apart) :
    (groups.map (·.id)).Nodup :=
  List.pairwise_map.mpr (apart.imp fun apart => apart.ids)

/-- Among groups that are apart, an item is found in the group that has it. -/
theorem item?_ofGroups {groups : List Group} (apart : groups.Pairwise Group.Apart) {id : String}
    {item : Item} : (ofGroups groups).item? id = some item ↔
      ∃ group ∈ groups, group.items.find? (·.id == id) = some item := by
  have found_iff : ∀ {id group}, (ofGroups groups).group? id = some group ↔
      group ∈ groups ∧ group.id = id := group?_ofGroups (nodup_ids_of_apart apart)
  simp only [item?, Option.bind_eq_bind, Option.bind_eq_some_iff]
  constructor
  · rintro ⟨owner, -, group, held, found⟩
    exact ⟨group, (found_iff.mp held).1, found⟩
  · rintro ⟨group, given, found⟩
    have own : item.id = id := beq_iff_eq.mp (List.find?_some found :)
    have holds : id ∈ group.itemIds :=
      List.mem_map.mpr ⟨item, List.mem_of_find?_eq_some found, own⟩
    exact ⟨group.id, owner_of_mem apart given holds, group, found_iff.mpr ⟨given, rfl⟩, found⟩

/-- The items of a result are counted by their identities. -/
theorem itemCount_ofGroups (groups : List Group) :
    (ofGroups groups).itemCount = (groups.flatMap Group.itemIds).toFinset.card :=
  Dict.size_eq_card fun _ => mem_owners_ofGroups

/-! ### All answers after recording -/

/-- Groups that are apart can be recorded in any order with the same result. It finds each of them
under its identity and nothing else, and an item exactly where some group has one with the identity,
the first such item of this group. The root groups and the groups under an item are the groups with
this parent, each once, in ascending order of identities. The groups are counted, and the items by
their identities. -/
theorem indexes_exact {groups order : List Group} (apart : groups.Pairwise Group.Apart)
    (reordered : order.Perm groups) :
    ofGroups order = ofGroups groups ∧
    (∀ id group, (ofGroups order).group? id = some group ↔ group ∈ groups ∧ group.id = id) ∧
    (∀ id item, (ofGroups order).item? id = some item ↔
      ∃ group ∈ groups, group.items.find? (·.id == id) = some item) ∧
    ((ofGroups order).rootGroups.Perm (groups.filter (·.parent = none)) ∧
      (ofGroups order).rootGroups.Pairwise fun first second => first.id < second.id) ∧
    (∀ item,
      ((ofGroups order).childGroups item).Perm (groups.filter (·.parent = some item)) ∧
      ((ofGroups order).childGroups item).Pairwise fun first second => first.id < second.id) ∧
    (ofGroups order).size = groups.length ∧
    (ofGroups order).itemCount = (groups.flatMap Group.itemIds).toFinset.card := by
  have distinct := nodup_ids_of_apart apart
  have same : ofGroups order = ofGroups groups := (ofGroups_perm reordered.symm apart).symm
  rw [same]
  exact ⟨rfl, fun _ _ => group?_ofGroups distinct, fun _ _ => item?_ofGroups apart,
    rootGroups_ofGroups distinct, childGroups_ofGroups distinct, size_ofGroups distinct,
    itemCount_ofGroups groups⟩

/-- A group of some items, under an item or none. -/
def sampleGroup (id : String) (items : List String) (parent : Option String) : Group where
  id := id
  node := "n"
  kind := ⟨"r1", "t1"⟩
  items := items.map fun item => ⟨item, id, ⟨"dev", item, []⟩, none, []⟩
  link := []
  linkError := none
  fetchError := none
  parent := parent

/-- A root group with two items, and two groups under one of them. One of these has two items of the
same identity. -/
def sampleFamily : List Group :=
  [sampleGroup "ROOT" ["i1", "i2"] none, sampleGroup "g2" ["i3", "i3"] (some "i1"),
    sampleGroup "g1" [] (some "i1")]

/-- The groups under an item are recorded before the item is, and yet they are found under it, in
the order of their identities, and three items are counted. -/
theorem indexes_exact_childrenFirst :
    sampleFamily.Pairwise Group.Apart ∧ sampleFamily.reverse.Perm sampleFamily ∧
    ofGroups sampleFamily.reverse = ofGroups sampleFamily ∧
    ((ofGroups sampleFamily.reverse).childGroups "i1").map (·.id) = ["g1", "g2"] ∧
    ((ofGroups sampleFamily.reverse).item? "i3").map (·.group) = some "g2" ∧
    (ofGroups sampleFamily.reverse).itemCount = 3 := by
  have apart : sampleFamily.Pairwise Group.Apart := by decide
  obtain ⟨same, -, -, -, -, -, counted⟩ := indexes_exact apart (List.reverse_perm sampleFamily)
  exact ⟨apart, List.reverse_perm _, same, by decide, by decide, counted.trans (by decide)⟩

end Result

end PathQuery
