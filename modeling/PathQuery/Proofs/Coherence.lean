/-
This file says when the indexes of a result describe its groups although groups have been recorded
again. A group takes the place of the one before it under its identity, but wherever that one was
noted it stays noted. So the indexes are right exactly where a group that is recorded again keeps
its parent, and where no group takes the place of the last one with an item without having it too.
-/

import PathQuery.Proofs.Indexes

namespace PathQuery.Result

variable {groups : List Group}

/-! ### What is held of groups that are recorded again -/

/-- The last element of a list that passes a test is one after which no other passes. -/
theorem findRev?_eq_some_iff {α : Type} {test : α → Bool} {list : List α} {last : α} :
    list.findRev? test = some last ↔ test last = true ∧
      ∃ before after, list = before ++ last :: after ∧ ∀ later ∈ after, test later = false := by
  rw [List.findRev?_eq_find?_reverse, List.find?_eq_some_iff_append]
  refine and_congr_right fun _ => ?_
  constructor
  · rintro ⟨after, before, split, none⟩
    refine ⟨before.reverse, after.reverse, ?_, fun later member => ?_⟩
    · rw [← List.reverse_reverse list, split, List.reverse_append, List.reverse_cons,
        List.append_assoc, List.singleton_append]
    · simpa using none later (List.mem_reverse.mp member)
  · rintro ⟨before, after, rfl, none⟩
    refine ⟨after.reverse, before.reverse, ?_, fun later member => ?_⟩
    · rw [List.reverse_append, List.reverse_cons, List.append_assoc, List.singleton_append]
    · simpa using none later (List.mem_reverse.mp member)

/-- The group under an identity is the last one that was recorded under it. -/
theorem group?_eq_findRev? (groups : List Group) (id : String) :
    (ofGroups groups).group? id = groups.findRev? (·.id == id) := by
  rw [List.findRev?_eq_find?_reverse]
  induction groups using List.reverseRecOn with
  | nil => rfl
  | append_singleton groups last inductionHypothesis =>
    rw [ofGroups_append_single, List.reverse_append, List.reverse_singleton,
      List.singleton_append, List.find?_cons, ← inductionHypothesis]
    show ((ofGroups groups).groups.insert last.id last).get? id = _
    rw [Dict.get?_insert]
    by_cases here : id = last.id
    · rw [if_pos here, beq_iff_eq.mpr here.symm]
    · rw [if_neg here, beq_eq_false_iff_ne.mpr (Ne.symm here)]
      rfl

/-- The group that is noted of an item is the last one that was recorded with it. -/
theorem owner_eq_findRev? (groups : List Group) (item : String) :
    (ofGroups groups).owners.get? item =
      (groups.findRev? fun group => decide (item ∈ group.itemIds)).map (·.id) := by
  rw [List.findRev?_eq_find?_reverse]
  induction groups using List.reverseRecOn with
  | nil => rfl
  | append_singleton groups last inductionHypothesis =>
    rw [ofGroups_append_single, get?_owners_record, List.reverse_append, List.reverse_singleton,
      List.singleton_append, List.find?_cons, inductionHypothesis]
    by_cases here : item ∈ last.itemIds
    · rw [if_pos here, decide_eq_true here]
      rfl
    · rw [if_neg here, decide_eq_false here]

theorem group?_eq_some_iff {id : String} {held : Group} :
    (ofGroups groups).group? id = some held ↔ held.id = id ∧
      ∃ before after, groups = before ++ held :: after ∧ ∀ later ∈ after, later.id ≠ id := by
  rw [group?_eq_findRev?, findRev?_eq_some_iff, beq_iff_eq]
  simp only [beq_eq_false_iff_ne]

theorem owner_eq_some_iff {item owner : String} :
    (ofGroups groups).owners.get? item = some owner ↔ ∃ last, last.id = owner ∧
      item ∈ last.itemIds ∧ ∃ before after, groups = before ++ last :: after ∧
        ∀ later ∈ after, item ∉ later.itemIds := by
  rw [owner_eq_findRev?, Option.map_eq_some_iff]
  simp only [findRev?_eq_some_iff, decide_eq_true_eq, decide_eq_false_iff_not]
  exact exists_congr fun last => and_comm

/-- Under the identity of a group that was recorded there is a group. -/
theorem exists_held {group : Group} (given : group ∈ groups) :
    ∃ held, (ofGroups groups).group? group.id = some held := by
  rw [← Option.isSome_iff_exists, group?_eq_findRev?, List.findRev?_eq_find?_reverse,
    List.find?_isSome]
  exact ⟨group, List.mem_reverse.mpr given, beq_self_eq_true _⟩

theorem mem_values_iff {held : Group} :
    held ∈ (ofGroups groups).groups.values ↔ (ofGroups groups).group? held.id = some held := by
  refine ⟨fun member => ?_, mem_values_of_group?⟩
  obtain ⟨⟨id, other⟩, entry, rfl⟩ := List.mem_map.mp member
  have found := Dict.get?_eq_some_iff.mpr entry
  rwa [← (group?_some found).2] at found

/-- The groups of a result are in the order of their identities. -/
theorem values_ascending (groups : List Group) :
    (ofGroups groups).groups.values.Pairwise fun first second => first.id < second.id := by
  refine List.pairwise_map.mpr ((ofGroups groups).groups.ascending.imp_of_mem ?_)
  intro first second member alsoMember less
  rwa [(group?_some (Dict.get?_eq_some_iff.mpr member)).2,
    (group?_some (Dict.get?_eq_some_iff.mpr alsoMember)).2]

/-! ### Listings -/

/-- A listing by names gives the groups that are held under them. -/
theorem filterMap_group?_eq_filter (groups : List Group) (names : NameSet) :
    names.keys.filterMap (ofGroups groups).group? =
      (ofGroups groups).groups.values.filter fun held => decide (held.id ∈ names.keys) := by
  have listed := filterMap_group?_ascending groups names
  have kept := (values_ascending groups).filter fun held => decide (held.id ∈ names.keys)
  have once : ∀ {list : List Group}, (list.Pairwise fun first second => first.id < second.id) →
      list.Nodup := by
    intro list ascending
    refine ascending.imp fun {first second} less same => ?_
    exact String.lt_irrefl second.id (same ▸ less)
  refine List.Perm.eq_of_pairwise (fun first second _ _ less more => ?_) listed kept
    ((List.perm_ext_iff_of_nodup (once listed) (once kept)).mpr fun held => ?_)
  · exact absurd (String.lt_trans less more) (String.lt_irrefl first.id)
  · rw [List.mem_filterMap, List.mem_filter, mem_values_iff, decide_eq_true_iff]
    constructor
    · rintro ⟨id, named, found⟩
      obtain rfl := (group?_some found).2
      exact ⟨found, named⟩
    · rintro ⟨found, named⟩
      exact ⟨held.id, named, found⟩

/-- Groups are listed by the identities of all that were recorded and of interest. The listing has
exactly the groups of interest that are held where none that was has been replaced by one that is
not. -/
theorem listing_eq_filter_iff {names : NameSet} {wanted : Group → Prop} [DecidablePred wanted]
    (named : ∀ id, id ∈ names.keys ↔ ∃ group ∈ groups, group.id = id ∧ wanted group) :
    names.keys.filterMap (ofGroups groups).group? =
        (ofGroups groups).groups.values.filter (fun held => decide (wanted held)) ↔
      ∀ group ∈ groups, wanted group →
        ∀ held, (ofGroups groups).group? group.id = some held → wanted held := by
  rw [filterMap_group?_eq_filter]
  constructor
  · intro same group given interests held found
    have own := (group?_some found).2
    have listed : held ∈ (ofGroups groups).groups.values.filter
        fun held => decide (held.id ∈ names.keys) :=
      List.mem_filter.mpr ⟨mem_values_of_group? found,
        decide_eq_true ((named held.id).mpr ⟨group, given, own.symm, interests⟩)⟩
    rw [same, List.mem_filter, decide_eq_true_iff] at listed
    exact listed.2
  · intro kept
    refine List.filter_congr fun held member => decide_eq_decide.mpr ((named held.id).trans ?_)
    constructor
    · rintro ⟨group, given, same, interests⟩
      exact kept group given interests held (same ▸ mem_values_iff.mp member)
    · intro interests
      exact ⟨held, mem_of_mem_values member, rfl, interests⟩

/-- The root groups are those without a parent exactly where no root has been recorded again under a
parent. -/
theorem rootGroups_eq_filter_iff :
    (ofGroups groups).rootGroups =
        (ofGroups groups).groups.values.filter (fun held => decide (held.parent = none)) ↔
      ∀ group ∈ groups, group.parent = none →
        ∀ held, (ofGroups groups).group? group.id = some held → held.parent = none :=
  listing_eq_filter_iff fun _ => mem_roots_ofGroups

/-- The groups under an item are those with this parent exactly where none of them has been recorded
again without it. -/
theorem childGroups_eq_filter_iff {item : String} :
    (ofGroups groups).childGroups item =
        (ofGroups groups).groups.values.filter (fun held => decide (held.parent = some item)) ↔
      ∀ group ∈ groups, group.parent = some item →
        ∀ held, (ofGroups groups).group? group.id = some held → held.parent = some item :=
  listing_eq_filter_iff fun _ => mem_children_ofGroups

/-! ### Items -/

theorem item?_isSome_iff (result : Result) (item : String) :
    (result.item? item).isSome = true ↔ ∃ owner, result.owners.get? item = some owner ∧
      ∃ held, result.group? owner = some held ∧ item ∈ held.itemIds := by
  have among : ∀ held : Group,
      (held.items.find? (·.id == item)).isSome = true ↔ item ∈ held.itemIds := fun held => by
    rw [List.find?_isSome, Group.itemIds, List.mem_map]
    simp only [beq_iff_eq]
  simp only [item?, Option.bind_eq_bind, Option.isSome_bind, Option.any_eq_true, among]

/-- Every item that was ever recorded is still an item of the group that is noted of it. -/
def ItemsKept (result : Result) : Prop :=
  ∀ item owner, result.owners.get? item = some owner →
    ∃ held, result.group? owner = some held ∧ item ∈ held.itemIds

/-- The items that are held are among those that were ever recorded. -/
theorem mem_owners_of_held {item : String}
    (holds : item ∈ (ofGroups groups).groups.values.flatMap Group.itemIds) :
    item ∈ (ofGroups groups).owners.keys := by
  obtain ⟨held, member, among⟩ := List.mem_flatMap.mp holds
  exact mem_owners_ofGroups.mpr (List.mem_flatMap.mpr ⟨held, mem_of_mem_values member, among⟩)

/-- The items are found where they are held, and are counted as many, exactly where none is lost. -/
theorem items_and_count_iff :
    ((∀ item, ((ofGroups groups).item? item).isSome = true ↔
        ∃ held ∈ (ofGroups groups).groups.values, item ∈ held.itemIds) ∧
      (ofGroups groups).itemCount =
        ((ofGroups groups).groups.values.flatMap Group.itemIds).toFinset.card) ↔
      (ofGroups groups).ItemsKept := by
  constructor
  · rintro ⟨present, counted⟩ item owner noted
    -- Held items are recorded items, and as many, so none that was recorded is missing.
    have all : (ofGroups groups).owners.keys.toFinset =
        ((ofGroups groups).groups.values.flatMap Group.itemIds).toFinset := by
      refine (Finset.eq_of_subset_of_card_le (fun name holds => ?_) ?_).symm
      · exact List.mem_toFinset.mpr (mem_owners_of_held (List.mem_toFinset.mp holds))
      · rw [← counted]
        exact le_of_eq (Dict.size_eq_card fun _ => Iff.rfl).symm
    have holds : item ∈ (ofGroups groups).groups.values.flatMap Group.itemIds := by
      rw [← List.mem_toFinset, ← all, List.mem_toFinset]
      exact Dict.mem_keys.mpr ⟨owner, noted⟩
    obtain ⟨other, alsoNoted, kept⟩ := (item?_isSome_iff _ item).mp
      ((present item).mpr (List.mem_flatMap.mp holds))
    cases noted.symm.trans alsoNoted
    exact kept
  · intro kept
    have held_of_noted : ∀ item, item ∈ (ofGroups groups).owners.keys ↔
        item ∈ (ofGroups groups).groups.values.flatMap Group.itemIds := fun item => by
      refine ⟨fun noted => ?_, mem_owners_of_held⟩
      obtain ⟨owner, noted⟩ := Dict.mem_keys.mp noted
      obtain ⟨held, found, among⟩ := kept item owner noted
      exact List.mem_flatMap.mpr ⟨held, mem_values_of_group? found, among⟩
    refine ⟨fun item => ?_, Dict.size_eq_card held_of_noted⟩
    rw [← List.mem_flatMap, ← held_of_noted, item?_isSome_iff, Dict.mem_keys]
    exact exists_congr fun owner => and_iff_left_of_imp (kept item owner)

/-! ### Coherence -/

/-- The indexes of a result describe the groups that it holds. -/
structure Coherent (result : Result) : Prop where
  /-- The root groups are those without a parent. -/
  roots : result.rootGroups =
    result.groups.values.filter fun held => decide (held.parent = none)
  /-- The groups under an item are those with this parent. -/
  children : ∀ item, result.childGroups item =
    result.groups.values.filter fun held => decide (held.parent = some item)
  /-- An item is found exactly where a group has it. -/
  items : ∀ item, (result.item? item).isSome = true ↔
    ∃ held ∈ result.groups.values, item ∈ held.itemIds
  /-- The items are counted by their identities. -/
  count : result.itemCount = (result.groups.values.flatMap Group.itemIds).toFinset.card

/-- Groups are recorded again only where the indexes can follow. -/
structure Steady (groups : List Group) : Prop where
  /-- Groups under one identity have one parent. -/
  parents : ∀ first ∈ groups, ∀ second ∈ groups, first.id = second.id →
    first.parent = second.parent
  /-- No later group takes the place of the last one with an item. -/
  items : ∀ before last after, groups = before ++ last :: after → ∀ item ∈ last.itemIds,
    (∀ later ∈ after, item ∉ later.itemIds) → ∀ later ∈ after, later.id ≠ last.id

/-- The listings are right exactly where groups under one identity have one parent. -/
theorem listings_iff :
    ((ofGroups groups).rootGroups =
        (ofGroups groups).groups.values.filter (fun held => decide (held.parent = none)) ∧
      ∀ item, (ofGroups groups).childGroups item = (ofGroups groups).groups.values.filter
        fun held => decide (held.parent = some item)) ↔
      ∀ first ∈ groups, ∀ second ∈ groups, first.id = second.id →
        first.parent = second.parent := by
  rw [rootGroups_eq_filter_iff, forall_congr' fun item => childGroups_eq_filter_iff]
  constructor
  · rintro ⟨roots, children⟩
    have kept : ∀ group ∈ groups, ∀ held,
        (ofGroups groups).group? group.id = some held → held.parent = group.parent := by
      intro group given held found
      cases parent : group.parent with
      | none => exact roots group given parent held found
      | some item => exact children item group given parent held found
    intro first given second alsoGiven same
    obtain ⟨held, found⟩ := exists_held given
    exact (kept first given held found).symm.trans (kept second alsoGiven held (same ▸ found))
  · intro one
    have kept : ∀ group ∈ groups, ∀ held,
        (ofGroups groups).group? group.id = some held → held.parent = group.parent :=
      fun group given held found => one held (group?_some found).1 group given (group?_some found).2
    exact ⟨fun group given parent held found => (kept group given held found).trans parent,
      fun item group given parent held found => (kept group given held found).trans parent⟩

/-- No item is lost exactly where no later group takes the place of the last one with it. -/
theorem itemsKept_iff :
    (ofGroups groups).ItemsKept ↔
      ∀ before last after, groups = before ++ last :: after → ∀ item ∈ last.itemIds,
        (∀ later ∈ after, item ∉ later.itemIds) → ∀ later ∈ after, later.id ≠ last.id := by
  constructor
  · intro kept before last after split item among without later member taken
    obtain ⟨held, found, holds⟩ := kept item last.id
      (owner_eq_some_iff.mpr ⟨last, rfl, among, before, after, split, without⟩)
    -- The group that is held comes after the last one with the item, or at its place.
    rw [group?_eq_findRev?, split, List.findRev?_eq_find?_reverse, List.reverse_append,
      List.reverse_cons, List.append_assoc, List.find?_append] at found
    have again : (after.reverse.find? (·.id == last.id)).isSome = true :=
      List.find?_isSome.mpr ⟨later, List.mem_reverse.mpr member, beq_iff_eq.mpr taken⟩
    obtain ⟨other, newest⟩ := Option.isSome_iff_exists.mp again
    rw [newest, Option.some_or] at found
    cases found
    exact without held (List.mem_reverse.mp (List.mem_of_find?_eq_some newest)) holds
  · intro stays item owner noted
    obtain ⟨last, rfl, among, before, after, split, without⟩ := owner_eq_some_iff.mp noted
    exact ⟨last, group?_eq_some_iff.mpr ⟨rfl, before, after, split,
      stays before last after split item among without⟩, among⟩

/-- Whatever groups are recorded, under whatever identities again, the indexes describe the groups
that are held exactly where groups under one identity have one parent and where no later group takes
the place of the last one with an item. -/
theorem coherent_iff_steady (groups : List Group) :
    (ofGroups groups).Coherent ↔ Steady groups := by
  constructor
  · rintro ⟨roots, children, items, count⟩
    exact ⟨listings_iff.mp ⟨roots, children⟩,
      itemsKept_iff.mp (items_and_count_iff.mp ⟨items, count⟩)⟩
  · rintro ⟨parents, items⟩
    obtain ⟨roots, children⟩ := listings_iff.mpr parents
    obtain ⟨present, count⟩ := items_and_count_iff.mpr (itemsKept_iff.mpr items)
    exact ⟨roots, children, present, count⟩

/-- A group that is recorded three times: as a root with items, and without any under each of two
items. One of its items is an item of the other group, too. -/
def movingGroup : List Group :=
  [sampleGroup "ROOT" ["i1", "i2"] none, sampleGroup "g" ["i1", "i3"] none,
    sampleGroup "g" [] (some "i1"), sampleGroup "g" [] (some "i2")]

/-- The group is held under the second item only, and yet it is listed as a root and under the first
item; the item that both groups had is not found, and one that no group has is counted. -/
theorem movingGroup_incoherent :
    (ofGroups movingGroup).groups.values.map (fun held => (held.id, held.parent)) =
      [("ROOT", none), ("g", some "i2")] ∧
    (ofGroups movingGroup).rootGroups.map (·.id) = ["ROOT", "g"] ∧
    ((ofGroups movingGroup).childGroups "i1").map (·.id) = ["g"] ∧
    (ofGroups movingGroup).groups.values.flatMap Group.itemIds = ["i1", "i2"] ∧
    (ofGroups movingGroup).item? "i1" = none ∧
    (ofGroups movingGroup).itemCount = 3 ∧
    ¬ (ofGroups movingGroup).Coherent := by
  have counted : (ofGroups movingGroup).itemCount = 3 := by decide
  have holds : (ofGroups movingGroup).groups.values.flatMap Group.itemIds = ["i1", "i2"] := by
    decide
  refine ⟨by decide, by decide, by decide, holds, by decide, counted, fun coherent => ?_⟩
  have count := coherent.count
  rw [counted, holds] at count
  cases count

end PathQuery.Result
