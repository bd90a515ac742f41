/-
This file says what a result knows after groups have been recorded. Groups of different
identities without a common item can be recorded in either order, so any order of such groups
gives the same result. Where identities are distinct, the root groups and the groups under an
item are exactly the recorded groups of that parent, in the order of their identities.
-/

import Mathlib.Data.List.Induction
import Mathlib.Data.List.Nodup
import Mathlib.Data.List.Pairwise
import Mathlib.Data.List.Perm.Basic
import PathQuery.Result.Basic

namespace PathQuery

/-! ### Names of a dictionary -/

namespace Dict

variable {α : Type}

theorem keys_ascending (dict : Dict α) : dict.keys.Pairwise (· < ·) :=
  List.pairwise_map.mpr dict.ascending

theorem keys_nodup (dict : Dict α) : dict.keys.Nodup := by
  refine dict.keys_ascending.imp fun {first second} less same => ?_
  exact String.lt_irrefl second (same ▸ less)

/-- The value of a name is that of its entry. -/
theorem get?_eq_some_iff {dict : Dict α} {name : String} {value : α} :
    dict.get? name = some value ↔ (name, value) ∈ dict.entries := by
  obtain ⟨entries, ascending⟩ := dict
  show entries.lookup name = some value ↔ (name, value) ∈ entries
  induction entries with
  | nil => exact ⟨fun found => (by cases found), fun member => absurd member List.not_mem_nil⟩
  | cons entry rest inductionHypothesis =>
    obtain ⟨key, held⟩ := entry
    have below := (List.pairwise_cons.mp ascending).1
    rw [lookup_cons, List.mem_cons, Prod.mk.injEq]
    by_cases here : name = key
    · subst here
      have later : (name, value) ∉ rest :=
        fun member => String.lt_irrefl name (below (name, value) member)
      rw [if_pos rfl, Option.some.injEq]
      exact ⟨fun same => .inl ⟨rfl, same.symm⟩,
        fun found => found.elim (fun same => same.2.symm) fun member => absurd member later⟩
    · rw [if_neg here, inductionHypothesis (List.pairwise_cons.mp ascending).2]
      exact ⟨.inr, fun found => found.elim (fun same => absurd same.1 here) id⟩

theorem mem_keys {dict : Dict α} {name : String} :
    name ∈ dict.keys ↔ ∃ value, dict.get? name = some value := by
  simp only [keys, List.mem_map, get?_eq_some_iff]
  constructor
  · rintro ⟨⟨key, value⟩, member, rfl⟩
    exact ⟨value, member⟩
  · rintro ⟨value, member⟩
    exact ⟨(name, value), member, rfl⟩

theorem mem_keys_insert {dict : Dict α} {name other : String} {value : α} :
    other ∈ (dict.insert name value).keys ↔ other = name ∨ other ∈ dict.keys := by
  simp only [mem_keys, get?_insert]
  by_cases here : other = name
  · rw [if_pos here]
    exact ⟨fun _ => .inl here, fun _ => ⟨value, rfl⟩⟩
  · rw [if_neg here]
    exact ⟨.inr, fun found => found.elim (fun same => absurd same here) id⟩

/-- An insertion adds an entry unless the name is there. -/
theorem size_insert (dict : Dict α) (name : String) (value : α) :
    (dict.insert name value).size =
      if (dict.get? name).isSome then dict.size else dict.size + 1 := by
  have length : ∀ dict : Dict α, dict.size = dict.keys.length := fun _ => (List.length_map _).symm
  have known : (dict.get? name).isSome ↔ name ∈ dict.keys := by
    rw [Option.isSome_iff_exists, mem_keys]
  have names : ∀ other, other ∈ (dict.insert name value).keys ↔ other = name ∨ other ∈ dict.keys :=
    fun _ => mem_keys_insert
  have distinct := (dict.insert name value).keys_nodup
  rw [length, length]
  split
  · next held =>
    refine ((List.perm_ext_iff_of_nodup distinct dict.keys_nodup).mpr fun other => ?_).length_eq
    rw [names, or_iff_right_of_imp]
    rintro rfl
    exact known.mp held
  · next new =>
    rw [known] at new
    refine ((List.perm_ext_iff_of_nodup distinct
      (List.nodup_cons.mpr ⟨new, dict.keys_nodup⟩)).mpr fun other => ?_).length_eq
    rw [names, List.mem_cons]

/-- Insertions under different names can be made in either order. -/
theorem insert_comm (dict : Dict α) {first second : String} (different : first ≠ second)
    (one other : α) :
    (dict.insert first one).insert second other = (dict.insert second other).insert first one := by
  refine ext_get? fun name => ?_
  rw [get?_insert, get?_insert, get?_insert, get?_insert]
  by_cases here : name = second
  · rw [if_pos here, if_neg fun same => different (same.symm.trans here), if_pos here]
  · rw [if_neg here, if_neg here]

end Dict

/-- Names can be added to a set in any order. -/
theorem NameSet.insert_comm (names : NameSet) (first second : String) :
    Dict.insert (Dict.insert names first ()) second () =
      Dict.insert (Dict.insert names second ()) first () := by
  by_cases same : first = second
  · rw [same]
  · exact Dict.insert_comm names same () ()

namespace Result

/-! ### The order of recording -/

/-- Two groups that do not get in each other's way: they differ in their identities, and so does
every item of one from every item of the other. -/
structure Group.Apart (first second : Group) : Prop where
  ids : first.id ≠ second.id
  items : ∀ one ∈ first.items, ∀ other ∈ second.items, one.id ≠ other.id

instance : Std.Symm Group.Apart where
  symm _ _ apart :=
    ⟨apart.ids.symm, fun one member other given => (apart.items other given one member).symm⟩

theorem get?_noteChild (children : Dict NameSet) (parent group item : String) :
    (noteChild children parent group).get? item =
      if item = parent then some (((children.get? parent).getD .empty).insert group ())
      else children.get? item := by
  rw [noteChild, Dict.get?_insert]

theorem noteChild_comm (children : Dict NameSet) (parent group other further : String) :
    noteChild (noteChild children parent group) other further =
      noteChild (noteChild children other further) parent group := by
  by_cases same : parent = other
  · subst same
    refine Dict.ext_get? fun item => ?_
    simp only [get?_noteChild, if_true, Option.getD_some]
    rw [NameSet.insert_comm]
    by_cases here : item = parent
    · rw [if_pos here, if_pos here]
    · rw [if_neg here, if_neg here, if_neg here, if_neg here]
  · have different : other ≠ parent := fun equal => same equal.symm
    unfold noteChild
    rw [Dict.get?_insert, if_neg different, Dict.get?_insert, if_neg same,
      Dict.insert_comm _ same]

/-- After its items are noted, a group owns them and every other item has the owner it had. -/
theorem get?_noteOwners (owners : Dict String) (group : Group) (item : String) :
    (noteOwners owners group).get? item =
      if item ∈ group.items.map (·.id) then some group.id else owners.get? item := by
  unfold noteOwners
  generalize group.items = items
  induction items generalizing owners with
  | nil => rw [List.map_nil, if_neg List.not_mem_nil, List.foldl_nil]
  | cons first rest inductionHypothesis =>
    rw [List.foldl_cons, inductionHypothesis, Dict.get?_insert, List.map_cons]
    by_cases later : item ∈ rest.map (·.id)
    · rw [if_pos later, if_pos (List.mem_cons_of_mem _ later)]
    · rw [if_neg later]
      by_cases here : item = first.id
      · rw [if_pos here, if_pos (here ▸ List.mem_cons_self)]
      · rw [if_neg here, if_neg fun member => (List.mem_cons.mp member).elim here later]

/-- The items of two groups without a common item can be noted in either order. -/
theorem noteOwners_comm (owners : Dict String) {first second : Group}
    (apart : first.Apart second) :
    noteOwners (noteOwners owners first) second = noteOwners (noteOwners owners second) first := by
  refine Dict.ext_get? fun item => ?_
  rw [get?_noteOwners, get?_noteOwners, get?_noteOwners, get?_noteOwners]
  by_cases here : item ∈ second.items.map (·.id)
  · have elsewhere : item ∉ first.items.map (·.id) := by
      intro member
      obtain ⟨one, given, same⟩ := List.mem_map.mp member
      obtain ⟨other, alsoGiven, alsoSame⟩ := List.mem_map.mp here
      exact apart.items one given other alsoGiven (same.trans alsoSame.symm)
    rw [if_pos here, if_neg elsewhere, if_pos here]
  · rw [if_neg here, if_neg here]

/-- Groups that are apart can be recorded in either order. -/
theorem record_comm (result : Result) {first second : Group} (apart : first.Apart second) :
    (result.record first).record second = (result.record second).record first := by
  have roots : ((result.record first).record second).roots =
      ((result.record second).record first).roots := by
    show (if second.isRoot then
        (if first.isRoot then result.roots.insert first.id () else result.roots).insert
          second.id ()
      else if first.isRoot then result.roots.insert first.id () else result.roots) =
      if first.isRoot then
        (if second.isRoot then result.roots.insert second.id () else result.roots).insert
          first.id ()
      else if second.isRoot then result.roots.insert second.id () else result.roots
    by_cases firstRoot : first.isRoot = true
    · by_cases secondRoot : second.isRoot = true
      · simp only [if_pos firstRoot, if_pos secondRoot]
        exact NameSet.insert_comm result.roots first.id second.id
      · simp only [if_pos firstRoot, if_neg secondRoot]
    · simp only [if_neg firstRoot]
  have children : ((result.record first).record second).children =
      ((result.record second).record first).children := by
    simp only [record]
    cases first.parent with
    | none => rfl
    | some parent =>
      cases second.parent with
      | none => rfl
      | some other => exact noteChild_comm result.children parent first.id other second.id
  have groups : ((result.record first).record second).groups =
      ((result.record second).record first).groups :=
    Dict.insert_comm result.groups apart.ids first second
  have owners : ((result.record first).record second).owners =
      ((result.record second).record first).owners :=
    noteOwners_comm result.owners apart
  exact (Result.mk.injEq ..).mpr ⟨groups, roots, children, owners⟩

/-- Any order of recording groups that are apart gives the same result. -/
theorem ofGroups_perm {first second : List Group} (reordered : first.Perm second)
    (apart : first.Pairwise Group.Apart) : ofGroups first = ofGroups second := by
  refine reordered.foldl_eq' (fun one member other given result => ?_) empty
  by_cases same : one = other
  · rw [same]
  · exact record_comm result (apart.forall member given same)

/-! ### What is found after recording -/

theorem ofGroups_append_single (groups : List Group) (group : Group) :
    ofGroups (groups ++ [group]) = (ofGroups groups).record group := by
  rw [ofGroups, ofGroups, List.foldl_append, List.foldl_cons, List.foldl_nil]

/-- A group that is found was recorded, under its own identity. -/
theorem group?_some {groups : List Group} {id : String} {group : Group}
    (found : (ofGroups groups).group? id = some group) : group ∈ groups ∧ group.id = id := by
  induction groups using List.reverseRecOn with
  | nil => cases found
  | append_singleton groups last inductionHypothesis =>
    rw [ofGroups_append_single] at found
    have split : (if id = last.id then some last else (ofGroups groups).groups.get? id) =
        some group := by
      rw [← Dict.get?_insert]
      exact found
    by_cases here : id = last.id
    · rw [if_pos here] at split
      cases split
      exact ⟨List.mem_append_right _ (List.mem_singleton_self _), here.symm⟩
    · rw [if_neg here] at split
      exact (inductionHypothesis split).imp_left (List.mem_append_left _)

theorem mem_of_mem_values {groups : List Group} {group : Group}
    (member : group ∈ (ofGroups groups).groups.values) : group ∈ groups := by
  obtain ⟨⟨id, held⟩, entry, rfl⟩ := List.mem_map.mp member
  exact (group?_some (Dict.get?_eq_some_iff.mpr entry)).1

/-- The group that was recorded last is in the result. -/
theorem last_mem_values (groups : List Group) (last : Group) :
    last ∈ (ofGroups (groups ++ [last])).groups.values := by
  have found : (ofGroups (groups ++ [last])).groups.get? last.id = some last := by
    rw [ofGroups_append_single]
    show ((ofGroups groups).groups.insert last.id last).get? last.id = some last
    rw [Dict.get?_insert, if_pos rfl]
  exact List.mem_map.mpr ⟨(last.id, last), Dict.get?_eq_some_iff.mp found, rfl⟩

/-- A group is found where all groups recorded under its identity are this one. -/
theorem group?_of_unique {groups : List Group} {group : Group} (member : group ∈ groups)
    (unique : ∀ other ∈ groups, other.id = group.id → other = group) :
    (ofGroups groups).group? group.id = some group := by
  induction groups using List.reverseRecOn with
  | nil => exact absurd member List.not_mem_nil
  | append_singleton groups last inductionHypothesis =>
    rw [ofGroups_append_single]
    show ((ofGroups groups).groups.insert last.id last).get? group.id = some group
    rw [Dict.get?_insert]
    by_cases here : group.id = last.id
    · rw [if_pos here, unique last (by simp) here.symm]
    · rw [if_neg here]
      refine inductionHypothesis ?_ fun other given => unique other (List.mem_append_left _ given)
      refine (List.mem_append.mp member).resolve_right fun same => here ?_
      rw [List.mem_singleton.mp same]

theorem mem_values_of_group? {result : Result} {id : String} {group : Group}
    (found : result.group? id = some group) : group ∈ result.groups.values :=
  List.mem_map.mpr ⟨(id, group), Dict.get?_eq_some_iff.mp found, rfl⟩

/-- Where identities are distinct, every recorded group is found, and nothing else. -/
theorem group?_ofGroups {groups : List Group} (distinct : (groups.map (·.id)).Nodup)
    {id : String} {group : Group} :
    (ofGroups groups).group? id = some group ↔ group ∈ groups ∧ group.id = id := by
  refine ⟨group?_some, ?_⟩
  rintro ⟨member, rfl⟩
  exact group?_of_unique member fun other given same =>
    List.inj_on_of_nodup_map distinct given member same

/-- The root identities are those of the groups without a parent. -/
theorem mem_roots_ofGroups {groups : List Group} {id : String} :
    id ∈ (ofGroups groups).roots.keys ↔
      ∃ group ∈ groups, group.id = id ∧ group.parent = none := by
  induction groups using List.reverseRecOn with
  | nil =>
    exact ⟨fun member => absurd member List.not_mem_nil,
      fun found => absurd found.choose_spec.1 List.not_mem_nil⟩
  | append_singleton groups last inductionHypothesis =>
    simp only [List.mem_append, List.mem_singleton, or_and_right, exists_or, exists_eq_left]
    rw [ofGroups_append_single, ← inductionHypothesis]
    show id ∈ (if last.isRoot then (ofGroups groups).roots.insert last.id ()
      else (ofGroups groups).roots).keys ↔ _
    by_cases root : last.isRoot = true
    · rw [if_pos root, Dict.mem_keys_insert, or_comm, eq_comm (a := id)]
      exact or_congr Iff.rfl ⟨fun same => ⟨same, Option.isNone_iff_eq_none.mp root⟩, And.left⟩
    · rw [if_neg root]
      exact ⟨.inl, fun found => found.elim (fun member => member)
        fun last => absurd (Option.isNone_iff_eq_none.mpr last.2) root⟩

/-- The identities under an item are those of the groups with that parent. -/
theorem mem_children_ofGroups {groups : List Group} {item id : String} :
    id ∈ (((ofGroups groups).children.get? item).getD .empty).keys ↔
      ∃ group ∈ groups, group.id = id ∧ group.parent = some item := by
  induction groups using List.reverseRecOn with
  | nil =>
    exact ⟨fun member => absurd member List.not_mem_nil,
      fun found => absurd found.choose_spec.1 List.not_mem_nil⟩
  | append_singleton groups last inductionHypothesis =>
    simp only [List.mem_append, List.mem_singleton, or_and_right, exists_or, exists_eq_left]
    rw [ofGroups_append_single, ← inductionHypothesis, record]
    cases parent : last.parent with
    | none =>
      exact ⟨.inl, fun found => found.elim (fun member => member) fun last => by cases last.2⟩
    | some other =>
      show id ∈ (((noteChild (ofGroups groups).children other last.id).get? item).getD
        .empty).keys ↔ _
      rw [get?_noteChild]
      by_cases here : item = other
      · subst here
        rw [if_pos rfl, Option.getD_some, Dict.mem_keys_insert, or_comm, eq_comm (a := id)]
        exact or_congr Iff.rfl ⟨fun same => ⟨same, rfl⟩, And.left⟩
      · rw [if_neg here]
        exact ⟨.inl, fun found => found.elim (fun member => member)
          fun last => absurd (Option.some.inj last.2).symm here⟩

/-- The groups under an item are those found by an identity that was recorded under it. -/
theorem mem_childGroups {groups : List Group} {item : String} {child : Group} :
    child ∈ (ofGroups groups).childGroups item ↔
      (ofGroups groups).group? child.id = some child ∧
        ∃ other ∈ groups, other.id = child.id ∧ other.parent = some item := by
  rw [childGroups, List.mem_filterMap]
  simp only [mem_children_ofGroups]
  constructor
  · rintro ⟨id, recorded, found⟩
    have same := (group?_some found).2
    subst same
    exact ⟨found, recorded⟩
  · rintro ⟨found, recorded⟩
    exact ⟨child.id, recorded, found⟩

/-- A listing of recorded groups by names, where all groups of interest have one identity. -/
theorem filterMap_group?_of_sole {groups : List Group} {names : NameSet} {keep : Group → Prop}
    {id : String}
    (named : ∀ other, other ∈ names.keys ↔ ∃ group ∈ groups, group.id = other ∧ keep group)
    (sole : ∀ group ∈ groups, keep group ↔ group.id = id) :
    names.keys.filterMap (ofGroups groups).group? = ((ofGroups groups).group? id).toList := by
  have only : ∀ other ∈ names.keys, other = id := by
    intro other member
    obtain ⟨group, given, rfl, kept⟩ := (named other).mp member
    exact (sole group given).mp kept
  have distinct := names.keys_nodup
  cases keys : names.keys with
  | nil =>
    cases found : (ofGroups groups).group? id with
    | none => rfl
    | some group =>
      obtain ⟨given, same⟩ := group?_some found
      have member := (named id).mpr ⟨group, given, same, (sole group given).mpr same⟩
      rw [keys] at member
      cases member
  | cons first rest =>
    rw [keys] at only distinct
    obtain rfl := only first List.mem_cons_self
    cases rest with
    | nil =>
      rw [List.filterMap_cons, List.filterMap_nil]
      cases (ofGroups groups).group? first <;> rfl
    | cons second rest =>
      have twice := only second (List.mem_cons_of_mem _ List.mem_cons_self)
      exact absurd twice.symm ((List.pairwise_cons.mp distinct).1 second List.mem_cons_self)

/-- Where the groups without a parent all have one identity, there is at most one of them. -/
theorem rootGroups_of_sole {groups : List Group} {id : String}
    (sole : ∀ group ∈ groups, group.parent = none ↔ group.id = id) :
    (ofGroups groups).rootGroups = ((ofGroups groups).group? id).toList :=
  filterMap_group?_of_sole (fun _ => mem_roots_ofGroups) sole

/-- Where the groups under an item all have one identity, there is at most one of them. -/
theorem childGroups_of_sole {groups : List Group} {item id : String}
    (sole : ∀ group ∈ groups, group.parent = some item ↔ group.id = id) :
    (ofGroups groups).childGroups item = ((ofGroups groups).group? id).toList :=
  filterMap_group?_of_sole (fun _ => mem_children_ofGroups) sole

theorem childGroups_eq_nil {groups : List Group} {item : String}
    (without : ∀ group ∈ groups, group.parent ≠ some item) :
    (ofGroups groups).childGroups item = [] := by
  refine List.eq_nil_iff_forall_not_mem.mpr fun child member => ?_
  obtain ⟨-, other, given, -, under⟩ := mem_childGroups.mp member
  exact without other given under

/-- A listing of recorded groups by names has every identity once, in order. -/
theorem filterMap_group?_ascending (groups : List Group) (names : NameSet) :
    (names.keys.filterMap (ofGroups groups).group?).Pairwise fun first second =>
      first.id < second.id := by
  refine List.pairwise_filterMap.mpr (names.keys_ascending.imp ?_)
  intro first second less one found other alsoFound
  rw [(group?_some found).2, (group?_some alsoFound).2]
  exact less

/-- A listing of recorded groups by their identities: it has each group with such an identity once,
in the order of identities. -/
theorem filterMap_group?_ofGroups {groups : List Group}
    (distinct : (groups.map (·.id)).Nodup) {names : NameSet} {keep : Group → Bool}
    (named : ∀ id, id ∈ names.keys ↔ ∃ group ∈ groups, group.id = id ∧ keep group = true) :
    (names.keys.filterMap (ofGroups groups).group?).Perm (groups.filter keep) ∧
      (names.keys.filterMap (ofGroups groups).group?).Pairwise fun first second =>
        first.id < second.id := by
  have listed : ∀ {group}, group ∈ names.keys.filterMap (ofGroups groups).group? ↔
      group ∈ groups ∧ group.id ∈ names.keys := by
    intro group
    rw [List.mem_filterMap]
    simp only [group?_ofGroups distinct]
    constructor
    · rintro ⟨id, member, given, rfl⟩
      exact ⟨given, member⟩
    · rintro ⟨given, member⟩
      exact ⟨group.id, member, given, rfl⟩
  have ascending := filterMap_group?_ascending groups names
  refine ⟨?_, ascending⟩
  have once : (names.keys.filterMap (ofGroups groups).group?).Nodup := by
    refine ascending.imp fun {first second} less same => ?_
    exact String.lt_irrefl second.id (same ▸ less)
  refine (List.perm_ext_iff_of_nodup once (distinct.of_map.filter keep)).mpr fun group => ?_
  rw [listed, List.mem_filter]
  refine and_congr_right fun given => (named group.id).trans ⟨?_, fun kept => ?_⟩
  · rintro ⟨other, member, same, kept⟩
    rwa [← List.inj_on_of_nodup_map distinct member given same]
  · exact ⟨group, given, rfl, kept⟩

/-- The root groups are the groups without a parent, in the order of their identities. -/
theorem rootGroups_ofGroups {groups : List Group} (distinct : (groups.map (·.id)).Nodup) :
    ((ofGroups groups).rootGroups).Perm (groups.filter (·.parent = none)) ∧
      ((ofGroups groups).rootGroups).Pairwise fun first second => first.id < second.id :=
  filterMap_group?_ofGroups distinct fun id => by
    simp only [mem_roots_ofGroups, decide_eq_true_eq]

/-- The groups under an item are the groups with that parent, in the order of their identities. -/
theorem childGroups_ofGroups {groups : List Group} (distinct : (groups.map (·.id)).Nodup)
    (item : String) :
    ((ofGroups groups).childGroups item).Perm (groups.filter (·.parent = some item)) ∧
      ((ofGroups groups).childGroups item).Pairwise fun first second => first.id < second.id :=
  filterMap_group?_ofGroups distinct fun id => by
    simp only [mem_children_ofGroups, decide_eq_true_eq]

theorem values_ofGroups {groups : List Group} (distinct : (groups.map (·.id)).Nodup) :
    ((ofGroups groups).groups.values).Perm groups := by
  have entries : ((ofGroups groups).groups.entries).Perm (groups.map fun group =>
      (group.id, group)) := by
    refine (List.perm_ext_iff_of_nodup ?_ ?_).mpr fun entry => ?_
    · exact List.Nodup.of_map _ (ofGroups groups).groups.keys_nodup
    · exact distinct.of_map.map fun _ _ same => congrArg Prod.snd same
    · obtain ⟨id, group⟩ := entry
      rw [← Dict.get?_eq_some_iff]
      refine (group?_ofGroups distinct).trans ?_
      simp only [List.mem_map, Prod.mk.injEq]
      exact ⟨fun found => ⟨group, found.1, found.2, rfl⟩, fun found => by
        obtain ⟨other, member, same, rfl⟩ := found
        exact ⟨member, same⟩⟩
  have values := entries.map Prod.snd
  rwa [List.map_map, show (Prod.snd ∘ fun group : Group => (group.id, group)) = id from rfl,
    List.map_id] at values

theorem size_ofGroups {groups : List Group} (distinct : (groups.map (·.id)).Nodup) :
    (ofGroups groups).size = groups.length := by
  have same := (values_ofGroups distinct).length_eq
  rwa [Dict.values, List.length_map] at same

end Result

end PathQuery
