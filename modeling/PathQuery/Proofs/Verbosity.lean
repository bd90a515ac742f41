/-
This file proves that a brief report only leaves things out. Reports are first laid out to whatever
depth groups nest, by recursion along the groups that are under items, given that going down ends.
Erasing identities and the messages for links at every depth makes the brief report of the full one.
The report on a result goes down a fixed number of levels, and still it cuts nothing off: with every
level there are fewer groups below.
-/

import Mathlib.Data.Finset.Card
import Mathlib.Data.Finset.Filter
import Mathlib.Logic.Relation
import PathQuery.Proofs.Recording
import PathQuery.Result.Report

namespace PathQuery

/-! ### Groups under groups -/

namespace Result

variable {result : Result} {parent child : Group}

/-- A group is under an item of another. -/
def Under (result : Result) (child parent : Group) : Prop :=
  ∃ item ∈ parent.items, child ∈ result.childGroups item.id

/-- Going from the root groups to groups under them, again and again, ends. -/
def Founded (result : Result) : Prop :=
  ∀ root ∈ result.rootGroups, Acc result.Under root

theorem mem_values_of_rootGroups {root : Group} (member : root ∈ result.rootGroups) :
    root ∈ result.groups.values := by
  obtain ⟨_, -, found⟩ := List.mem_filterMap.mp member
  exact mem_values_of_group? found

theorem mem_values_of_under (under : result.Under child parent) : child ∈ result.groups.values := by
  obtain ⟨_, -, member⟩ := under
  obtain ⟨_, -, found⟩ := List.mem_filterMap.mp member
  exact mem_values_of_group? found

/-- Where the groups under a group have a lower rank than it, going down ends. -/
theorem founded_of_rank (rank : Group → Nat)
    (lower : ∀ parent ∈ result.groups.values, ∀ item ∈ parent.items,
      ∀ child ∈ result.childGroups item.id, rank child < rank parent) : result.Founded := by
  have accessible : ∀ group, group ∈ result.groups.values → Acc result.Under group := by
    intro group
    induction group using (InvImage.wf rank Nat.lt_wfRel.wf).induction with
    | h group inductionHypothesis =>
      refine fun held => ⟨group, fun child under => ?_⟩
      have childHeld := mem_values_of_under under
      obtain ⟨item, member, childMember⟩ := under
      exact inductionHypothesis child (lower group held item member child childMember) childHeld
  exact fun root member => accessible root (mem_values_of_rootGroups member)

/-! ### Groups anywhere below -/

open Classical in
/-- The groups that are under a group, or under one of these, and so on. -/
noncomputable def below (result : Result) (group : Group) : Finset Group :=
  result.groups.values.toFinset.filter fun other => Relation.TransGen result.Under other group

theorem mem_below_iff {other : Group} :
    other ∈ result.below parent ↔ Relation.TransGen result.Under other parent := by
  classical
  rw [below, Finset.mem_filter, List.mem_toFinset]
  refine and_iff_right_of_imp fun chain => ?_
  obtain ⟨_, under, -⟩ := Relation.TransGen.head'_iff.mp chain
  exact mem_values_of_under under

/-- Where going down from a group ends, the group is not below itself. -/
theorem not_mem_below_self (founded : Acc result.Under parent) : parent ∉ result.below parent := by
  rw [mem_below_iff]
  -- Chains descend as single steps do, so a cycle of any length is one step of the induction.
  have descends := founded.transGen
  clear founded
  induction descends with
  | intro group _ inductionHypothesis =>
    exact fun cycle => inductionHypothesis group cycle cycle

/-- Fewer groups are below a group than below the one that it is under. -/
theorem card_below_lt (founded : Acc result.Under parent) (under : result.Under child parent) :
    (result.below child).card < (result.below parent).card := by
  have part : result.below child ⊆ result.below parent := fun other member =>
    mem_below_iff.mpr ((mem_below_iff.mp member).tail under)
  refine Finset.card_lt_card ((Finset.ssubset_iff_of_subset part).mpr ⟨child, ?_, ?_⟩)
  · exact mem_below_iff.mpr (.single under)
  · exact not_mem_below_self (founded.inv under)

/-- Fewer groups are below a root group than there are. -/
theorem card_below_lt_size (founded : result.Founded) {root : Group}
    (member : root ∈ result.rootGroups) : (result.below root).card < result.size := by
  classical
  have part : result.below root ⊆ result.groups.values.toFinset := Finset.filter_subset _ _
  have less : (result.below root).card < result.groups.values.toFinset.card := by
    refine Finset.card_lt_card ((Finset.ssubset_iff_of_subset part).mpr ⟨root, ?_, ?_⟩)
    · exact List.mem_toFinset.mpr (mem_values_of_rootGroups member)
    · exact not_mem_below_self (founded root member)
  calc (result.below root).card < result.groups.values.toFinset.card := less
    _ ≤ result.groups.values.length := List.toFinset_card_le _
    _ = result.size := List.length_map _

end Result

namespace Report

/-! ### Reports of any depth -/

/-- The report on a group, as deep as groups nest under it. -/
def layOut (result : Result) (verbosity : Verbosity) (group : Result.Group)
    (founded : Acc result.Under group) : Group :=
  .group (groupHead verbosity group) (group.items.attach.map fun item =>
    .item (itemHead verbosity item.1) ((result.childGroups item.1.id).attach.map fun child =>
      layOut result verbosity child.1 (founded.inv ⟨item.1, item.2, child.2⟩)))
termination_by (⟨group, founded⟩ : { other // Acc result.Under other })
decreasing_by
  exact ⟨item.1, item.2, child.2⟩

variable {result : Result} {group : Result.Group}

/-- With more levels than there are groups below a group, nothing under it is cut off. -/
theorem ofGroup_eq_layOut (verbosity : Verbosity) (founded : Acc result.Under group) :
    ∀ levels, (result.below group).card < levels →
      ofGroup result verbosity levels group = layOut result verbosity group founded := by
  induction founded with
  | intro group accessible inductionHypothesis =>
    intro levels enough
    cases levels with
    | zero => exact absurd enough (Nat.not_lt_zero _)
    | succ levels =>
      rw [ofGroup, layOut]
      refine congrArg (Group.group _)
        (List.attach_map_val.symm.trans (List.map_congr_left fun item _ => ?_))
      refine congrArg (Item.item _)
        (List.attach_map_val.symm.trans (List.map_congr_left fun child _ => ?_))
      have under : result.Under child group := ⟨item.1, item.2, child.2⟩
      have fewer := Result.card_below_lt ⟨group, accessible⟩ under
      exact inductionHypothesis child under levels (fewer.trans_le (Nat.le_of_lt_succ enough))

/-! ### Brief reports -/

/-- What a brief report says of the head of a group. -/
def GroupHead.brief (head : GroupHead) : GroupHead := { head with id := none }

/-- What a brief report says of the head of an item. -/
def ItemHead.brief (head : ItemHead) : ItemHead :=
  { head with id := none, group := none, linkErrors := [] }

mutual

/-- Erases identities and link messages from a report on a group. -/
def Group.brief : Group → Group
  | .group head items => .group head.brief (briefItems items)

/-- Erases identities and link messages from reports on items. -/
def briefItems : List Item → List Item
  | [] => []
  | item :: rest => item.brief :: briefItems rest

/-- Erases identities and link messages from a report on an item. -/
def Item.brief : Item → Item
  | .item head children => .item head.brief (briefGroups children)

/-- Erases identities and link messages from reports on groups. -/
def briefGroups : List Group → List Group
  | [] => []
  | group :: rest => group.brief :: briefGroups rest

end

theorem briefItems_eq (items : List Item) : briefItems items = items.map Item.brief := by
  induction items with
  | nil => rfl
  | cons item rest inductionHypothesis => rw [briefItems, inductionHypothesis, List.map_cons]

theorem briefGroups_eq (groups : List Group) : briefGroups groups = groups.map Group.brief := by
  induction groups with
  | nil => rfl
  | cons group rest inductionHypothesis => rw [briefGroups, inductionHypothesis, List.map_cons]

theorem groupHead_brief (verbosity : Verbosity) (group : Result.Group) :
    (groupHead verbosity group).brief = groupHead .normal group := by
  cases verbosity <;> rfl

theorem itemHead_brief (verbosity : Verbosity) (item : Result.Item) :
    (itemHead verbosity item).brief = itemHead .normal item := by
  cases verbosity <;> rfl

/-- Erasing leaves the brief report. -/
theorem layOut_brief (verbosity : Verbosity) (founded : Acc result.Under group) :
    (layOut result verbosity group founded).brief = layOut result .normal group founded := by
  induction founded with
  | intro group accessible inductionHypothesis =>
    rw [layOut, layOut, Group.brief, briefItems_eq, groupHead_brief, List.map_map]
    refine congrArg (Group.group _) (List.map_congr_left fun item _ => ?_)
    rw [Function.comp_apply, Item.brief, briefGroups_eq, itemHead_brief, List.map_map]
    refine congrArg (Item.item _) (List.map_congr_left fun child _ => ?_)
    exact inductionHypothesis child ⟨item.1, item.2, child.2⟩

end Report

namespace Result

/-- The number of levels of a report is enough for all groups under the root groups. -/
theorem report_eq_layOut {result : Result} (founded : result.Founded) (verbosity : Verbosity) :
    result.report verbosity = result.rootGroups.attach.map fun root =>
      Report.layOut result verbosity root.1 (founded root.1 root.2) := by
  refine List.attach_map_val.symm.trans (List.map_congr_left fun root _ => ?_)
  exact Report.ofGroup_eq_layOut verbosity (founded root.1 root.2) result.size
    (card_below_lt_size founded root.2)

/-- A brief report only hides. Where going from the root groups to groups under them ends, both
reports are laid out down to the last group, and the brief one is the full one with the identities
of groups and items, the groups of items and the messages for links erased at every depth. -/
theorem normal_report_brief {result : Result} (founded : result.Founded) :
    (∀ verbosity, result.report verbosity = result.rootGroups.attach.map fun root =>
      Report.layOut result verbosity root.1 (founded root.1 root.2)) ∧
    result.report .normal = (result.report .debug).map Report.Group.brief := by
  refine ⟨report_eq_layOut founded, ?_⟩
  rw [report_eq_layOut founded, report_eq_layOut founded, List.map_map]
  exact List.map_congr_left fun root _ =>
    (Report.layOut_brief .debug (founded root.1 root.2)).symm

/-- A group of some items with a message for a link each, under an item or none. -/
def lackingGroup (id : String) (items : List String) (parent : Option String) : Group where
  id := id
  node := "n"
  kind := ⟨"r1", "t1"⟩
  items := items.map fun item => ⟨item, id, ⟨"dev", item, [("id", item)]⟩, none, ["no link"]⟩
  link := []
  linkError := none
  fetchError := none
  parent := parent

/-- The root group and a group under it have an item of the same identity, so that what is under
this item is shown under both. -/
def sharedItem : Result :=
  ofGroups [lackingGroup "ROOT" ["i1", "i2"] none, lackingGroup "g1" ["i2"] (some "i1"),
    lackingGroup "g2" [] (some "i2")]

/-- What a brief report shows of it. -/
def sharedItemReport : List Report.Group :=
  let head : Report.GroupHead := ⟨none, "r1.t1", [], none, none⟩
  let shown (id : String) : List Report.Group → Report.Item :=
    .item ⟨none, none, "dev", [("id", id)], none, []⟩
  let last : Report.Group := .group head []
  [.group head [shown "i1" [.group head [shown "i2" [last]]], shown "i2" [last]]]

theorem normal_report_brief_sharedItem : sharedItem.Founded ∧
    sharedItem.report .normal = (sharedItem.report .debug).map Report.Group.brief ∧
    sharedItem.report .normal = sharedItemReport := by
  have founded : sharedItem.Founded :=
    founded_of_rank (fun group => if group.id = "ROOT" then 2 else group.items.length) (by decide)
  exact ⟨founded, (normal_report_brief founded).2, rfl⟩

end Result

end PathQuery
