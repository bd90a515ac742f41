/-
This file says what the bytes that are digested tell of the components they come from. A zero byte
closes each component, so the bytes show where a component ends unless there are zeros in it. Only
the last component of an item may have them, and the last one of a task: the other components are
identities, spelled in hexadecimal digits, or profiles. So items and tasks are told by the bytes
that are digested for them, in the runs of a plan as well, and identities coincide only where the
kept beginnings of two digests do.
-/

import PathQuery.Proofs.Encoding
import PathQuery.Proofs.Pieces
import PathQuery.Proofs.Tasks

namespace PathQuery

namespace Identity

variable {first second : List String}

/-! ### Components and their bytes -/

/-- There is no zero in a text. -/
def Free (text : String) : Prop := '\x00' ∉ text.toList

instance (text : String) : Decidable (Free text) := inferInstanceAs (Decidable (_ ∉ _))

/-- The components that the bytes show: a zero in a component ends it. -/
def cut (components : List String) : List String := components.flatMap (Text.split '\x00')

/-- The characters of the components, a zero after each component. -/
def closed (components : List String) : List Char :=
  components.flatMap fun component => component.toList ++ ['\x00']

theorem stream_eq (components : List String) :
    stream components = (closed components).flatMap String.utf8EncodeChar := by
  have encoded : ∀ component : String, component.toUTF8.toList ++ [0] =
      (component.toList ++ ['\x00']).flatMap String.utf8EncodeChar := fun component => by
    rw [Text.toList_toUTF8, List.flatMap_append]
    rfl
  rw [closed, List.flatMap_assoc, stream]
  exact List.flatMap_congr fun component _ => encoded component

/-- Cutting at each zero leaves an empty piece after the last one. -/
theorem pieces_closed (components : List String) :
    Text.pieces '\x00' (closed components) = (cut components).map String.toList ++ [[]] := by
  induction components with
  | nil => rfl
  | cons component rest inductionHypothesis =>
    have opened : closed (component :: rest) = component.toList ++ '\x00' :: closed rest := by
      rw [closed, List.flatMap_cons, List.append_assoc]
      rfl
    have letters : (Text.split '\x00' component).map String.toList =
        Text.pieces '\x00' component.toList := by
      rw [Text.split, List.map_map]
      exact List.map_id'' (fun _ => String.toList_ofList) _
    rw [opened, Text.pieces_append_mark, inductionHypothesis, cut, cut, List.flatMap_cons,
      List.map_append, List.append_assoc, letters]

/-- The bytes tell the components as zeros cut them, and nothing else. -/
theorem stream_eq_iff : stream first = stream second ↔ cut first = cut second := by
  constructor
  · intro same
    rw [stream_eq, stream_eq] at same
    have pieces := congrArg (Text.pieces '\x00') (Text.encode_injective same)
    rw [pieces_closed, pieces_closed, List.append_cancel_right_eq] at pieces
    exact List.map_injective_iff.mpr (fun _ _ => String.toList_inj.mp) pieces
  · intro same
    rw [stream_eq, stream_eq, ← Text.intercalate_pieces '\x00' (closed first),
      ← Text.intercalate_pieces '\x00' (closed second), pieces_closed, pieces_closed, same]

/-! ### Components without zeros -/

theorem cut_cons {component : String} (free : Free component) (rest : List String) :
    cut (component :: rest) = component :: cut rest := by
  rw [cut, List.flatMap_cons, Text.split_of_free free]
  rfl

theorem cut_of_free {components : List String} (free : ∀ component ∈ components, Free component) :
    cut components = components := by
  induction components with
  | nil => rfl
  | cons component rest inductionHypothesis =>
    rw [List.forall_mem_cons] at free
    rw [cut_cons free.1, inductionHypothesis free.2]

/-- In the last component zeros do no harm. -/
theorem cut_singleton (component : String) : cut [component] = Text.split '\x00' component :=
  List.flatMap_singleton _ _

theorem cut_itemComponents {group profile : String} (grouped : Free group)
    (profiled : Free profile) (identifier : String) :
    cut (itemComponents group profile identifier) =
      "item" :: group :: profile :: Text.split '\x00' identifier := by
  rw [itemComponents, cut_cons (by decide), cut_cons grouped, cut_cons profiled, cut_singleton]

theorem cut_taskComponents {item : String} (made : Free item) (node : String) :
    cut (taskComponents item node) = "task" :: item :: Text.split '\x00' node := by
  rw [taskComponents, cut_cons (by decide), cut_cons made, cut_singleton]

/-! ### Digits of identities -/

theorem digitChar_injective {first second : Nat} (small : first < 16) (smallToo : second < 16)
    (same : Nat.digitChar first = Nat.digitChar second) : first = second := by
  have injective : ∀ first < 16, ∀ second < 16,
      Nat.digitChar first = Nat.digitChar second → first = second := by decide
  exact injective first small second smallToo same

theorem hexDigits_injective : Function.Injective hexDigits := by
  intro first second same
  have bound := first.toNat_lt
  have boundToo := second.toNat_lt
  rw [hexDigits, hexDigits, List.cons.injEq, List.cons.injEq] at same
  have high : first.toNat / 16 = second.toNat / 16 :=
    digitChar_injective (by omega) (by omega) same.1
  have low : first.toNat % 16 = second.toNat % 16 :=
    digitChar_injective (by omega) (by omega) same.2.1
  rw [← UInt8.toNat_inj]
  omega

theorem flatMap_hexDigits_injective {first second : List UInt8}
    (same : first.flatMap hexDigits = second.flatMap hexDigits) : first = second := by
  induction first generalizing second with
  | nil =>
    cases second with
    | nil => rfl
    | cons byte rest => cases same
  | cons byte rest inductionHypothesis =>
    cases second with
    | nil => cases same
    | cons other others =>
      rw [List.flatMap_cons, List.flatMap_cons] at same
      obtain ⟨here, later⟩ := List.append_inj same rfl
      rw [hexDigits_injective here, inductionHypothesis later]

/-- Identities are the same where the digests begin alike. -/
theorem ofComponents_eq_iff : ofComponents first = ofComponents second ↔
    (Digest.digest (stream first)).take keptBytes =
      (Digest.digest (stream second)).take keptBytes := by
  constructor
  · intro same
    exact flatMap_hexDigits_injective (String.ofList_injective same)
  · intro same
    rw [ofComponents, ofComponents, same]

theorem exists_digit {components : List String} {letter : Char}
    (member : letter ∈ (ofComponents components).toList) :
    ∃ number < 16, letter = Nat.digitChar number := by
  rw [ofComponents, String.toList_ofList, List.mem_flatMap] at member
  obtain ⟨byte, -, member⟩ := member
  rw [hexDigits, List.mem_pair] at member
  have bound := byte.toNat_lt
  rcases member with high | low
  · exact ⟨byte.toNat / 16, by omega, high⟩
  · exact ⟨byte.toNat % 16, by omega, low⟩

theorem free_ofComponents (components : List String) : Free (ofComponents components) := by
  intro zero
  obtain ⟨number, small, same⟩ := exists_digit zero
  have never : ∀ number < 16, '\x00' ≠ Nat.digitChar number := by decide
  exact never number small same

/-! ### Items and tasks -/

theorem eq_of_cut_itemComponents {group profile identifier other mode name : String}
    (grouped : Free group) (profiled : Free profile) (groupedToo : Free other)
    (profiledToo : Free mode)
    (same : cut (itemComponents group profile identifier) = cut (itemComponents other mode name)) :
    (group, profile, identifier) = (other, mode, name) := by
  rw [cut_itemComponents grouped profiled, cut_itemComponents groupedToo profiledToo] at same
  simp only [List.cons.injEq, true_and] at same
  rw [same.1, same.2.1, Text.split_injective same.2.2]

theorem eq_of_cut_taskComponents {item node other target : String} (made : Free item)
    (madeToo : Free other)
    (same : cut (taskComponents item node) = cut (taskComponents other target)) :
    (item, node) = (other, target) := by
  rw [cut_taskComponents made, cut_taskComponents madeToo] at same
  simp only [List.cons.injEq, true_and] at same
  rw [same.1, Text.split_injective same.2]

/-- The leading word keeps tasks and items apart, whatever the other components. -/
theorem cut_taskComponents_ne (item node group profile identifier : String) :
    cut (taskComponents item node) ≠ cut (itemComponents group profile identifier) := by
  have tasks : cut (taskComponents item node) = "task" :: cut [item, node] :=
    cut_cons (by decide) _
  have items : cut (itemComponents group profile identifier) =
      "item" :: cut [group, profile, identifier] := cut_cons (by decide) _
  rw [tasks, items, Ne, List.cons.injEq, not_and_or]
  exact .inl (by decide)

/-- In the group and in the profile a zero does harm: it may end the one or belong to the other. -/
theorem stream_itemComponents_move (before between after identifier : String) :
    stream (itemComponents (before ++ "\x00" ++ between) after identifier) =
      stream (itemComponents before (between ++ "\x00" ++ after) identifier) := by
  simp only [stream_eq, closed, itemComponents, List.flatMap_cons, String.toList_append,
    List.append_assoc]
  rfl

/-! ### What the bytes identify -/

/-- Two different streams have digests that begin alike, so that identities made of them are the
same. -/
structure Collide (first second : List UInt8) : Prop where
  apart : first ≠ second
  alike : (Digest.digest first).take keptBytes = (Digest.digest second).take keptBytes

theorem ofComponents_eq_iff_or : ofComponents first = ofComponents second ↔
    cut first = cut second ∨ Collide (stream first) (stream second) := by
  rw [ofComponents_eq_iff, ← stream_eq_iff]
  constructor
  · intro alike
    by_cases same : stream first = stream second
    · exact .inl same
    · exact .inr ⟨same, alike⟩
  · rintro (same | collide)
    · rw [same]
    · exact collide.alike

/-- What is admitted is told by the bytes that are digested for it, and shares an identity with
something else only where these bytes collide with those of the other. -/
structure Identifies {α : Type} (components : α → List String) (admitted : α → Prop) : Prop where
  bytes : ∀ first second, admitted first → admitted second →
    (stream (components first) = stream (components second) ↔ first = second)
  identity : ∀ first second, admitted first → admitted second →
    (ofComponents (components first) = ofComponents (components second) ↔
      first = second ∨ Collide (stream (components first)) (stream (components second)))

theorem Identifies.of_cut {α : Type} {components : α → List String} {admitted : α → Prop}
    (told : ∀ first second, admitted first → admitted second →
      cut (components first) = cut (components second) → first = second) :
    Identifies components admitted where
  bytes first second admits admitsToo := by
    rw [stream_eq_iff]
    exact ⟨told first second admits admitsToo, congrArg (cut ∘ components)⟩
  identity first second admits admitsToo := by
    rw [ofComponents_eq_iff_or]
    exact or_congr_left ⟨told first second admits admitsToo, congrArg (cut ∘ components)⟩

/-- The bytes that are digested tell the components where there are no zeros in these. They tell
the group, the profile and the identifier of an item where there are none in the group and in the
profile, and the item and the node of a task where the item is an identity made of components,
whatever the node is. No task has the bytes of an item. So identities coincide only where two
different streams have digests that begin alike. -/
theorem streams_identify :
    Identifies id (fun components => ∀ component ∈ components, Free component) ∧
    Identifies (fun (group, profile, identifier) => itemComponents group profile identifier)
      (fun (group, profile, _) => Free group ∧ Free profile) ∧
    Identifies (fun (item, node) => taskComponents item node)
      (fun (item, _) => ∃ components, item = ofComponents components) ∧
    ∀ item node group profile identifier,
      stream (taskComponents item node) ≠ stream (itemComponents group profile identifier) ∧
      (task item node = Identity.item group profile identifier ↔
        Collide (stream (taskComponents item node))
          (stream (itemComponents group profile identifier))) := by
  refine ⟨.of_cut ?_, .of_cut ?_, .of_cut ?_, fun item node group profile identifier => ⟨?_, ?_⟩⟩
  · intro first second free freeToo same
    rwa [id, id, cut_of_free free, cut_of_free freeToo] at same
  · rintro ⟨group, profile, identifier⟩ ⟨other, mode, name⟩ ⟨grouped, profiled⟩
      ⟨groupedToo, profiledToo⟩ same
    exact eq_of_cut_itemComponents grouped profiled groupedToo profiledToo same
  · rintro ⟨_, node⟩ ⟨_, target⟩ ⟨made, rfl⟩ ⟨madeToo, rfl⟩ same
    exact eq_of_cut_taskComponents (free_ofComponents made) (free_ofComponents madeToo) same
  · rw [Ne, stream_eq_iff]
    exact cut_taskComponents_ne item node group profile identifier
  · rw [task, Identity.item, ofComponents_eq_iff_or]
    exact or_iff_right (cut_taskComponents_ne item node group profile identifier)

theorem streams_identify_zero :
    stream (itemComponents "ROOT" "dev" "1\x00") ≠ stream (itemComponents "ROOT" "dev" "1") ∧
    stream (taskComponents (Identity.item "ROOT" "dev" "1") (Plan.nodeId 1)) ≠
      stream (taskComponents (Identity.item "ROOT" "dev" "1") (Plan.nodeId 2)) ∧
    stream ["ab", "c"] ≠ stream ["a", "bc"] := by
  obtain ⟨lists, items, tasks, -⟩ := streams_identify
  refine ⟨fun same => ?_, fun same => ?_, fun same => ?_⟩
  · have equal := (items.bytes ("ROOT", "dev", "1\x00") ("ROOT", "dev", "1")
      ⟨by decide, by decide⟩ ⟨by decide, by decide⟩).mp same
    exact absurd equal (by decide)
  · have equal := (tasks.bytes (Identity.item "ROOT" "dev" "1", Plan.nodeId 1)
      (Identity.item "ROOT" "dev" "1", Plan.nodeId 2) ⟨_, rfl⟩ ⟨_, rfl⟩).mp same
    exact absurd (congrArg Prod.snd equal) (by decide)
  · have equal := (lists.bytes ["ab", "c"] ["a", "bc"] (by decide) (by decide)).mp same
    exact absurd equal (by decide)

end Identity

/-! ### The runs of a plan -/

namespace Run

variable {plan : Plan}

theorem Arises.free {task : Task} (arises : Arises plan task) : Identity.Free task.id := by
  cases arises with
  | root set => exact (by decide : Identity.Free Identity.root)
  | further before spawned =>
    obtain ⟨_, _, _, _, follows⟩ := before.follows spawned
    rw [follows.eq]
    exact Identity.free_ofComponents _

/-- The profiles of the records that tasks bring have no zeros. -/
def ProfilesFree (plan : Plan) : Prop :=
  ∀ task, Arises plan task → ∀ record ∈ (task.perform plan).records, Identity.Free record.profile

theorem Digested.eq_of_cut (profiled : ProfilesFree plan) {first second : List String}
    (digested : Digested plan first) (digestedToo : Digested plan second)
    (same : Identity.cut first = Identity.cut second) : first = second := by
  cases digested with
  | item arises member =>
    cases digestedToo with
    | item arisesToo memberToo =>
      have equal := Identity.eq_of_cut_itemComponents arises.free (profiled _ arises _ member)
        arisesToo.free (profiled _ arisesToo _ memberToo) same
      exact congrArg (fun found => Identity.itemComponents found.1 found.2.1 found.2.2) equal
    | task arisesToo followsToo =>
      exact absurd same.symm (Identity.cut_taskComponents_ne _ _ _ _ _)
  | task arises follows =>
    cases digestedToo with
    | item arisesToo memberToo => exact absurd same (Identity.cut_taskComponents_ne _ _ _ _ _)
    | task arisesToo followsToo =>
      have equal := Identity.eq_of_cut_taskComponents (Identity.free_ofComponents _)
        (Identity.free_ofComponents _) same
      exact congrArg (fun spawned => Identity.taskComponents spawned.1 spawned.2) equal

/-- In the runs of a plan different components get different identities where the bytes that are
digested for them do not collide. -/
theorem collisionFree_iff (profiled : ProfilesFree plan) : CollisionFree plan ↔
    ∀ first second, Digested plan first → Digested plan second →
      ¬ Identity.Collide (Identity.stream first) (Identity.stream second) := by
  constructor
  · intro free first second digested digestedToo collide
    have equal := free first second digested digestedToo
      (Identity.ofComponents_eq_iff_or.mpr (.inr collide))
    exact collide.apart (congrArg Identity.stream equal)
  · intro apart first second digested digestedToo same
    rcases Identity.ofComponents_eq_iff_or.mp same with cuts | collide
    · exact digested.eq_of_cut profiled digestedToo cuts
    · exact absurd collide (apart first second digested digestedToo)

end Run

end PathQuery
