/-
This file compares the two ways in which a text names a type. To describe types, a text is taken for
a written form first and for a name otherwise; to find a path, a dot in it always sets off a
namespace. So both understand a text alike, except one with a dot that is the name of a single type
and the written form of none.
-/

import PathQuery.CommandLine.Run
import PathQuery.Proofs.BareNames
import PathQuery.Proofs.Stops

namespace PathQuery

/-! ### Where a text is cut -/

namespace Text

theorem splitFirst_eq_none_iff {mark : Char} {text : List Char} :
    splitFirst mark text = none ↔ mark ∉ text := by
  constructor
  · intro whole member
    obtain ⟨before, after, rfl, free⟩ := List.eq_append_cons_of_mem member
    cases (splitFirst_append after free).symm.trans whole
  · intro free
    refine Option.eq_none_iff_forall_ne_some.mpr fun halves cut => free ?_
    rw [← append_of_splitFirst cut]
    exact List.mem_append_right _ List.mem_cons_self

end Text

/-- A text with a dot is a type as it would be written, cut at the first one. -/
theorem ResourceType.exists_text_eq {text : String} (dotted : '.' ∈ text.toList) :
    ∃ kind : ResourceType, kind.Dotless ∧ kind.text = text := by
  obtain ⟨before, after, split, free⟩ := List.eq_append_cons_of_mem dotted
  refine ⟨⟨String.ofList before, String.ofList after⟩, ?_, ?_⟩
  · rwa [Dotless, String.toList_ofList]
  · rw [← String.toList_inj, split]
    simp only [ResourceType.text, String.toList_append, String.toList_ofList, List.append_assoc]
    rfl

namespace CommandLine

theorem mentionOf_text {kind : ResourceType} (dotless : kind.Dotless) :
    mentionOf kind.text = .qualified kind.space kind.name := by
  rw [mentionOf, dotless.splitFirst]
  simp only [String.ofList_toList]

theorem mentionOf_of_dotless {text : String} (free : '.' ∉ text.toList) :
    mentionOf text = .bare text := by
  rw [mentionOf, Text.splitFirst_eq_none_iff.mpr free]

end CommandLine

namespace Topology

open CommandLine (mentionOf mentionOf_of_dotless mentionOf_text)
open Schema (TypeDecl LinkDecl declared)

/-! ### Types by their names -/

/-- Of several types one alone has a name. -/
structure Sole (kinds : List ResourceType) (name : String) (kind : ResourceType) : Prop where
  member : kind ∈ kinds
  named : kind.name = name
  unique : ∀ other ∈ kinds, other.name = name → other = kind

variable {topology : Topology} {types : List TypeDecl} {links : List LinkDecl} {text : String}
  {kind : ResourceType}

theorem spaces_of_spacesOf {name : String} {spaces : List String}
    (listed : topology.spacesOf name = .ok spaces) : topology.spaces name = spaces := by
  rw [spacesOf] at listed
  split at listed
  · cases listed
  · exact Except.ok.inj listed

theorem dot_mem_text (kind : ResourceType) : '.' ∈ kind.text.toList := by
  rw [ResourceType.text, String.toList_append, String.toList_append]
  exact List.mem_append_left _ (List.mem_append_right _ (List.mem_singleton_self _))

theorem isWritten_of_declared (member : kind ∈ declared types) : kind.IsWritten kind.text := by
  obtain ⟨decl, -, isWritten⟩ := mem_declared.mp member
  exact isWritten.text ▸ isWritten

namespace Holds

theorem contains_iff (holds : Holds types links topology) (dotless : kind.Dotless) :
    topology.contains kind = true ↔ kind ∈ declared types :=
  (holds.tells kind dotless).contains_iff

theorem contains_of_declared (holds : Holds types links topology) (member : kind ∈ declared types) :
    topology.contains kind = true :=
  (holds.contains_iff (isWritten_of_declared member).dotless).mpr member

theorem mem_spaces_iff (holds : Holds types links topology) {space name : String} :
    space ∈ topology.spaces name ↔ ⟨space, name⟩ ∈ declared types := by
  rw [holds.spaces_iff, mem_declared]

/-- A single namespace is listed for a name exactly where one type alone has it. -/
theorem spaces_eq_singleton_iff (holds : Holds types links topology) {space name : String} :
    topology.spaces name = [space] ↔ Sole (declared types) name ⟨space, name⟩ := by
  constructor
  · intro only
    refine ⟨holds.mem_spaces_iff.mp (only ▸ List.mem_singleton_self space), rfl, ?_⟩
    rintro ⟨other, _⟩ member rfl
    have listed := holds.mem_spaces_iff.mpr member
    rw [only, List.mem_singleton] at listed
    rw [listed]
  · intro sole
    refine (holds.spaces_ascending name).eq_of_mem_iff (List.pairwise_singleton _ _)
      fun other => ?_
    rw [holds.mem_spaces_iff, List.mem_singleton]
    constructor
    · intro member
      exact congrArg ResourceType.space (sole.unique _ member rfl)
    · rintro rfl
      exact sole.member

/-! ### What a mention stands for -/

/-- A text with a dot mentions the type that it is the written form of, and no other. -/
theorem resolve_of_dot_iff (holds : Holds types links topology) (dotted : '.' ∈ text.toList) :
    (mentionOf text).resolve topology = .ok kind ↔ kind ∈ declared types ∧ kind.text = text := by
  obtain ⟨cut, dotless, rfl⟩ := ResourceType.exists_text_eq dotted
  rw [mentionOf_text dotless]
  constructor
  · intro resolved
    cases Plan.denotes_of_resolve resolved with
    | qualified _ _ known => exact ⟨(holds.contains_iff dotless).mp known, rfl⟩
  · rintro ⟨member, same⟩
    have isWritten := isWritten_of_declared member
    obtain rfl := ResourceType.eq_of_text_eq isWritten.dotless dotless same
    exact Plan.resolve_of_denotes (.qualified isWritten.spaced isWritten.named
      (holds.contains_of_declared member))

/-- A text without a dot mentions the type that alone has it as its name. -/
theorem resolve_of_dotless_iff (holds : Holds types links topology) (free : '.' ∉ text.toList) :
    (mentionOf text).resolve topology = .ok kind ↔ Sole (declared types) text kind := by
  rw [mentionOf_of_dotless free]
  constructor
  · intro resolved
    cases Plan.denotes_of_resolve resolved with
    | bare _ only _ => exact holds.spaces_eq_singleton_iff.mp only
  · intro sole
    obtain ⟨space, name⟩ := kind
    obtain rfl := sole.named
    exact Plan.resolve_of_denotes (.bare (isWritten_of_declared sole.member).named
      (holds.spaces_eq_singleton_iff.mpr sole) (holds.contains_of_declared sole.member))

/-! ### What is described -/

/-- A written form is described as its type. -/
theorem typesNamed_of_written (holds : Holds types links topology)
    (member : kind ∈ declared types) : topology.typesNamed kind.text = .ok [kind] := by
  rw [typesNamed, ResourceType.ofText?_eq_some_iff.mpr (isWritten_of_declared member),
    Option.filter_some, if_pos (holds.contains_of_declared member)]

/-- Any other text is described as all types that have it as their name. -/
theorem typesNamed_of_unwritten (holds : Holds types links topology)
    (unwritten : ¬ ∃ kind ∈ declared types, kind.text = text) :
    topology.typesNamed text = (topology.spacesOf text).map (·.map (⟨·, text⟩)) := by
  have none : (ResourceType.ofText? text).filter topology.contains = none := by
    refine Option.eq_none_iff_forall_ne_some.mpr fun kind found => unwritten ?_
    obtain ⟨read, known⟩ := Option.filter_eq_some_iff.mp found
    have isWritten := ResourceType.ofText?_eq_some_iff.mp read
    exact ⟨kind, (holds.contains_iff isWritten.dotless).mp known, isWritten.text⟩
  rw [typesNamed, none]

/-- A text that is no written form is described as one type exactly where that alone has the
name. -/
theorem typesNamed_eq_singleton_iff (holds : Holds types links topology)
    (unwritten : ¬ ∃ kind ∈ declared types, kind.text = text) :
    topology.typesNamed text = .ok [kind] ↔ Sole (declared types) text kind := by
  rw [holds.typesNamed_of_unwritten unwritten]
  constructor
  · intro described
    obtain ⟨spaces, listed, same⟩ := map_eq_ok described
    obtain ⟨space, rfl, rfl⟩ := List.map_eq_singleton_iff.mp same
    exact holds.spaces_eq_singleton_iff.mp (spaces_of_spacesOf listed)
  · intro sole
    obtain ⟨space, name⟩ := kind
    obtain rfl := sole.named
    rw [spacesOf, holds.spaces_eq_singleton_iff.mpr sole]
    rfl

/-- Whatever a text mentions, it is described as that type alone. -/
theorem typesNamed_of_resolve (holds : Holds types links topology)
    (resolved : (mentionOf text).resolve topology = .ok kind) :
    topology.typesNamed text = .ok [kind] := by
  by_cases dotted : '.' ∈ text.toList
  · obtain ⟨member, rfl⟩ := (holds.resolve_of_dot_iff dotted).mp resolved
    exact holds.typesNamed_of_written member
  · refine (holds.typesNamed_eq_singleton_iff ?_).mpr
      ((holds.resolve_of_dotless_iff dotted).mp resolved)
    rintro ⟨other, -, rfl⟩
    exact dotted (dot_mem_text other)

/-- A text that is described as one type mentions it, unless the text has a dot and is a name. -/
theorem resolve_of_typesNamed (holds : Holds types links topology)
    (written : '.' ∈ text.toList → Sole (declared types) text kind →
      ∃ other ∈ declared types, other.text = text)
    (described : topology.typesNamed text = .ok [kind]) :
    (mentionOf text).resolve topology = .ok kind := by
  by_cases form : ∃ other ∈ declared types, other.text = text
  · obtain ⟨other, member, rfl⟩ := form
    cases (holds.typesNamed_of_written member).symm.trans described
    exact (holds.resolve_of_dot_iff (dot_mem_text kind)).mpr ⟨member, rfl⟩
  · have sole := (holds.typesNamed_eq_singleton_iff form).mp described
    by_cases dotted : '.' ∈ text.toList
    · exact absurd (written dotted sole) form
    · exact (holds.resolve_of_dotless_iff dotted).mpr sole

end Holds

/-! ### Names that are understood alike -/

section

variable {items : List Schema.Items} {documents : List Schema.Links}

/-- To describe types and to find a path, names are understood alike, but for one kind of text. What
cannot be described cannot be a mention either. What is described as one type is a mention of it,
unless the text has a dot, that type alone has it as its name, and no type has it as its written
form: the mention then stands for nothing. -/
theorem names_understood_exactly (built : build items documents = .ok topology) (text : String) :
    (∀ error, topology.typeDetail text = .error error →
      ∃ reason, (mentionOf text).resolve topology = .error reason) ∧
    ((∀ kind, topology.typesNamed text = .ok [kind] →
        (mentionOf text).resolve topology = .ok kind) ↔
      ∀ kind, '.' ∈ text.toList → Sole (declared (items.flatMap (·.types))) text kind →
        ∃ other ∈ declared (items.flatMap (·.types)), other.text = text) := by
  have holds := (linksAdded_of_build built).2.holds
  refine ⟨fun error refused => ?_, fun alike kind dotted sole => ?_,
    fun written kind described => holds.resolve_of_typesNamed (written kind) described⟩
  · cases resolved : (mentionOf text).resolve topology with
    | error reason => exact ⟨reason, rfl⟩
    | ok kind =>
      rw [typeDetail, holds.typesNamed_of_resolve resolved] at refused
      cases refused
  · by_contra form
    have described := (holds.typesNamed_eq_singleton_iff form).mpr sole
    obtain ⟨member, same⟩ := (holds.resolve_of_dot_iff dotted).mp (alike kind described)
    exact form ⟨kind, member, same⟩

/-- The name of one type is the written form of another. -/
def bothForms : List Schema.Items :=
  [⟨[⟨"k8s.apps.deployment", []⟩, ⟨"apps.deployment", []⟩]⟩]

theorem names_understood_exactly_bothForms : ∃ topology, build bothForms [] = .ok topology ∧
    topology.typesNamed "apps.deployment" = .ok [⟨"apps", "deployment"⟩] ∧
    (mentionOf "apps.deployment").resolve topology = .ok ⟨"apps", "deployment"⟩ := by
  have read : ResourceType.IsWritten ⟨"apps", "deployment"⟩ "apps.deployment" :=
    ResourceType.ofText?_eq_some_iff.mp (by cbv)
  have member : (⟨"apps", "deployment"⟩ : ResourceType) ∈ declared (bothForms.flatMap (·.types)) :=
    mem_declared.mpr ⟨_, List.mem_cons_of_mem _ List.mem_cons_self, read⟩
  have built : build bothForms [] = .ok
      ⟨(Dict.empty.insert "k8s.apps.deployment" ⟨⟨"k8s", "apps.deployment"⟩, []⟩).insert
        "apps.deployment" ⟨⟨"apps", "deployment"⟩, []⟩, []⟩ :=
    rfl
  have described := (linksAdded_of_build built).2.holds.typesNamed_of_written member
  exact ⟨_, built, described, (names_understood_exactly built "apps.deployment").2.mpr
    (fun _ _ _ => ⟨_, member, read.text⟩) _ described⟩

/-- A type has a dot in its name, and nothing else has that name. -/
def dottedName : List Schema.Items :=
  [⟨[⟨"k8s.apps.deployment", [⟨"id", false⟩]⟩]⟩]

/-- The name is described as the type, but mentions nothing. -/
theorem dottedName_misunderstood : ∃ topology, build dottedName [] = .ok topology ∧
    topology.typesNamed "apps.deployment" = .ok [⟨"k8s", "apps.deployment"⟩] ∧
    topology.typeDetail "apps.deployment" = .ok "k8s.apps.deployment\n  attrs: id\n" ∧
    (mentionOf "apps.deployment").resolve topology =
      .error (.topology (.unknownType ⟨"apps", "deployment"⟩)) := by
  have read : ResourceType.ofText? "apps.deployment" = some ⟨"apps", "deployment"⟩ := by cbv
  refine ⟨⟨Dict.empty.insert "k8s.apps.deployment" ⟨⟨"k8s", "apps.deployment"⟩, ["id"]⟩, []⟩,
    rfl, ?_, ?_, rfl⟩
  · rw [typesNamed, read]
    rfl
  · rw [typeDetail, typesNamed, read]
    rfl

end

end Topology

end PathQuery
