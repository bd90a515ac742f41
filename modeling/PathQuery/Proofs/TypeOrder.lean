/-
This file says how the order of types goes with their written forms. Types are compared by the
bytes of their written forms, so types that are written alike share a place in the order. No two
types that are read from texts are written alike: among them the order tells what equality tells,
and the table of types, which is kept in that order, takes the same types for one as the table of
links does.
-/

import PathQuery.Proofs.BareNames
import PathQuery.Proofs.Encoding

namespace PathQuery

namespace ResourceType

/-- The bytes that types are compared by: those of the namespace, a dot, and those of the name. -/
def key (kind : ResourceType) : List UInt8 :=
  kind.space.toUTF8.toList ++ '.'.toUInt8 :: kind.name.toUTF8.toList

/-- A text has a dot, and something stands before the first one and after it. -/
def IsDivided (text : String) : Prop :=
  ∃ before after, text = before ++ "." ++ after ∧ '.' ∉ before.toList ∧ before ≠ "" ∧ after ≠ ""

/-- Some text is read as a type. -/
def IsRead (kind : ResourceType) : Prop := ∃ text, ofText? text = some kind

variable {first second : ResourceType}

instance (kind : ResourceType) : Decidable kind.Dotless := inferInstanceAs (Decidable (_ ∉ _))

theorem isDivided_iff {text : String} :
    IsDivided text ↔ ∃ kind : ResourceType, kind.IsWritten text := by
  constructor
  · rintro ⟨before, after, rfl, dotless, spaced, named⟩
    exact ⟨⟨before, after⟩, spaced, named, dotless, rfl⟩
  · rintro ⟨⟨space, name⟩, spaced, named, dotless, rfl⟩
    exact ⟨space, name, rfl, dotless, spaced, named⟩

theorem IsRead.dotless {kind : ResourceType} (read : kind.IsRead) : kind.Dotless := by
  obtain ⟨text, read⟩ := read
  exact dotless_of_ofText? read

/-- The bytes that types are compared by are those of their written forms. -/
theorem key_eq (kind : ResourceType) : kind.key = kind.text.toUTF8.toList := by
  rw [key, text, Text.toList_toUTF8, Text.toList_toUTF8, Text.toList_toUTF8, String.toList_append,
    String.toList_append, List.flatMap_append, List.flatMap_append, List.append_assoc]
  rfl

theorem compare_eq_compare_key (first second : ResourceType) :
    compare first second = compare first.key second.key := by
  rw [key_eq, key_eq, Text.compare_toUTF8]
  rfl

instance : Std.TransOrd ResourceType := inferInstanceAs (Std.TransCmp (compareOn text))

/-- Types share a place in the order where they are written alike. -/
theorem compare_eq_eq_iff : compare first second = .eq ↔ first.text = second.text :=
  Std.LawfulEqOrd.compare_eq_iff_eq (α := String)

theorem IsRead.compare_eq_eq_iff (read : first.IsRead) (readToo : second.IsRead) :
    compare first second = .eq ↔ first = second := by
  rw [ResourceType.compare_eq_eq_iff]
  exact ⟨eq_of_text_eq read.dotless readToo.dotless, congrArg text⟩

end ResourceType

namespace Topology

/-- Tables take two types for one exactly where these are the same, the table of types as well as
that of links. -/
structure Tables.TellsApart (tables : Tables) (first second : ResourceType) : Prop where
  types : ∀ attrs, (tables.withType first attrs).types.get? second.text =
    if second = first then some ⟨first, attrs⟩ else tables.types.get? second.text
  links : ∀ target mapping, (tables.withLink first target mapping).linksFrom second =
    tables.linksFrom second ++ if second = first then [(target, mapping)] else []

/-- The table of types takes those for one that share a place in the order. -/
theorem Tables.get?_withType (tables : Tables) (first second : ResourceType)
    (attrs : List String) : (tables.withType first attrs).types.get? second.text =
      if compare second first = .eq then some ⟨first, attrs⟩
      else tables.types.get? second.text := by
  rw [withType, Dict.get?_insert]
  simp only [ResourceType.compare_eq_eq_iff]

theorem Tables.tellsApart (tables : Tables) {first second : ResourceType} (read : first.IsRead)
    (readToo : second.IsRead) : tables.TellsApart first second where
  types attrs := by
    rw [get?_withType]
    simp only [readToo.compare_eq_eq_iff read]
  links target mapping := linksFrom_withLink tables first target mapping second

end Topology

open ResourceType

/-- Reading, writing and comparing types fit together. A text is read as a type exactly where
something stands before and after its first dot, and the type is written as that text. A type with
a name, and with a namespace in which there is no dot, is read back from its written form. Types
are compared by the bytes of their written forms, which orders them up to being written alike; of
types that are read the order tells whether they are the same, and so every table of types and
every table of links take the same ones for one. -/
theorem ResourceType.written_forms_identify :
    (∀ text, ((ofText? text).isSome = true ↔ IsDivided text) ∧
      ∀ kind, ofText? text = some kind → kind.text = text) ∧
    (∀ kind : ResourceType, kind.space ≠ "" → kind.Dotless → kind.name ≠ "" →
      ofText? kind.text = some kind) ∧
    (∀ first second : ResourceType,
      compare first second = compare first.text.toUTF8.toList second.text.toUTF8.toList ∧
      compare first second = compare first.key second.key ∧
      compare second first = (compare first second).swap ∧
      ((compare first second).isLE = true ∨ (compare second first).isLE = true) ∧
      ∀ third : ResourceType, (compare first second).isLE = true →
        (compare second third).isLE = true → (compare first third).isLE = true) ∧
    ∀ first second : ResourceType, first.IsRead → second.IsRead →
      (compare first second = .eq ↔ first = second) ∧
      ∀ tables : Topology.Tables, tables.TellsApart first second := by
  refine ⟨fun text => ⟨?_, fun kind read => (ofText?_eq_some_iff.mp read).text⟩,
    fun kind spaced dotless named => ofText?_eq_some_iff.mpr ⟨spaced, named, dotless, rfl⟩,
    fun first second => ⟨(Text.compare_toUTF8 _ _).symm, compare_eq_compare_key first second,
      Std.OrientedOrd.eq_swap, ?_, fun third => Std.TransOrd.isLE_trans⟩,
    fun first second read readToo =>
      ⟨read.compare_eq_eq_iff readToo, fun tables => tables.tellsApart read readToo⟩⟩
  · rw [Option.isSome_iff_exists, isDivided_iff]
    exact exists_congr fun kind => ofText?_eq_some_iff
  · rw [Std.OrientedOrd.eq_swap (a := second)]
    cases compare first second <;> decide

theorem ResourceType.written_forms_identify_accented :
    ofText? "é.apps.v1" = some ⟨"é", "apps.v1"⟩ ∧
    compare (⟨"é", "apps.v1"⟩ : ResourceType) ⟨"é", "x"⟩ ≠ .eq ∧
    ∀ attrs, (Topology.Tables.empty.withType ⟨"é", "x"⟩ attrs).types.get? "é.apps.v1" = none := by
  obtain ⟨-, written, -, agree⟩ := written_forms_identify
  have dotted : ofText? "é.apps.v1" = some ⟨"é", "apps.v1"⟩ :=
    written ⟨"é", "apps.v1"⟩ (by decide) (by decide) (by decide)
  have plain : ofText? "é.x" = some ⟨"é", "x"⟩ :=
    written ⟨"é", "x"⟩ (by decide) (by decide) (by decide)
  obtain ⟨equal, -⟩ := agree ⟨"é", "apps.v1"⟩ ⟨"é", "x"⟩ ⟨_, dotted⟩ ⟨_, plain⟩
  obtain ⟨-, apart⟩ := agree ⟨"é", "x"⟩ ⟨"é", "apps.v1"⟩ ⟨_, plain⟩ ⟨_, dotted⟩
  refine ⟨dotted, fun same => absurd (equal.mp same) (by decide), fun attrs => ?_⟩
  have missing := (apart Topology.Tables.empty).types attrs
  rwa [if_neg (by decide)] at missing

/-- Types that are not read from texts may share a place in the order. -/
example : compare (⟨"a.b", "c"⟩ : ResourceType) ⟨"a", "b.c"⟩ = .eq := by decide

end PathQuery
