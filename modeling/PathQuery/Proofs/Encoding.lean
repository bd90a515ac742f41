/-
This file compares texts by their bytes. A character is encoded by its number in base 64: a leading
byte tells how many digits follow, and a greater number has more digits or greater ones. So the
bytes of two texts are in the order of the texts, and texts of the same bytes are the same. Numbers
written in the same decimal digits are the same too.
-/

import Mathlib.Data.String.Basic
import Mathlib.Order.Monotone.Basic

namespace PathQuery.Text

/-! ### The digits of a number -/

/-- Numbers written alike are the same: a number is read back from its digits. -/
theorem numeral_injective {first second : Nat} (same : first.repr = second.repr) :
    first = second := by
  have digits := congrArg String.toList same
  rw [Nat.toList_repr, Nat.toList_repr] at digits
  calc first = Nat.ofDigitChars 10 (Nat.toDigits 10 first) 0 := Nat.ofDigitChars_ten_toDigits.symm
    _ = Nat.ofDigitChars 10 (Nat.toDigits 10 second) 0 := by rw [digits]
    _ = second := Nat.ofDigitChars_ten_toDigits

/-! ### The bytes of a text -/

theorem toList_loop (bytes : ByteArray) (place : Nat) (taken : List UInt8) :
    ByteArray.toList.loop bytes place taken = taken.reverse ++ bytes.data.toList.drop place := by
  fun_induction ByteArray.toList.loop bytes place taken with
  | case1 place taken inside inductionHypothesis =>
    have next : bytes.data.toList.drop place =
        bytes.data[place] :: bytes.data.toList.drop (place + 1) :=
      List.drop_eq_getElem_cons inside
    rw [inductionHypothesis, next]
    simp [ByteArray.get!, inside]
  | case2 place taken outside =>
    have nothing : bytes.data.toList.drop place = [] :=
      List.drop_of_length_le (Nat.le_of_not_lt outside)
    rw [nothing, List.append_nil]

/-- A text is encoded character by character. -/
theorem toList_toUTF8 (text : String) :
    text.toUTF8.toList = text.toList.flatMap String.utf8EncodeChar := by
  rw [ByteArray.toList, toList_loop, String.toUTF8_eq_toByteArray, ← String.utf8Encode_toList,
    List.utf8Encode, List.toList_data_toByteArray]
  rfl

/-- Characters of the same bytes are the same. -/
theorem encode_injective {first second : List Char}
    (same : first.flatMap String.utf8EncodeChar = second.flatMap String.utf8EncodeChar) :
    first = second := by
  have encoded : first.utf8Encode = second.utf8Encode := congrArg List.toByteArray same
  rw [← String.toByteArray_ofList, ← String.toByteArray_ofList, String.toByteArray_inj] at encoded
  exact String.ofList_injective encoded

/-! ### The bytes of a character -/

/-- The last digits of a number in base 64, each in a byte that continues a character. -/
def digits : Nat → Nat → List UInt8
  | 0, _ => []
  | count + 1, number => UInt8.ofNat (number / 64 ^ count % 64 + 0x80) :: digits count number

/-- The least leading byte that so many digits follow. -/
def lead : Nat → Nat
  | 0 => 0
  | 1 => 0xc0
  | 2 => 0xe0
  | 3 => 0xf0
  | _ => 0xf8

/-- The least number for which so many digits follow the leading byte. -/
def least : Nat → Nat
  | 0 => 0
  | 1 => 0x80
  | 2 => 0x800
  | 3 => 0x10000
  | _ => 0x110000

/-- A table that ascends for the four forms of a character and does not change after them ascends
throughout. -/
theorem monotone_of_four {table : Nat → Nat}
    (ascends : ∀ count < 4, table count ≤ table (count + 1))
    (ends : ∀ count, table (count + 4) = table 4) : Monotone table := by
  refine monotone_nat_of_le_succ fun count => ?_
  rcases Nat.lt_or_ge count 4 with among | after
  · exact ascends count among
  · obtain ⟨further, rfl⟩ := Nat.exists_eq_add_of_le' after
    rw [Nat.add_right_comm, ends further, ends (further + 1)]

theorem lead_monotone : Monotone lead := monotone_of_four (by decide) fun _ => rfl

theorem least_monotone : Monotone least := monotone_of_four (by decide) fun _ => rfl

/-- So many digits follow the leading byte of a character. -/
structure Continues (letter : Char) (count : Nat) : Prop where
  few : count < 4
  least_le : least count ≤ letter.toNat
  lt_least : letter.toNat < least (count + 1)
  bytes : String.utf8EncodeChar letter =
    UInt8.ofNat (letter.toNat / 64 ^ count + lead count) :: digits count letter.toNat

theorem exists_continues (letter : Char) : ∃ count, Continues letter count := by
  have bound : letter.toNat < 0x110000 := by
    rcases letter.valid with low | ⟨-, high⟩
    · exact Nat.lt_trans low (by decide)
    · exact high
  by_cases one : letter.toNat ≤ 0x7f
  · refine ⟨0, by decide, Nat.zero_le _, Nat.lt_succ_of_le one, ?_⟩
    simp [String.utf8EncodeChar, digits, lead, one]
  by_cases two : letter.toNat ≤ 0x7ff
  · refine ⟨1, by decide, Nat.lt_of_not_le one, Nat.lt_succ_of_le two, ?_⟩
    have quotient : letter.toNat / 64 % 32 = letter.toNat / 64 := Nat.mod_eq_of_lt (by omega)
    simp [String.utf8EncodeChar, digits, lead, one, two, quotient]
  by_cases three : letter.toNat ≤ 0xffff
  · refine ⟨2, by decide, Nat.lt_of_not_le two, Nat.lt_succ_of_le three, ?_⟩
    have quotient : letter.toNat / 4096 % 16 = letter.toNat / 4096 := Nat.mod_eq_of_lt (by omega)
    simp [String.utf8EncodeChar, digits, lead, one, two, three, quotient]
  · refine ⟨3, by decide, Nat.lt_of_not_le three, bound, ?_⟩
    have quotient : letter.toNat / 262144 % 8 = letter.toNat / 262144 :=
      Nat.mod_eq_of_lt (by omega)
    simp [String.utf8EncodeChar, digits, lead, one, two, three, quotient]

/-- The leading byte tells how many digits follow. -/
theorem Continues.lead_lt {letter : Char} {count : Nat} (continues : Continues letter count) :
    letter.toNat / 64 ^ count + lead count < lead (count + 1) := by
  have below := continues.lt_least
  match count, continues.few with
  | 0, _ | 1, _ | 2, _ | 3, _ =>
    simp only [least, lead] at below ⊢
    omega

/-! ### The order of bytes -/

theorem compare_cons_of_lt {byte other : Nat} (less : byte < other) (small : other < 256)
    (rest others : List UInt8) :
    compare (UInt8.ofNat byte :: rest) (UInt8.ofNat other :: others) = .lt := by
  have apart : UInt8.ofNat byte < UInt8.ofNat other := by
    rw [UInt8.lt_iff_toNat_lt, UInt8.toNat_ofNat', UInt8.toNat_ofNat', Nat.mod_eq_of_lt small,
      Nat.mod_eq_of_lt (Nat.lt_trans less small)]
    exact less
  rw [List.compare_cons_cons, Std.compare_eq_lt.mpr apart]
  rfl

theorem compare_append (front first second : List UInt8) :
    compare (front ++ first) (front ++ second) = compare first second := by
  induction front with
  | nil => rfl
  | cons byte front inductionHypothesis =>
    rw [List.cons_append, List.cons_append, List.compare_cons_cons, Std.ReflOrd.compare_self]
    exact inductionHypothesis

/-- Of two numbers that agree before their last digits the lesser one has the lesser last digits. -/
theorem compare_digits {number other : Nat} (less : number < other) (rest others : List UInt8)
    {count : Nat} (agree : number / 64 ^ count = other / 64 ^ count) :
    compare (digits count number ++ rest) (digits count other ++ others) = .lt := by
  induction count with
  | zero =>
    rw [Nat.pow_zero, Nat.div_one, Nat.div_one] at agree
    exact absurd agree (Nat.ne_of_lt less)
  | succ count inductionHypothesis =>
    rw [Nat.pow_succ, ← Nat.div_div_eq_div_mul, ← Nat.div_div_eq_div_mul] at agree
    rw [digits, digits, List.cons_append, List.cons_append]
    rcases Nat.lt_or_eq_of_le (Nat.div_le_div_right (c := 64 ^ count) less.le) with here | later
    · exact compare_cons_of_lt (by omega) (by omega) _ _
    · rw [later, List.compare_cons_cons, Std.ReflOrd.compare_self]
      exact inductionHypothesis later

/-- Characters are in the order of their bytes, whatever follows them. -/
theorem compare_encode {letter other : Char} (less : letter < other) (rest others : List UInt8) :
    compare (String.utf8EncodeChar letter ++ rest) (String.utf8EncodeChar other ++ others) =
      .lt := by
  have below : letter.toNat < other.toNat := less
  obtain ⟨count, continues⟩ := exists_continues letter
  obtain ⟨number, continuesToo⟩ := exists_continues other
  have small : other.toNat / 64 ^ number + lead number < 256 :=
    Nat.lt_trans (Nat.lt_of_lt_of_le continuesToo.lead_lt (lead_monotone continuesToo.few))
      (by decide)
  rw [continues.bytes, continuesToo.bytes, List.cons_append, List.cons_append]
  -- A leading byte with fewer digits after it is less. With as many, the number before its last
  -- digits goes into the leading byte.
  rcases Nat.lt_trichotomy count number with fewer | rfl | more
  · have leading : letter.toNat / 64 ^ count + lead count < lead number :=
      Nat.lt_of_lt_of_le continues.lead_lt (lead_monotone fewer)
    exact compare_cons_of_lt (Nat.lt_add_left _ leading) small _ _
  · rcases Nat.lt_or_eq_of_le (Nat.div_le_div_right (c := 64 ^ count) below.le) with here | later
    · exact compare_cons_of_lt (Nat.add_lt_add_right here _) small _ _
    · rw [later, List.compare_cons_cons, Std.ReflOrd.compare_self]
      exact compare_digits below rest others later
  · have above : other.toNat < letter.toNat :=
      Nat.lt_of_lt_of_le continuesToo.lt_least
        (Nat.le_trans (least_monotone more) continues.least_le)
    exact absurd below (Nat.lt_asymm above)

/-! ### The order of texts -/

theorem compare_flatMap_encode {first second : List Char} (less : first < second) :
    compare (first.flatMap String.utf8EncodeChar) (second.flatMap String.utf8EncodeChar) = .lt := by
  induction less with
  | @nil letter rest =>
    obtain ⟨_, continues⟩ := exists_continues letter
    rw [List.flatMap_cons, continues.bytes]
    rfl
  | rel less =>
    rw [List.flatMap_cons, List.flatMap_cons]
    exact compare_encode less _ _
  | cons less inductionHypothesis =>
    rw [List.flatMap_cons, List.flatMap_cons, compare_append]
    exact inductionHypothesis

/-- Texts are in the order of their bytes. -/
theorem compare_toUTF8 (first second : String) :
    compare first.toUTF8.toList second.toUTF8.toList = compare first second := by
  have before : ∀ {first second : String}, first < second →
      compare first.toUTF8.toList second.toUTF8.toList = compare first second := by
    intro first second less
    rw [toList_toUTF8, toList_toUTF8, compare_flatMap_encode less]
    exact (compareOfLessAndEq_eq_lt.mpr less).symm
  rcases lt_trichotomy first second with less | rfl | greater
  · exact before less
  · rw [Std.ReflOrd.compare_self, Std.ReflOrd.compare_self]
  · rw [Std.OrientedOrd.eq_swap, before greater, ← Std.OrientedOrd.eq_swap]

end PathQuery.Text
