/-
This file says which documents hold rows. A document can be read for any value, or for a list of
objects in particular. The second reading succeeds exactly where the first one gives an array of
which every item is an object, and it gives the members of these objects.
-/

import PathQuery.Json.Reader
import PathQuery.Proofs.Steps

namespace PathQuery.Json

open Text (Remaining)

variable {α β γ : Type}

/-! ### Narrower readings -/

/-- A reading that takes from a text what another one takes, but only where that wraps what can be
seen of a value. -/
def Narrows (view : α → γ) (wrap : γ → β) (narrow : Reading α) (wide : Reading β) : Prop :=
  ∀ input seen rest,
    (∃ value shorter, view value = seen ∧ narrow input = .ok ⟨value, rest, shorter⟩) ↔
      ∃ shorter, wide input = .ok ⟨wrap seen, rest, shorter⟩

/-- Items that are read up to the end of a list. -/
inductive Lists (read : Reading α) : (isFirst : Bool) → (input : List Char) → List α →
    (rest : List Char) → Prop
  | closed {isFirst : Bool} {input : List Char} {rest : Remaining input} :
    nextItem isFirst input = .ok (false, rest) → Lists read isFirst input [] rest.val
  | item {isFirst : Bool} {input : List Char} {further : Remaining input}
    {taken : Taken α further.val} {others : List α} {rest : List Char} :
    nextItem isFirst input = .ok (true, further) → read further.val = .ok taken →
    Lists read false taken.rest others rest →
    Lists read isFirst input (taken.value :: others) rest

theorem lists_of_items {read : Reading α} {isFirst : Bool} {input : List Char} {values : List α}
    {rest : Remaining input} (done : items read isFirst input = .ok (values, rest)) :
    Lists read isFirst input values rest.val := by
  fun_induction items read isFirst input generalizing values with
  | case1 => cases done
  | case2 isFirst input rest next =>
    cases done
    exact .closed next
  | case3 => cases done
  | case4 => cases done
  | case5 isFirst input further bound next value after shorter taken others rest fewer more
      inductionHypothesis =>
    cases done
    exact .item next taken (inductionHypothesis more)

theorem items_of_lists {read : Reading α} {isFirst : Bool} {input rest : List Char}
    {values : List α} (lists : Lists read isFirst input values rest) :
    ∃ bound, items read isFirst input = .ok (values, ⟨rest, bound⟩) := by
  induction lists with
  | closed next =>
    rw [items, next]
    exact ⟨_, rfl⟩
  | @item _ _ further taken _ _ next read _ inductionHypothesis =>
    obtain ⟨bound, more⟩ := inductionHypothesis
    have shorter := Nat.le_trans (Nat.le_of_lt taken.shorter) further.property
    refine ⟨Nat.le_trans bound shorter, ?_⟩
    rw [items, next]
    simp only [read, more]

/-- A narrower reading of items lists what can be seen of the items that the other one lists. -/
theorem Narrows.lists {view : α → γ} {wrap : γ → β} {narrow : Reading α} {wide : Reading β}
    (narrows : Narrows view wrap narrow wide) {isFirst : Bool} {input rest : List Char}
    {all : List γ} :
    (∃ values, values.map view = all ∧ Lists narrow isFirst input values rest) ↔
      Lists wide isFirst input (all.map wrap) rest := by
  constructor
  · rintro ⟨values, rfl, lists⟩
    induction lists with
    | closed next => exact .closed next
    | @item _ _ _ taken _ _ next read _ inductionHypothesis =>
      obtain ⟨shorter, taken⟩ := (narrows _ _ _).mp ⟨taken.value, taken.shorter, rfl, read⟩
      exact .item next taken inductionHypothesis
  · generalize wrapped : all.map wrap = values
    intro lists
    induction lists generalizing all with
    | closed next =>
      obtain rfl := List.map_eq_nil_iff.mp wrapped
      exact ⟨[], rfl, .closed next⟩
    | @item _ _ _ taken _ _ next read _ inductionHypothesis =>
      obtain ⟨first, others, rfl, same, further⟩ := List.map_eq_cons_iff.mp wrapped
      obtain ⟨value, shorter, rfl, found⟩ := (narrows _ first taken.rest).mpr
        ⟨taken.shorter, by rw [read, same]⟩
      obtain ⟨values, rfl, lists⟩ := inductionHypothesis further
      exact ⟨value :: values, rfl, .item next found lists⟩

/-! ### Lists and objects among values -/

/-- What is entered starts with its bracket. -/
theorem opening?_of_entered {bracket : Bracket} {expected : String}
    {inside : (depth : Nat) → (input : List Char) → Except Stop (α × Remaining input)}
    {depth : Nat} {input : List Char} {taken : Taken α input}
    (read : entered bracket expected inside depth input = .ok taken) :
    opening? (afterSpace input) = some bracket := by
  unfold entered at read
  split at read
  · cases read
  · next letter further spaced =>
    rw [spaced]
    split at read
    · next found => exact found
    · cases read

/-- A list is read where a bracket is followed by items up to its end. -/
theorem list_eq_ok_iff {read : Reader α} {depth : Nat} {input : List Char} {values : List α}
    {rest : List Char} :
    (∃ shorter, list read (depth + 1) input = .ok ⟨values, rest, shorter⟩) ↔
      ∃ letter further, afterSpace input = letter :: further ∧ bracketOf? letter = some .square ∧
        Lists (read depth) true further values rest := by
  constructor
  · rintro ⟨shorter, done⟩
    unfold list entered at done
    split at done
    · cases done
    · next letter further spaced =>
      split at done
      · next square =>
        obtain ⟨⟨values, rest⟩, listed, same⟩ := bind_eq_ok.mp done
        cases same
        exact ⟨letter, further, spaced, square, lists_of_items listed⟩
      · cases done
  · rintro ⟨letter, further, spaced, square, lists⟩
    obtain ⟨bound, listed⟩ := items_of_lists lists
    refine ⟨Nat.lt_of_le_of_lt bound (length_lt_of_afterSpace spaced), ?_⟩
    unfold list entered
    split
    · next none => cases spaced.symm.trans none
    · next other more found =>
      cases found.symm.trans spaced
      rw [if_pos square]
      exact bind_eq_ok.mpr ⟨_, listed, rfl⟩

/-- What does not nest is neither a list nor an object. -/
theorem not_nested_of_plain {input : List Char} {taken : Taken Value input}
    (read : plain input = .ok taken) :
    (∀ items, taken.value ≠ .array items) ∧ ∀ members, taken.value ≠ .object members := by
  cases input with
  | nil => cases read
  | cons letter input =>
    rw [plain] at read
    split at read
    · next word simple known =>
      obtain ⟨rest, -, same⟩ := bind_eq_ok.mp read
      cases same
      rw [wordOf?] at known
      split at known
      · cases known
        exact ⟨nofun, nofun⟩
      · split at known
        · cases known
          exact ⟨nofun, nofun⟩
        · split at known
          · cases known
            exact ⟨nofun, nofun⟩
          · cases known
    · split at read
      · obtain ⟨quoted, -, same⟩ := bind_eq_ok.mp read
        cases same
        exact ⟨nofun, nofun⟩
      · split at read
        · obtain ⟨number, -, same⟩ := bind_eq_ok.mp read
          cases same
          exact ⟨nofun, nofun⟩
        · cases read

theorem value_eq_array_iff {depth : Nat} {input : List Char} {items : List Value}
    {rest : List Char} :
    (∃ shorter, value (depth + 1) input = .ok ⟨.array items, rest, shorter⟩) ↔
      ∃ shorter, list (fun _ => value depth) (depth + 1) input = .ok ⟨items, rest, shorter⟩ := by
  constructor
  · rintro ⟨shorter, read⟩
    rw [value] at read
    split at read
    · obtain ⟨taken, listed, same⟩ := bind_eq_ok.mp read
      cases same
      exact ⟨_, listed⟩
    · obtain ⟨taken, -, same⟩ := bind_eq_ok.mp read
      cases same
    · obtain ⟨taken, simple, same⟩ := bind_eq_ok.mp read
      exact absurd (congrArg Taken.value (Except.ok.inj same))
        ((not_nested_of_plain simple).1 items)
  · rintro ⟨shorter, listed⟩
    refine ⟨shorter, ?_⟩
    rw [value, opening?_of_entered listed]
    exact bind_eq_ok.mpr ⟨_, listed, rfl⟩

theorem value_eq_object_iff {depth : Nat} {input : List Char} {members : List (String × Value)}
    {rest : List Char} :
    (∃ shorter, value (depth + 1) input = .ok ⟨.object members, rest, shorter⟩) ↔
      ∃ row shorter, row.entries = members ∧
        object (fun _ => value depth) (depth + 1) input = .ok ⟨row, rest, shorter⟩ := by
  constructor
  · rintro ⟨shorter, read⟩
    rw [value] at read
    split at read
    · obtain ⟨taken, -, same⟩ := bind_eq_ok.mp read
      cases same
    · obtain ⟨taken, held, same⟩ := bind_eq_ok.mp read
      cases same
      exact ⟨taken.value, _, rfl, held⟩
    · obtain ⟨taken, simple, same⟩ := bind_eq_ok.mp read
      exact absurd (congrArg Taken.value (Except.ok.inj same))
        ((not_nested_of_plain simple).2 members)
  · rintro ⟨row, shorter, rfl, held⟩
    refine ⟨shorter, ?_⟩
    rw [value, opening?_of_entered held]
    exact bind_eq_ok.mpr ⟨_, held, rfl⟩

/-- Reading an object is reading a value that is one. -/
theorem narrows_object (depth : Nat) :
    Narrows Dict.entries .object (object value (depth + 1)) (value (depth + 1)) := by
  intro input members rest
  exact value_eq_object_iff.symm

/-- Reading a list of objects is reading an array of which every item is an object. -/
theorem narrows_rows (depth : Nat) :
    Narrows (List.map Dict.entries) (fun rows => .array (rows.map .object))
      (list (object value) (depth + 2)) (value (depth + 2)) := by
  intro input rows rest
  rw [value_eq_array_iff, list_eq_ok_iff]
  constructor
  · rintro ⟨dicts, shorter, rfl, listed⟩
    obtain ⟨letter, further, spaced, square, lists⟩ := list_eq_ok_iff.mp ⟨shorter, listed⟩
    exact ⟨letter, further, spaced, square, (narrows_object depth).lists.mp ⟨dicts, rfl, lists⟩⟩
  · rintro ⟨letter, further, spaced, square, lists⟩
    obtain ⟨dicts, rfl, narrower⟩ := (narrows_object depth).lists.mpr lists
    have listed : ∃ shorter, list (object value) (depth + 2) input = .ok ⟨dicts, rest, shorter⟩ :=
      list_eq_ok_iff.mpr ⟨letter, further, spaced, square, narrower⟩
    obtain ⟨shorter, listed⟩ := listed
    exact ⟨dicts, shorter, rfl, listed⟩

/-- A document is read where its text is read to the end. -/
theorem document_eq_ok_iff_toEnd {read : Reader α} {content : String} {result : α} :
    document read content = .ok result ↔ toEnd read content = .ok result := by
  unfold document
  cases toEnd read content with
  | error stop => simp [Except.mapError]
  | ok value => simp [Except.mapError]

/-- A document is read where nothing but space follows its value. -/
theorem document_eq_ok_iff {read : Reader α} {content : String} {result : α} :
    document read content = .ok result ↔ ∃ rest shorter,
      read depthLimit content.toList = .ok ⟨result, rest, shorter⟩ ∧
        (afterSpace rest).isEmpty = true := by
  rw [document_eq_ok_iff_toEnd, toEnd, bind_eq_ok]
  constructor
  · rintro ⟨⟨value, rest, shorter⟩, taken, done⟩
    dsimp only at done
    split at done
    · next ended =>
      cases done
      exact ⟨rest, shorter, taken, ended⟩
    · cases done
  · rintro ⟨rest, shorter, taken, ended⟩
    exact ⟨_, taken, if_pos ended⟩

/-- A document holds a list of objects exactly where it holds an array of which every item is an
object with the same members. -/
theorem document_rows_iff {content : String} {rows : List (List (String × Value))} :
    (∃ dicts, dicts.map Dict.entries = rows ∧
      document (list (object value)) content = .ok dicts) ↔
      document value content = .ok (.array (rows.map .object)) := by
  simp only [document_eq_ok_iff]
  constructor
  · rintro ⟨dicts, same, rest, shorter, read, ended⟩
    obtain ⟨shorter, wide⟩ := (narrows_rows 125 _ rows rest).mp ⟨dicts, shorter, same, read⟩
    exact ⟨rest, shorter, wide, ended⟩
  · rintro ⟨rest, shorter, read, ended⟩
    obtain ⟨dicts, shorter, same, narrow⟩ := (narrows_rows 125 _ rows rest).mpr ⟨shorter, read⟩
    exact ⟨dicts, same, rest, shorter, narrow, ended⟩

end PathQuery.Json
