/-
This file says when a pattern for the names of files can be read piece by piece. A pattern is
expanded by its pieces between strokes, and each of them has to be a pattern of its own. That is so
exactly where the whole can be read and no bracket in it was written with a stroke inside: cutting
at the strokes takes such a bracket apart, and nothing else.
-/

import Mathlib.Data.List.TakeWhile
import PathQuery.Glob.Expand
import PathQuery.Proofs.Pieces
import PathQuery.Proofs.Steps

namespace PathQuery

namespace Glob

/-- Whether a sign is a bracket that was written with a stroke in it. -/
def Sign.holdsStroke : Sign → Bool
  | .letterOf ranges | .letterNotOf ranges =>
    ranges.any fun range => range.first == '/' || range.last == '/'
  | _ => false

namespace Pattern

/-- Whether one of the signs of a pattern was written with a stroke in brackets. -/
def holdsStroke (pattern : Pattern) : Bool := pattern.any Sign.holdsStroke

/-! ### Brackets -/

/-- A bracket reaches up to the first closing one after its first character. -/
theorem bracketed?_eq_some_iff {letters inner after : List Char} :
    bracketed? letters = some (inner, after) ↔
      letters = inner ++ ']' :: after ∧ inner ≠ [] ∧ ']' ∉ inner.tail := by
  have others : ∀ letter, (letter != ']') = true ↔ letter ≠ ']' := fun _ => bne_iff_ne
  constructor
  · intro closed
    cases letters with
    | nil => cases closed
    | cons first rest =>
      rw [bracketed?] at closed
      split at closed
      · next last later dropped =>
        cases closed
        have whole := List.takeWhile_append_dropWhile (p := (· != ']')) (l := rest)
        have closing := List.head?_dropWhile_not (· != ']') rest
        rw [dropped] at whole closing
        obtain rfl : last = ']' := by simpa using closing
        refine ⟨by rw [List.cons_append, whole], List.cons_ne_nil _ _, fun inside => ?_⟩
        exact (others _).mp (List.mem_takeWhile_imp (p := (· != ']')) inside) rfl
      · cases closed
  · rintro ⟨rfl, filled, free⟩
    cases inner with
    | nil => exact absurd rfl filled
    | cons first rest =>
      have free : ∀ letter ∈ rest, (letter != ']') = true := fun letter member =>
        (others letter).mpr fun same => free (same ▸ member)
      rw [List.cons_append, bracketed?, List.dropWhile_append_of_pos free,
        List.takeWhile_append_of_pos free]
      simp

/-- A range of a bracket starts or ends with a stroke exactly where one is written in it. -/
theorem any_rangesOf {inner : List Char} :
    ((rangesOf inner).any fun range => range.first == '/' || range.last == '/') = true ↔
      '/' ∈ inner := by
  have written : ∀ letter : Char, (letter == '/') = true ↔ '/' = letter := fun letter =>
    beq_iff_eq.trans eq_comm
  induction inner using rangesOf.induct with
  | case1 first last rest inductionHypothesis =>
    rw [rangesOf, List.any_cons, Bool.or_eq_true, Bool.or_eq_true, or_assoc, List.mem_cons,
      List.mem_cons, List.mem_cons, or_iff_right (a := '/' = '-') (by decide)]
    exact or_congr (written first) (or_congr (written last) inductionHypothesis)
  | case2 letter rest single inductionHypothesis =>
    rw [rangesOf, List.any_cons, Bool.or_eq_true, Bool.or_self, List.mem_cons]
    · exact or_congr (written letter) inductionHypothesis
    · exact single
  | case3 => exact ⟨fun none => (Bool.false_ne_true none).elim, fun none => nomatch none⟩

/-! ### What letters spell -/

/-- The signs that letters spell. Only at a start, which is also after a stroke, do two stars stand
for directories. -/
inductive Spells : (atStart : Bool) → List Char → Pattern → Prop
  | nil {atStart : Bool} : Spells atStart [] []
  | anyLetter {atStart : Bool} {rest : List Char} {signs : Pattern} :
    Spells false rest signs → Spells atStart ('?' :: rest) (.anyLetter :: signs)
  | lastDirectories : Spells true ['*', '*'] [.anyDirectories]
  | anyDirectories {rest : List Char} {signs : Pattern} :
    Spells true rest signs → Spells true ('*' :: '*' :: '/' :: rest) (.anyDirectories :: signs)
  | anyText {atStart : Bool} {rest : List Char} {signs : Pattern} :
    rest.head? ≠ some '*' → Spells false rest signs →
    Spells atStart ('*' :: rest) (.anyText :: signs)
  | letterNotOf {atStart : Bool} {rest inner after : List Char} {signs : Pattern} :
    bracketed? rest = some (inner, after) → Spells false after signs →
    Spells atStart ('[' :: '!' :: rest) (.letterNotOf (rangesOf inner) :: signs)
  | letterOf {atStart : Bool} {rest inner after : List Char} {signs : Pattern} :
    rest.head? ≠ some '!' → bracketed? rest = some (inner, after) → Spells false after signs →
    Spells atStart ('[' :: rest) (.letterOf (rangesOf inner) :: signs)
  | letter {atStart : Bool} {letter : Char} {rest : List Char} {signs : Pattern} :
    letter ≠ '?' → letter ≠ '*' → letter ≠ '[' → Spells (letter == '/') rest signs →
    Spells atStart (letter :: rest) (.letter letter :: signs)

/-- Letters are read to the signs that they spell. -/
theorem spells_of_readFrom {position : Nat} {before : Option Char} {letters : List Char}
    {signs : Pattern} (read : readFrom position before letters = .ok signs) :
    Spells (before.all (· == '/')) letters signs := by
  fun_induction readFrom position before letters generalizing signs with
  | case1 position before =>
    cases read
    exact .nil
  | case2 position before rest inductionHypothesis =>
    obtain ⟨signs, further, rfl⟩ := map_eq_ok read
    exact .anyLetter (inductionHypothesis further)
  | case3 => cases read
  | case4 position before start =>
    cases read
    rw [start]
    exact .lastDirectories
  | case5 position before start rest notStar inductionHypothesis =>
    obtain ⟨signs, further, rfl⟩ := map_eq_ok read
    rw [start]
    exact .anyDirectories (inductionHypothesis further)
  | case6 => cases read
  | case7 => cases read
  | case8 position before rest notTwo notOne inductionHypothesis =>
    obtain ⟨signs, further, rfl⟩ := map_eq_ok read
    refine .anyText (fun star => ?_) (inductionHypothesis further)
    obtain ⟨tail, rfl⟩ := List.head?_eq_some_iff.mp star
    exact notOne tail rfl
  | case9 => cases read
  | case10 position before rest inner after closed shorter inductionHypothesis =>
    obtain ⟨signs, further, rfl⟩ := map_eq_ok read
    exact .letterNotOf closed (inductionHypothesis further)
  | case11 => cases read
  | case12 position before rest positive inner after closed shorter inductionHypothesis =>
    obtain ⟨signs, further, rfl⟩ := map_eq_ok read
    refine .letterOf (fun mark => ?_) closed (inductionHypothesis further)
    obtain ⟨tail, rfl⟩ := List.head?_eq_some_iff.mp mark
    exact positive tail rfl
  | case13 position before letter rest notAny _ _ notText _ notOpen inductionHypothesis =>
    obtain ⟨signs, further, rfl⟩ := map_eq_ok read
    exact .letter notAny notText notOpen (inductionHypothesis further)

/-- What letters spell is read from them, at any position and after anything that makes it a start
or not. -/
theorem readFrom_of_spells {atStart : Bool} {letters : List Char} {signs : Pattern}
    (spells : Spells atStart letters signs) :
    ∀ position before, before.all (· == '/') = atStart →
      readFrom position before letters = .ok signs := by
  induction spells with
  | nil =>
    intro position before start
    rw [readFrom]
  | anyLetter spells inductionHypothesis =>
    intro position before start
    rw [readFrom, inductionHypothesis _ _ rfl]
    rfl
  | lastDirectories =>
    intro position before start
    rw [readFrom, if_pos start]
  | anyDirectories spells inductionHypothesis =>
    intro position before start
    rw [readFrom, if_pos start, inductionHypothesis _ _ rfl]
    rfl
  | anyText single spells inductionHypothesis =>
    intro position before start
    rw [readFrom, inductionHypothesis _ _ rfl]
    · rfl
    · rintro tail rfl
      exact single rfl
    · rintro tail rfl
      exact single rfl
  | letterNotOf closed spells inductionHypothesis =>
    intro position before start
    rw [readFrom]
    split
    · next found => cases found.symm.trans closed
    · next found =>
      cases found.symm.trans closed
      rw [inductionHypothesis _ _ rfl]
      rfl
  | letterOf positive closed spells inductionHypothesis =>
    intro position before start
    rw [readFrom]
    · split
      · next found => cases found.symm.trans closed
      · next found =>
        cases found.symm.trans closed
        rw [inductionHypothesis _ _ rfl]
        rfl
    · rintro rest rfl
      exact positive rfl
  | letter notAny notText notOpen spells inductionHypothesis =>
    intro position before start
    rw [readFrom, inductionHypothesis _ _ rfl]
    · rfl
    · exact notAny
    · exact fun tail same _ => notText same
    · exact fun rest same _ => notText same
    · exact notText
    · exact fun rest same _ => notOpen same
    · exact notOpen

/-- A bracket is closed by what closes it, whatever more follows. -/
theorem bracketed?_append {letters inner after : List Char} (more : List Char)
    (closed : bracketed? letters = some (inner, after)) :
    bracketed? (letters ++ more) = some (inner, after ++ more) := by
  obtain ⟨rfl, filled, free⟩ := bracketed?_eq_some_iff.mp closed
  rw [List.append_assoc]
  exact bracketed?_eq_some_iff.mpr ⟨rfl, filled, free⟩

/-- A bracket without a stroke lies in one piece. -/
theorem exists_bracketed?_of_pieces {letters inner after first : List Char}
    {others : List (List Char)} (closed : bracketed? letters = some (inner, after))
    (free : '/' ∉ inner) (cut : Text.pieces '/' after = first :: others) :
    ∃ piece, Text.pieces '/' letters = piece :: others ∧
      bracketed? piece = some (inner, first) := by
  obtain ⟨rfl, filled, within⟩ := bracketed?_eq_some_iff.mp closed
  exact ⟨inner ++ ']' :: first, Text.pieces_append free (Text.pieces_cons (by decide) cut),
    bracketed?_eq_some_iff.mpr ⟨rfl, filled, within⟩⟩

/-! ### Pieces of a pattern -/

theorem holdsStroke_cons {sign : Sign} {signs : Pattern} :
    holdsStroke (sign :: signs) = false ↔
      sign.holdsStroke = false ∧ signs.holdsStroke = false :=
  Bool.or_eq_false_iff

theorem holdsStroke_letterOf {inner : List Char} :
    (Sign.letterOf (rangesOf inner)).holdsStroke = false ↔ '/' ∉ inner :=
  Bool.eq_false_iff.trans (not_congr any_rangesOf)

/-- Letters without a stroke spell no bracket with one. -/
theorem holdsStroke_of_spells {atStart : Bool} {letters : List Char} {signs : Pattern}
    (spells : Spells atStart letters signs) (free : '/' ∉ letters) :
    signs.holdsStroke = false := by
  induction spells with
  | nil => rfl
  | anyLetter _ inductionHypothesis =>
    exact holdsStroke_cons.mpr ⟨rfl, inductionHypothesis (List.not_mem_of_not_mem_cons free)⟩
  | lastDirectories => rfl
  | anyDirectories => exact absurd (by simp) free
  | anyText _ _ inductionHypothesis =>
    exact holdsStroke_cons.mpr ⟨rfl, inductionHypothesis (List.not_mem_of_not_mem_cons free)⟩
  | letterNotOf closed _ inductionHypothesis =>
    obtain ⟨rfl, -, -⟩ := bracketed?_eq_some_iff.mp closed
    simp only [List.mem_cons, List.mem_append, not_or] at free
    exact holdsStroke_cons.mpr
      ⟨holdsStroke_letterOf.mpr free.2.2.1, inductionHypothesis free.2.2.2.2⟩
  | letterOf _ closed _ inductionHypothesis =>
    obtain ⟨rfl, -, -⟩ := bracketed?_eq_some_iff.mp closed
    simp only [List.mem_cons, List.mem_append, not_or] at free
    exact holdsStroke_cons.mpr
      ⟨holdsStroke_letterOf.mpr free.2.1, inductionHypothesis free.2.2.2⟩
  | letter _ _ _ _ inductionHypothesis =>
    exact holdsStroke_cons.mpr ⟨rfl, inductionHypothesis (List.not_mem_of_not_mem_cons free)⟩

/-- Letters without a stroke may be followed by a stroke and by what is spelled at a start. -/
theorem exists_spells_append {before after : List Char} {atStart : Bool} {signs others : Pattern}
    (spells : Spells atStart before signs) (free : '/' ∉ before)
    (further : Spells true after others) (cuttable : others.holdsStroke = false) :
    ∃ all, Spells atStart (before ++ '/' :: after) all ∧ all.holdsStroke = false := by
  induction spells with
  | nil =>
    exact ⟨.letter '/' :: others, .letter (by decide) (by decide) (by decide) further, cuttable⟩
  | anyLetter _ inductionHypothesis =>
    obtain ⟨all, spelled, cut⟩ := inductionHypothesis (List.not_mem_of_not_mem_cons free)
    exact ⟨_, .anyLetter spelled, cut⟩
  | lastDirectories => exact ⟨_, .anyDirectories further, cuttable⟩
  | anyDirectories => exact absurd (by simp) free
  | anyText single _ inductionHypothesis =>
    obtain ⟨all, spelled, cut⟩ := inductionHypothesis (List.not_mem_of_not_mem_cons free)
    exact ⟨_, .anyText (fun star => single (Text.head?_of_append (by decide) star)) spelled, cut⟩
  | letterNotOf closed _ inductionHypothesis =>
    obtain ⟨same, -, -⟩ := bracketed?_eq_some_iff.mp closed
    simp only [same, List.mem_cons, List.mem_append, not_or] at free
    obtain ⟨all, spelled, cut⟩ := inductionHypothesis free.2.2.2.2
    exact ⟨_, .letterNotOf (bracketed?_append _ closed) spelled,
      holdsStroke_cons.mpr ⟨holdsStroke_letterOf.mpr free.2.2.1, cut⟩⟩
  | letterOf positive closed _ inductionHypothesis =>
    obtain ⟨same, -, -⟩ := bracketed?_eq_some_iff.mp closed
    simp only [same, List.mem_cons, List.mem_append, not_or] at free
    obtain ⟨all, spelled, cut⟩ := inductionHypothesis free.2.2.2
    exact ⟨_, .letterOf (fun mark => positive (Text.head?_of_append (by decide) mark))
      (bracketed?_append _ closed) spelled,
      holdsStroke_cons.mpr ⟨holdsStroke_letterOf.mpr free.2.1, cut⟩⟩
  | letter notAny notText notOpen _ inductionHypothesis =>
    obtain ⟨all, spelled, cut⟩ := inductionHypothesis (List.not_mem_of_not_mem_cons free)
    exact ⟨_, .letter notAny notText notOpen spelled, cut⟩

/-- Letters that spell no bracket with a stroke spell something between any two strokes. -/
theorem spells_of_pieces {letters : List Char} {atStart : Bool} {signs : Pattern}
    (spells : Spells atStart letters signs) (cuttable : signs.holdsStroke = false) :
    ∃ first others, Text.pieces '/' letters = first :: others ∧
      (∃ part, Spells atStart first part) ∧ ∀ piece ∈ others, ∃ part, Spells true piece part := by
  induction spells with
  | nil => exact ⟨[], [], rfl, ⟨[], .nil⟩, fun _ none => absurd none List.not_mem_nil⟩
  | anyLetter _ inductionHypothesis =>
    obtain ⟨first, others, cut, ⟨part, spelled⟩, all⟩ := inductionHypothesis cuttable
    exact ⟨_, others, Text.pieces_cons (by decide) cut, ⟨_, .anyLetter spelled⟩, all⟩
  | lastDirectories =>
    exact ⟨_, [], rfl, ⟨_, .lastDirectories⟩, fun _ none => absurd none List.not_mem_nil⟩
  | anyDirectories _ inductionHypothesis =>
    obtain ⟨first, others, cut, spelled, all⟩ := inductionHypothesis cuttable
    refine ⟨['*', '*'], first :: others, ?_, ⟨_, .lastDirectories⟩,
      List.forall_mem_cons.mpr ⟨spelled, all⟩⟩
    rw [← cut]
    exact Text.pieces_append_mark ['*', '*'] _
  | anyText single _ inductionHypothesis =>
    obtain ⟨first, others, cut, ⟨part, spelled⟩, all⟩ := inductionHypothesis cuttable
    exact ⟨_, others, Text.pieces_cons (by decide) cut,
      ⟨_, .anyText (fun star => single (Text.head?_of_pieces cut star)) spelled⟩, all⟩
  | letterNotOf closed _ inductionHypothesis =>
    obtain ⟨bracket, further⟩ := holdsStroke_cons.mp cuttable
    obtain ⟨first, others, cut, ⟨part, spelled⟩, all⟩ := inductionHypothesis further
    obtain ⟨piece, cut, closing⟩ :=
      exists_bracketed?_of_pieces closed (holdsStroke_letterOf.mp bracket) cut
    exact ⟨_, others, Text.pieces_cons (by decide) (Text.pieces_cons (by decide) cut),
      ⟨_, .letterNotOf closing spelled⟩, all⟩
  | letterOf positive closed _ inductionHypothesis =>
    obtain ⟨bracket, further⟩ := holdsStroke_cons.mp cuttable
    obtain ⟨first, others, cut, ⟨part, spelled⟩, all⟩ := inductionHypothesis further
    obtain ⟨piece, cut, closing⟩ :=
      exists_bracketed?_of_pieces closed (holdsStroke_letterOf.mp bracket) cut
    exact ⟨_, others, Text.pieces_cons (by decide) cut,
      ⟨_, .letterOf (fun mark => positive (Text.head?_of_pieces cut mark)) closing spelled⟩, all⟩
  | @letter _ letter rest _ notAny notText notOpen _ inductionHypothesis =>
    obtain ⟨first, others, cut, ⟨part, spelled⟩, all⟩ := inductionHypothesis cuttable
    by_cases stroke : letter = '/'
    · subst stroke
      refine ⟨[], first :: others, ?_, ⟨[], .nil⟩, List.forall_mem_cons.mpr ⟨⟨part, spelled⟩, all⟩⟩
      rw [Text.pieces_cons_mark, cut]
    · exact ⟨_, others, Text.pieces_cons stroke cut,
        ⟨_, .letter notAny notText notOpen spelled⟩, all⟩

/-- Letters spell a pattern without a stroke in brackets exactly where they spell something between
any two strokes. -/
theorem exists_spells_iff {letters : List Char} :
    (∃ signs, Spells true letters signs ∧ signs.holdsStroke = false) ↔
      ∀ piece ∈ Text.pieces '/' letters, ∃ part, Spells true piece part := by
  constructor
  · rintro ⟨signs, spells, cuttable⟩
    obtain ⟨first, others, cut, spelled, all⟩ := spells_of_pieces spells cuttable
    rw [cut]
    exact List.forall_mem_cons.mpr ⟨spelled, all⟩
  · generalize cut : Text.pieces '/' letters = pieces
    intro all
    -- on the pieces: the letters are those of the first one, a stroke, and those of the others
    induction pieces generalizing letters with
    | nil =>
      obtain ⟨first, others, some⟩ := Text.exists_pieces '/' letters
      cases some.symm.trans cut
    | cons first others inductionHypothesis =>
      obtain ⟨⟨part, spelled⟩, all⟩ := List.forall_mem_cons.mp all
      obtain ⟨free, whole⟩ := Text.of_pieces cut
      rcases whole with ⟨rfl, -⟩ | ⟨rest, rfl, cutRest⟩
      · exact ⟨part, spelled, holdsStroke_of_spells spelled free⟩
      · obtain ⟨signs, further, cuttable⟩ := inductionHypothesis cutRest all
        exact exists_spells_append spelled free further cuttable

/-- The pattern of a text is what its letters spell. -/
theorem ofText_eq_ok_iff {text : String} {signs : Pattern} :
    ofText text = .ok signs ↔ Spells true text.toList signs :=
  ⟨spells_of_readFrom, fun spells => readFrom_of_spells spells 0 none rfl⟩

theorem ofText_empty : ofText "" = .ok [] := ofText_eq_ok_iff.mpr .nil

/-- Every piece of a text is a pattern exactly where the text is one and no bracket in it holds a
stroke. -/
theorem pieces_readable_iff {text : String} :
    (∀ piece ∈ Text.split '/' text, ∃ part, ofText piece = .ok part) ↔
      ∃ signs, ofText text = .ok signs ∧ signs.holdsStroke = false := by
  simp only [ofText_eq_ok_iff, exists_spells_iff, Text.split, List.forall_mem_map,
    String.toList_ofList]

end Pattern

end Glob

end PathQuery
