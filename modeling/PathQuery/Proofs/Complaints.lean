/-
This file proves what a complaint about the text of a query says of it. The offset that a complaint
names cuts the text in two. What stands before it can be brought to the end of a query, and what
stands after it is what is complained about. A text is cut at a token without changing the tokens
before it, so the stage that these lead to is found again whatever the text goes on with.
-/

import Mathlib.Data.String.Basic
import PathQuery.Proofs.Spelling
import PathQuery.Proofs.Stages

namespace PathQuery.Query

/-! ### The tokens of a text -/

/-- The tokens that a text is cut into. -/
def tokensIn (letters : List Char) : List Token := tokensOf (lexemes 0 letters)

@[simp] theorem tokensIn_nil : tokensIn [] = [] := by
  rw [tokensIn, lexemes, tokensOf_nil]

/-- Where a text starts does not matter to the tokens that it is cut into. -/
theorem tokensOf_lexemes (offset : Nat) (letters : List Char) :
    tokensOf (lexemes offset letters) = tokensIn letters := by
  suffices ∀ other, tokensOf (lexemes offset letters) = tokensOf (lexemes other letters) from this 0
  induction offset, letters using lexemes.induct with
  | case1 offset =>
    intro other
    rw [lexemes, lexemes]
  | case2 offset letter rest separates inductionHypothesis =>
    intro other
    rw [tokensOf_lexemes_gap separates, tokensOf_lexemes_gap separates]
    exact inductionHypothesis _
  | case3 offset letter rest starts token after bound cut size inductionHypothesis =>
    intro other
    rw [lexemes, if_neg starts, lexemes, if_neg starts, cut]
    exact congrArg (token :: ·) (inductionHypothesis _)

theorem tokensIn_gap {letter : Char} (separates : isSeparator letter = true) (rest : List Char) :
    tokensIn (letter :: rest) = tokensIn rest := by
  rw [tokensIn, tokensOf_lexemes_gap separates, tokensOf_lexemes]

theorem tokensIn_token {letter : Char} (starts : isSeparator letter = false) (rest : List Char) :
    tokensIn (letter :: rest) =
      (firstToken letter rest).1 :: tokensIn (firstToken letter rest).2.val := by
  obtain ⟨behind, cut⟩ := tokensOf_lexemes_token starts 0 rest
  rw [tokensIn, cut, tokensOf_lexemes]

/-- A text is read as a query exactly when its tokens lead to a stage where the query may end. -/
theorem parse_isOk_iff {text : String} :
    (∃ query, parse text = .ok query) ↔ Accepts (tokensIn text.toList) := by
  rw [tokensIn, ← ofTokens_isOk_iff]
  constructor
  · rintro ⟨query, read⟩
    rw [parse] at read
    split at read
    · cases read
    · split at read
      · next found => exact ⟨_, found⟩
      · cases read
  · rintro ⟨query, read⟩
    obtain ⟨written, complete, rfl, tokens_eq⟩ := ofTokens_sound read
    have plain : ∀ stray, .stray stray ∉ tokensOf (lexemes 0 text.toList) := by
      rw [tokens_eq]
      exact stray_not_mem_tokens written
    exact ⟨_, parse_of_spells complete (tokens_eq ▸ spells_of_lexemes plain)⟩

/-! ### Cutting a text at a token -/

/-- The characters that a word takes go on with it, and the next one does not. -/
theorem longest_word (rest : List Char) :
    (∀ next ∈ rest.takeWhile continuesWord, continuesWord next = true) ∧
      ∀ next ∈ (rest.dropWhile continuesWord).head?, continuesWord next = false := by
  refine ⟨List.all_eq_true.mp List.all_takeWhile, fun next front => ?_⟩
  have stops := List.head?_dropWhile_not continuesWord rest
  rwa [show (rest.dropWhile continuesWord).head? = some next from front] at stops

/-- The first token of a text is cut off again before any text that does not go on with it. -/
theorem firstToken_front {letter : Char} {rest : List Char} {token : Token}
    {after : Text.Remaining rest} (cut : firstToken letter rest = (token, after))
    (plain : ∀ stray, token ≠ .stray stray) :
    ∃ content, rest = content ++ after.val ∧ ∀ behind,
      (∀ next ∈ behind.head?, next ∈ after.val.head? ∨ continuesWord next = false) →
        (firstToken letter (content ++ behind)).1 = token ∧
          (firstToken letter (content ++ behind)).2.val = behind := by
  rw [firstToken] at cut
  split at cut
  · next starts =>
    cases cut
    refine ⟨rest.takeWhile continuesWord, List.takeWhile_append_dropWhile.symm, ?_⟩
    obtain ⟨continues, stops⟩ := longest_word rest
    intro behind apart
    exact firstToken_word starts continues fun next front =>
      (apart next front).elim (stops next) id
  · split at cut
    · next quotes =>
      split at cut
      · next content behind found =>
        cases cut
        refine ⟨content ++ [letter], ?_, fun behind _ => ?_⟩
        · rw [List.append_assoc]
          exact (Text.append_of_splitFirst found).symm
        · rw [List.append_assoc]
          exact firstToken_quoted behind quotes (Text.not_mem_of_splitFirst found)
      · cases cut
        exact absurd rfl (plain letter)
    · split at cut
      · next marks =>
        cases cut
        refine ⟨[], rfl, fun behind _ => ?_⟩
        rw [List.nil_append, firstToken_mark marks]
        exact ⟨rfl, rfl⟩
      · cases cut
        exact absurd rfl (plain letter)

/-- A text is cut into the same tokens before any other that starts as a given one does, or with a
character that no word goes on with. -/
def Keeps (before after : List Char) (tokens : List Token) : Prop :=
  ∀ behind, (∀ next ∈ behind.head?, next ∈ after.head? ∨ continuesWord next = false) →
    tokensIn (before ++ behind) = tokens ++ tokensIn behind

theorem Keeps.tokens_eq {before after : List Char} {tokens : List Token}
    (keeps : Keeps before after tokens) : tokensIn before = tokens := by
  have kept := keeps [] nofun
  rwa [List.append_nil, tokensIn_nil, List.append_nil] at kept

/-- Where the tokens of a text are cut in two, the text is cut between them, and what stands before
keeps its tokens. -/
theorem lexemes_cut {offset : Nat} {letters : List Char} (front : List Lexeme)
    {rest : List Lexeme} (same : lexemes offset letters = front ++ rest)
    (plain : ∀ stray, .stray stray ∉ tokensOf front) :
    ∃ before after, letters = before ++ after ∧
      rest = lexemes (offset + Text.byteSize before) after ∧
      (∀ letter ∈ after.head?, isSeparator letter = false) ∧
      Keeps before after (tokensOf front) := by
  induction offset, letters using lexemes.induct generalizing front with
  | case1 offset =>
    rw [lexemes] at same
    obtain ⟨rfl, rfl⟩ := List.nil_eq_append_iff.mp same
    refine ⟨[], [], rfl, by rw [lexemes], ?_, fun _ _ => rfl⟩
    rintro _ ⟨⟩
  | case2 offset letter rest separates inductionHypothesis =>
    rw [lexemes, if_pos separates] at same
    obtain ⟨before, after, rfl, left, starts, cut⟩ := inductionHypothesis front same plain
    refine ⟨letter :: before, after, rfl, ?_, starts, fun behind apart => ?_⟩
    · rw [left, Text.byteSize, Nat.add_assoc]
    · rw [List.cons_append, tokensIn_gap separates, cut behind apart]
  | case3 offset letter rest starts token left bound cut size inductionHypothesis =>
    have starts := Bool.eq_false_iff.mpr starts
    cases front with
    | nil =>
      refine ⟨[], letter :: rest, rfl, same.symm, ?_, fun _ _ => rfl⟩
      rintro _ ⟨⟩
      exact starts
    | cons first front =>
      rw [lexemes, if_neg (Bool.eq_false_iff.mp starts), cut] at same
      obtain ⟨rfl, further_eq⟩ := List.cons.inj same
      rw [tokensOf_cons] at plain
      obtain ⟨before, after, rfl, left_eq, stops, further⟩ := inductionHypothesis front further_eq
        fun stray member => plain stray (List.mem_cons_of_mem _ member)
      obtain ⟨content, rest_eq, again⟩ := firstToken_front cut
        fun stray same => plain stray (List.mem_cons.mpr (.inl same.symm))
      have whole : letter :: rest = (letter :: content ++ before) ++ after := by
        rw [rest_eq, List.append_assoc, List.cons_append]
      refine ⟨letter :: content ++ before, after, whole, ?_, stops, fun behind apart => ?_⟩
      · have passed :
            size + Text.byteSize before = Text.byteSize (letter :: content ++ before) := by
          simp only [size, whole, Text.byteSize_append]
          omega
        rw [left_eq, Nat.add_assoc, passed]
      · have kept : ∀ next ∈ (before ++ behind).head?,
            next ∈ (before ++ after).head? ∨ continuesWord next = false := by
          cases before with
          | nil => exact apart
          | cons _ _ => exact fun next front => .inl front
        obtain ⟨token_eq, behind_eq⟩ := again (before ++ behind) kept
        rw [List.append_assoc, List.cons_append, tokensIn_token starts, token_eq, behind_eq,
          further behind apart]
        rfl

/-- The text between two tokens has none, unless one starts it. -/
theorem eq_nil_of_lexemes {offset : Nat} {after : List Char}
    (starts : ∀ letter ∈ after.head?, isSeparator letter = false)
    (none_left : lexemes offset after = []) : after = [] := by
  cases after with
  | nil => rfl
  | cons letter rest =>
    rw [lexemes, if_neg (Bool.eq_false_iff.mp (starts letter rfl))] at none_left
    cases none_left

/-- The first token that is left stands where the text was cut. -/
theorem eq_cons_of_lexemes {offset : Nat} {after : List Char} {first : Lexeme} {more : List Lexeme}
    (starts : ∀ letter ∈ after.head?, isSeparator letter = false)
    (left : first :: more = lexemes offset after) :
    ∃ letter rest, after = letter :: rest ∧ isSeparator letter = false ∧
      first = ⟨(firstToken letter rest).1, offset⟩ := by
  cases after with
  | nil =>
    rw [lexemes] at left
    cases left
  | cons letter rest =>
    rw [lexemes, if_neg (Bool.eq_false_iff.mp (starts letter rfl))] at left
    exact ⟨letter, rest, rfl, starts letter rfl, (List.cons.inj left).1⟩

/-! ### Texts that a query can start with -/

/-- A text can be brought to the end of a query. -/
def IsViable (text : String) : Prop :=
  ∃ completion query, parse (text ++ completion) = .ok query

namespace Stage

/-- A text that brings a query to its end. -/
def closing (stage : Stage) : String :=
  " " ++ " ".intercalate (stage.completion.map Token.text)

theorem tokensIn_closing (stage : Stage) : tokensIn stage.closing.toList = stage.completion := by
  have spellable : ∀ token ∈ stage.completion, isSpellable token = true := by
    cases stage <;> decide
  rw [closing, String.toList_append]
  exact (Spells.gap rfl (spells_intercalate spellable)).tokensOf_lexemes 0

end Stage

/-- What keeps the tokens that lead to a stage can be brought to the end of a query. -/
theorem isViable_of_run {before after : List Char} {tokens : List Token} {stage : Stage}
    (keeps : Keeps before after tokens) (run : Stage.start.run tokens = some stage) :
    IsViable (String.ofList before) := by
  have spaced : ∀ next ∈ stage.closing.toList.head?, continuesWord next = false := by
    rw [Stage.closing, String.toList_append]
    rintro _ ⟨⟩
    rfl
  obtain ⟨last, completed, ends⟩ := stage.run_completion
  refine ⟨stage.closing, parse_isOk_iff.mpr ⟨last, ?_, ends⟩⟩
  rw [String.toList_append, String.toList_ofList,
    keeps _ fun next front => .inr (spaced next front),
    stage.tokensIn_closing, Stage.run_append, run]
  exact completed

/-! ### What is complained about -/

/-- Whether a token can start with a character. -/
def startsToken (letter : Char) : Bool :=
  startsWord letter || isQuote letter || isMark letter

/-- A word stands at the front of a text, and no longer one. -/
def WordAt (word : String) (letters : List Char) : Prop :=
  isIdentifier word = true ∧ ∃ rest, letters = word.toList ++ rest ∧
    ∀ next ∈ rest.head?, continuesWord next = false

namespace Error

/-- What an error says about the text that stands at its offset. -/
def Fits : Error → List Char → Prop
  | empty, _ => False
  | unexpectedLetter letter _, after => after.head? = some letter ∧ startsToken letter = false
  | unexpected _ found _, after => found = (tokensIn after).head? ∧
      ∀ letter ∈ after.head?, Text.isBlank letter = true ∨ startsToken letter = true
  | unknownOperator word _, after => WordAt word after ∧ word ≠ "eq" ∧ word ≠ "ne"

end Error

/-- Where no quote of its kind follows a quote, it is stray. -/
theorem firstToken_unclosed {quote : Char} {rest : List Char} (quotes : isQuote quote = true)
    (free : quote ∉ rest) : firstToken quote rest = (.stray quote, .all rest) := by
  rw [firstToken, if_neg (Bool.eq_false_iff.mp (not_startsWord_of_isQuote quotes)), if_pos quotes]
  split
  · next content behind found =>
    rw [← Text.append_of_splitFirst found] at free
    exact absurd (List.mem_append_right _ List.mem_cons_self) free
  · rfl

/-- A character that no token starts with is stray. -/
theorem firstToken_other {letter : Char} (starts : startsToken letter = false) (rest : List Char) :
    firstToken letter rest = (.stray letter, .all rest) := by
  rw [startsToken, Bool.or_eq_false_iff, Bool.or_eq_false_iff] at starts
  obtain ⟨⟨noWord, noQuote⟩, noMark⟩ := starts
  rw [firstToken, if_neg (Bool.eq_false_iff.mp noWord), if_neg (Bool.eq_false_iff.mp noQuote),
    if_neg (Bool.eq_false_iff.mp noMark)]

/-- A stray character is a quote that none of its kind follows, or no token starts with it. -/
theorem firstToken_stray {letter other : Char} {rest : List Char}
    (stray : (firstToken letter rest).1 = .stray other) :
    letter = other ∧ ((isQuote letter = true ∧ letter ∉ rest) ∨ startsToken letter = false) := by
  by_cases starts : startsToken letter = true
  · rw [startsToken, Bool.or_eq_true, Bool.or_eq_true] at starts
    rcases starts with (word | quotes) | marks
    · rw [firstToken, if_pos word] at stray
      cases stray
    · by_cases member : letter ∈ rest
      · obtain ⟨content, behind, rfl, free⟩ := List.eq_append_cons_of_mem member
        cases (firstToken_quoted behind quotes free).1.symm.trans stray
      · rw [firstToken_unclosed quotes member] at stray
        exact ⟨Token.stray.inj stray, .inl ⟨quotes, member⟩⟩
    · rw [firstToken_mark marks] at stray
      cases stray
  · have starts := Bool.eq_false_iff.mpr starts
    rw [firstToken_other starts] at stray
    exact ⟨Token.stray.inj stray, .inr starts⟩

/-- Where a token is not stray, it starts with a character that tokens start with. -/
theorem startsToken_of_plain {letter : Char} {rest : List Char}
    (plain : ∀ stray, (firstToken letter rest).1 ≠ .stray stray) : startsToken letter = true := by
  by_contra starts
  exact plain letter (congrArg Prod.fst (firstToken_other (Bool.eq_false_iff.mpr starts) rest))

/-- Where a word is the first token, it stands there. -/
theorem wordAt_of_firstToken {letter : Char} {rest : List Char} {word : String}
    (first : (firstToken letter rest).1 = .word word) : WordAt word (letter :: rest) := by
  rw [firstToken] at first
  split at first
  · next starts =>
    cases first
    obtain ⟨continues, stops⟩ := longest_word rest
    refine ⟨?_, rest.dropWhile continuesWord, ?_, stops⟩
    · rw [isIdentifier, String.toList_ofList]
      exact Bool.and_eq_true_iff.mpr ⟨starts, List.all_eq_true.mpr continues⟩
    · rw [String.toList_ofList, List.cons_append, List.takeWhile_append_dropWhile]
  · split at first
    · split at first <;> cases first
    · split at first <;> cases first

/-- What is complained about where tokens are left is what stands there. -/
theorem fits_atRest {letter : Char} {rest : List Char} (what : Expectation) (offset : Nat)
    (more : List Lexeme) (ending : Nat) (starts : isSeparator letter = false) :
    (Error.atRest what (⟨(firstToken letter rest).1, offset⟩ :: more) ending).Fits
      (letter :: rest) := by
  have found : (tokensIn (letter :: rest)).head? = some (firstToken letter rest).1 := by
    rw [tokensIn_token starts, List.head?_cons]
  unfold Error.atRest
  split
  · next none_left => cases none_left
  · next other place behind same =>
    have stray : (firstToken letter rest).1 = .stray other :=
      congrArg Lexeme.token (List.cons.inj same).1
    obtain ⟨rfl, kind⟩ := firstToken_stray stray
    split
    · next likely =>
      refine ⟨stray ▸ found.symm, ?_⟩
      rintro _ ⟨⟩
      rw [Token.isPlausible, Bool.or_eq_true] at likely
      rw [startsToken, Bool.or_eq_true, Bool.or_eq_true]
      exact likely.imp_right fun quotes => .inl (.inr quotes)
    · next unlikely =>
      rw [Token.isPlausible, Bool.or_eq_true, not_or, Bool.not_eq_true, Bool.not_eq_true]
        at unlikely
      rcases kind with ⟨quotes, -⟩ | starts
      · exact absurd (quotes.symm.trans unlikely.2) (by decide)
      · exact ⟨rfl, starts⟩
  · next first place behind plain same =>
    obtain ⟨same, rfl⟩ := List.cons.inj same
    cases same
    refine ⟨found.symm, ?_⟩
    rintro _ ⟨⟩
    exact .inr (startsToken_of_plain plain)

/-- The complaint about what is left names the offset of its first token. -/
theorem offset?_atRest (what : Expectation) (first : Lexeme) (more : List Lexeme) (ending : Nat) :
    (Error.atRest what (first :: more) ending).offset? = some first.offset := by
  unfold Error.atRest
  split
  · next none_left => cases none_left
  · next other place behind same =>
    cases same
    split <;> rfl
  · next token place behind plain same =>
    cases same
    rfl

/-! ### Where a complaint points -/

/-- What is read up to an open double quote can be brought to the end of a query by closing it. -/
theorem isViable_of_unclosed {before content : List Char} {tokens : List Token}
    (keeps : Keeps before ('"' :: content) tokens) (run : Stage.start.run tokens = some .valueDue)
    (unclosed : '"' ∉ content) : IsViable (String.ofList (before ++ '"' :: content)) := by
  obtain ⟨first, behind⟩ := firstToken_quoted [] rfl unclosed
  have closed : tokensIn ('"' :: (content ++ ['"'])) = [.quoted (String.ofList content)] := by
    rw [tokensIn_token rfl, first, behind, tokensIn_nil]
  have whole : tokensIn (before ++ '"' :: (content ++ ['"'])) =
      tokens ++ [.quoted (String.ofList content)] := by
    rw [keeps ('"' :: (content ++ ['"'])) fun next front => .inl front, closed]
  refine ⟨"\"", parse_isOk_iff.mpr ⟨.complete, ?_, rfl⟩⟩
  rw [String.toList_append, String.toList_ofList, List.append_assoc]
  show Stage.run _ (tokensIn (before ++ '"' :: (content ++ ['"']))) = _
  rw [whole, Stage.run_append, run]
  rfl

/-- A refusal of what a text is cut into points at a place of the text. What stands before it can be
brought to the end of a query, and the complaint fits what stands after it. -/
theorem refusal_sound {letters : List Char} {refusal : Refusal}
    (blamed : Blamed .start (lexemes 0 letters) refusal) :
    ∃ before after, letters = before ++ after ∧
      (refusal.error (Text.byteSize letters)).offset? = some (Text.byteSize before) ∧
      IsViable (String.ofList before) ∧ (refusal.error (Text.byteSize letters)).Fits after := by
  obtain ⟨stage, rest, ⟨front, same, run⟩, blames⟩ := blamed
  obtain ⟨before, after, rfl, left, starts, keeps⟩ :=
    lexemes_cut front same (Stage.stray_not_mem run)
  rw [Nat.zero_add] at left
  have viable := isViable_of_run keeps run
  have atFirst (what : Expectation) {first : Lexeme} {more : List Lexeme}
      (left : first :: more = lexemes (Text.byteSize before) after) (ending : Nat) :
      (Error.atRest what (first :: more) ending).offset? = some (Text.byteSize before) ∧
        (Error.atRest what (first :: more) ending).Fits after := by
    obtain ⟨letter, rest, rfl, apart, rfl⟩ := eq_cons_of_lexemes starts left
    exact ⟨offset?_atRest _ _ _ _, fits_atRest _ _ _ _ apart⟩
  cases blames with
  | ending unfinished =>
    obtain rfl := eq_nil_of_lexemes starts left.symm
    refine ⟨before, [], rfl, ?_, viable, ?_, nofun⟩
    · rw [List.append_nil]
      rfl
    · rw [tokensIn_nil]
      rfl
  | @token _ what _ _ excluded begun =>
    obtain ⟨offset_eq, fits⟩ := atFirst what left (Text.byteSize (before ++ after))
    exact ⟨before, after, rfl, offset_eq, viable, fits⟩
  | @comma _ _ what _ _ leads stops =>
    obtain ⟨offset_eq, fits⟩ := atFirst what left (Text.byteSize (before ++ after))
    exact ⟨before, after, rfl, offset_eq, viable, fits⟩
  | quote =>
    obtain ⟨letter, content, rfl, apart, first_eq⟩ := eq_cons_of_lexemes starts left
    obtain ⟨rfl, ⟨-, unclosed⟩ | starts⟩ := firstToken_stray (congrArg Lexeme.token first_eq).symm
    case inr => cases starts
    refine ⟨before ++ '"' :: content, [], (List.append_nil _).symm, rfl,
      isViable_of_unclosed keeps run unclosed, ?_, nofun⟩
    rw [tokensIn_nil]
    rfl
  | operator unknown =>
    obtain ⟨letter, further, rfl, apart, first_eq⟩ := eq_cons_of_lexemes starts left
    obtain ⟨word_eq, rfl⟩ := Lexeme.mk.inj first_eq
    refine ⟨before, _, rfl, rfl, viable, wordAt_of_firstToken word_eq.symm, ?_, ?_⟩
    · rintro rfl
      cases unknown
    · rintro rfl
      cases unknown

/-- The bytes of a text are those of its characters. -/
theorem utf8ByteSize_ofList (letters : List Char) :
    (String.ofList letters).utf8ByteSize = Text.byteSize letters := by
  rw [String.utf8ByteSize_ofList]
  induction letters with
  | nil => rfl
  | cons letter letters inductionHypothesis =>
    rw [String.utf8Len_cons, inductionHypothesis, Text.byteSize, Nat.add_comm]

theorem utf8ByteSize_toList (text : String) : text.utf8ByteSize = Text.byteSize text.toList := by
  rw [← utf8ByteSize_ofList, String.ofList_toList]

/-- A text is refused as empty exactly if it is blank, and otherwise for what its tokens are refused
for. -/
theorem parse_error {text : String} {error : Error} (refused : parse text = .error error) :
    (Text.isBlankText text = true ∧ error = .empty) ∨
      (Text.isBlankText text = false ∧ ∃ refusal, Blamed .start (lexemes 0 text.toList) refusal ∧
        error = refusal.error (Text.byteSize text.toList)) := by
  rw [parse] at refused
  split at refused
  · next blank =>
    cases refused
    exact .inl ⟨blank, rfl⟩
  · next visible =>
    refine .inr ⟨Bool.eq_false_iff.mpr visible, ?_⟩
    rcases ofTokens_outcome (lexemes 0 text.toList) with ⟨query, last, read, -⟩ |
      ⟨refusal, stopped, blamed⟩
    · rw [read] at refused
      cases refused
    · rw [stopped, utf8ByteSize_toList] at refused
      cases refused
      exact ⟨refusal, blamed, rfl⟩

/-- The complaint about a text points at a place of it, unless the text is blank. What stands before
can be brought to the end of a query: the text makes sense up to there. What stands after fits the
complaint: the letter that is named starts no token, the word that is named is no operator, and the
text is unexpected at its end, at a blank or where a token can start. -/
theorem complaint_sound {text : String} {error : Error} (refused : parse text = .error error) :
    (error = .empty ↔ Text.isBlankText text = true) ∧
      (error ≠ .empty → ∃ before after, text = before ++ after ∧
        error.offset? = some before.utf8ByteSize ∧ IsViable before ∧ error.Fits after.toList) := by
  rcases parse_error refused with ⟨blank, rfl⟩ | ⟨visible, refusal, blamed, rfl⟩
  · exact ⟨⟨fun _ => blank, fun _ => rfl⟩, fun other => absurd rfl other⟩
  · obtain ⟨before, after, whole, offset_eq, viable, fits⟩ := refusal_sound blamed
    refine ⟨⟨fun same => ?_, fun blank => ?_⟩, fun _ => ?_⟩
    · rw [same] at fits
      exact fits.elim
    · cases visible.symm.trans blank
    · refine ⟨String.ofList before, String.ofList after, ?_, ?_, viable, ?_⟩
      · rw [← String.ofList_append, ← whole, String.ofList_toList]
      · rw [utf8ByteSize_ofList, offset_eq]
      · rwa [String.toList_ofList]

theorem complaint_sound_paragraph :
    parse "in 'é' §" = .error (.unexpectedLetter '§' 8) ∧
      ∃ before after, "in 'é' §" = before ++ after ∧ before.utf8ByteSize = 8 ∧
        IsViable before ∧ after.toList.head? = some '§' ∧ startsToken '§' = false := by
  have refused : parse "in 'é' §" = .error (.unexpectedLetter '§' 8) := by decide +kernel
  obtain ⟨-, sound⟩ := complaint_sound refused
  obtain ⟨before, after, whole, offset_eq, viable, fits⟩ := sound nofun
  exact ⟨refused, before, after, whole, (Option.some.inj offset_eq).symm, viable, fits⟩

end PathQuery.Query
