/-
This file proves when the token that is blamed for a refused text is the first one that a query
cannot go on with. It is, but for two kinds of token. A comma is blamed after a list that it goes on
with, because it is given back when no name follows it. An open quote is blamed where a string may
stand, because the text does not close it. The tokens before the blamed one tell the two apart from
all others: they end in a list, or they await a string.
-/

import Mathlib.Data.List.Induction
import PathQuery.Proofs.Complaints

namespace PathQuery.Query

/-! ### What leads to a stage -/

/-- Tokens give profiles, or a list of attributes stands at their end. -/
def EndsInList (tokens : List Token) : Prop :=
  (∃ first further, tokens = (ProfileClause.names first further).tokens) ∨
    ∃ front first further, tokens = front ++ (Modifier.show (.named (first :: further))).tokens

/-- A string may follow tokens that have not come to a list: the word `in`, or a condition up to its
operator. -/
def AwaitsString (tokens : List Token) : Prop :=
  tokens = [.word "in"] ∨ ∃ front attr, ∃ comparison : Comparison,
    tokens = front ++ [.mark '?', .word attr, .word comparison.keyword]

theorem listed_concat (first : Token) (further : List Token) (token : Token) :
    listed first (further ++ [token]) = listed first further ++ [.mark ',', token] := by
  rw [listed, listed, List.flatMap_append, List.cons_append, List.flatMap_singleton]

namespace Stage

/-- What the tokens look like that lead from the start to a stage. -/
def Shows : Stage → List Token → Prop
  | start, tokens => tokens = []
  | opening, tokens => tokens = [.word "in"]
  | profileDue, tokens =>
    ∃ first further, tokens = (ProfileClause.names first further).tokens ++ [.mark ',']
  | profiles, tokens => ∃ first further, tokens = (ProfileClause.names first further).tokens
  | attrsDue, tokens => ∃ front, tokens = front ++ [.mark ':']
  | attrDue, tokens => ∃ front first further,
      tokens = front ++ (Modifier.show (.named (first :: further))).tokens ++ [.mark ',']
  | attrs, tokens =>
    ∃ front first further, tokens = front ++ (Modifier.show (.named (first :: further))).tokens
  | conditionDue, tokens => ∃ front, tokens = front ++ [.mark '?']
  | operatorDue, tokens => ∃ front attr, tokens = front ++ [.mark '?', .word attr]
  | valueDue, tokens => ∃ front attr, ∃ comparison : Comparison,
      tokens = front ++ [.mark '?', .word attr, .word comparison.keyword]
  | itemDue, _ | mention, _ | nameDue, _ | complete, _ => True

variable {stage next : Stage} {token : Token} {tokens : List Token}

theorem shows_onward (tokens : List Token) (leads : onward token = some next) :
    next.Shows (tokens ++ [token]) := by
  unfold onward at leads
  split at leads <;> cases leads
  · exact ⟨tokens, rfl⟩
  · exact ⟨tokens, rfl⟩
  · trivial
  · trivial

/-- One more profile in a list goes on with it. -/
theorem shows_profiles (due : profileDue.Shows tokens) (name : ProfileName) :
    profiles.Shows (tokens ++ [name.token]) := by
  obtain ⟨first, further, rfl⟩ := due
  refine ⟨first, further ++ [name], ?_⟩
  rw [ProfileClause.tokens, ProfileClause.tokens, List.map_append, List.map_singleton,
    listed_concat, List.append_assoc, List.cons_append, List.singleton_append]

/-- One more attribute in a list goes on with it. -/
theorem shows_attrs (due : attrDue.Shows tokens) (name : String) :
    attrs.Shows (tokens ++ [.word name]) := by
  obtain ⟨front, first, further, rfl⟩ := due
  refine ⟨front, first, further ++ [name], ?_⟩
  rw [Modifier.tokens, Modifier.tokens, AttrChoice.tokens, AttrChoice.tokens, List.map_append,
    List.map_singleton, listed_concat]
  simp only [List.append_assoc, List.cons_append, List.nil_append]

/-- Each step to another stage adds the token that leads there. -/
theorem shows_advance (shown : stage.Shows tokens) (leads : stage.advance token = some next) :
    next.Shows (tokens ++ [token]) := by
  cases stage <;> dsimp only [advance] at leads
  case start =>
    obtain rfl : tokens = [] := shown
    split at leads <;> cases leads
    next name =>
      split
      · next opens => exact congrArg (fun name => [Token.word name]) opens
      · trivial
  case opening =>
    obtain rfl : tokens = [.word "in"] := shown
    split at leads
    · next name =>
      cases leads
      exact ⟨.plain name, [], rfl⟩
    · next content =>
      cases leads
      exact ⟨.quoted content, [], rfl⟩
    · cases leads
      trivial
    · cases leads
      trivial
    · exact shows_onward _ leads
  case profileDue =>
    split at leads <;> cases leads
    · next name => exact shows_profiles shown (.plain name)
    · next content => exact shows_profiles shown (.quoted content)
  case profiles =>
    split at leads <;> cases leads
    · trivial
    · obtain ⟨first, further, rfl⟩ := shown
      exact ⟨first, further, rfl⟩
  case itemDue =>
    split at leads <;> cases leads
    trivial
  case mention =>
    split at leads
    · cases leads
      trivial
    · exact shows_onward _ leads
  case nameDue =>
    split at leads <;> cases leads
    trivial
  case complete => exact shows_onward _ leads
  case attrsDue =>
    obtain ⟨front, rfl⟩ := shown
    split at leads <;> cases leads
    · next name =>
      refine ⟨front, name, [], ?_⟩
      rw [List.append_assoc]
      rfl
    · trivial
  case attrDue =>
    split at leads <;> cases leads
    next name => exact shows_attrs shown name
  case attrs =>
    split at leads
    · cases leads
      obtain ⟨front, first, further, rfl⟩ := shown
      exact ⟨front, first, further, rfl⟩
    · exact shows_onward _ leads
  case conditionDue =>
    obtain ⟨front, rfl⟩ := shown
    split at leads <;> cases leads
    next name =>
      refine ⟨front, name, ?_⟩
      rw [List.append_assoc]
      rfl
  case operatorDue =>
    obtain ⟨front, attr, rfl⟩ := shown
    split at leads
    · next word =>
      split at leads <;> cases leads
      next known =>
        obtain ⟨comparison, compared⟩ := Option.isSome_iff_exists.mp known
        refine ⟨front, attr, comparison, ?_⟩
        rw [List.append_assoc, Comparison.ofKeyword?_eq_some_iff.mp compared]
        rfl
    · cases leads
  case valueDue =>
    split at leads <;> cases leads
    trivial

/-- Tokens that lead from the start to a stage look accordingly. -/
theorem run_shows (run : start.run tokens = some stage) : stage.Shows tokens := by
  induction tokens using List.reverseRecOn generalizing stage with
  | nil =>
    cases run
    rfl
  | append_singleton tokens token inductionHypothesis =>
    rw [run_append] at run
    obtain ⟨before, run, leads⟩ := Option.bind_eq_some_iff.mp run
    rw [run_singleton] at leads
    exact shows_advance (inductionHypothesis run) leads

/-- Further names after commas stay in their list. -/
theorem run_further {name? : Token → Option String} {whole due : Stage}
    (lists : Lists name? whole due) {further : List Token}
    (named : ∀ token ∈ further, name? token ≠ none) :
    whole.run (further.flatMap fun token => [.mark ',', token]) = some whole := by
  induction further with
  | nil => rfl
  | cons token further inductionHypothesis =>
    rw [List.forall_mem_cons] at named
    obtain ⟨name, found⟩ := Option.ne_none_iff_exists'.mp named.1
    rw [List.flatMap_cons, List.cons_append, List.singleton_append, run_cons, lists.comma,
      Option.bind_some, run_cons, lists.named found, Option.bind_some]
    exact inductionHypothesis named.2

/-- A list of profiles leads to the stage after a profile. -/
theorem run_clause (first : ProfileName) (further : List ProfileName) :
    start.run (ProfileClause.names first further).tokens = some profiles := by
  have leads : opening.advance first.token = some profiles := by cases first <;> rfl
  have named : ∀ token ∈ further.map (·.token), profileName? token ≠ none := by
    rw [List.forall_mem_map]
    intro name member
    rw [profileNames.read]
    exact Option.some_ne_none _
  rw [ProfileClause.tokens, listed, run_cons]
  show Option.bind (opening.advance first.token) _ = _
  rw [leads]
  exact run_further lists_profiles named

/-- Tokens that end in a list of attributes lead to the stage after an attribute. -/
theorem run_show {front : List Token} {first : String} {further : List String}
    (run : start.run (front ++ (Modifier.show (.named (first :: further))).tokens) = some stage) :
    stage = attrs := by
  rw [run_append] at run
  obtain ⟨before, -, run⟩ := Option.bind_eq_some_iff.mp run
  rw [Modifier.tokens, run_cons] at run
  obtain ⟨due, leads, run⟩ := Option.bind_eq_some_iff.mp run
  obtain rfl : due = attrsDue := by cases before <;> cases leads <;> rfl
  have named : ∀ token ∈ further.map Token.word, plainName? token ≠ none := by
    rw [List.forall_mem_map]
    exact fun name member => Option.some_ne_none name
  have listed_run : attrsDue.run (listed (.word first) (further.map .word)) = some attrs :=
    run_further lists_attrs named
  exact Option.some.inj (run.symm.trans listed_run)

/-- Tokens that end in a condition up to its operator lead to the stage before a value. -/
theorem run_search {front : List Token} {attr : String} {comparison : Comparison}
    (run : start.run (front ++ [.mark '?', .word attr, .word comparison.keyword]) = some stage) :
    stage = valueDue := by
  rw [run_append] at run
  obtain ⟨before, -, run⟩ := Option.bind_eq_some_iff.mp run
  rw [run_cons] at run
  obtain ⟨due, leads, run⟩ := Option.bind_eq_some_iff.mp run
  obtain rfl : due = conditionDue := by cases before <;> cases leads <;> rfl
  have searched : conditionDue.run [.word attr, .word comparison.keyword] = some valueDue := by
    cases comparison <;> rfl
  exact Option.some.inj (run.symm.trans searched)

/-- Only a list goes on with a comma. -/
theorem advance_comma (leads : stage.advance (.mark ',') = some next) :
    stage = profiles ∨ stage = attrs := by
  cases stage <;> cases leads
  · exact .inl rfl
  · exact .inr rfl

/-- Only where a profile or a value may stand a string goes on. -/
theorem advance_quoted {content : String} (leads : stage.advance (.quoted content) = some next) :
    stage = opening ∨ stage = profileDue ∨ stage = valueDue := by
  cases stage <;> cases leads
  · exact .inl rfl
  · exact .inr (.inl rfl)
  · exact .inr (.inr rfl)

theorem endsInList_iff (run : start.run tokens = some stage) :
    EndsInList tokens ↔ stage = profiles ∨ stage = attrs := by
  constructor
  · rintro (⟨first, further, rfl⟩ | ⟨front, first, further, rfl⟩)
    · exact .inl (Option.some.inj (run.symm.trans (run_clause first further)))
    · exact .inr (run_show run)
  · rintro (rfl | rfl)
    · exact .inl (run_shows run)
    · exact .inr (run_shows run)

theorem awaitsString_iff (run : start.run tokens = some stage) :
    AwaitsString tokens ↔ stage = opening ∨ stage = valueDue := by
  constructor
  · rintro (rfl | ⟨front, attr, comparison, rfl⟩)
    · exact .inl (Option.some.inj run.symm)
    · exact .inr (run_search run)
  · rintro (rfl | rfl)
    · exact .inl (run_shows run)
    · exact .inr (run_shows run)

end Stage

/-! ### The token that is blamed -/

/-- The characters of the first token of a text, or the one that no token starts with. -/
def leading : List Char → List Char
  | [] => []
  | letter :: rest => letter :: rest.take (rest.length - (firstToken letter rest).2.val.length)

theorem leading_cons {letter : Char} {rest content : List Char}
    (same : rest = content ++ (firstToken letter rest).2.val) :
    leading (letter :: rest) = letter :: content := by
  have taken : rest.length - (firstToken letter rest).2.val.length = content.length := by
    have lengths := congrArg List.length same
    rw [List.length_append] at lengths
    omega
  rw [leading, taken]
  conv_lhs => rw [same, List.take_left]

/-- A mark is the character that it stands at. -/
theorem eq_of_firstToken_mark {letter mark : Char} {rest : List Char}
    (marked : (firstToken letter rest).1 = .mark mark) : letter = mark := by
  rw [firstToken] at marked
  split at marked
  · cases marked
  · split at marked
    · split at marked <;> cases marked
    · split at marked <;> cases marked
      rfl

/-- A first token of one character leads as that character. -/
theorem leading_single {letter : Char} {rest : List Char} {token : Token}
    (single : firstToken letter rest = (token, .all rest)) :
    leading (letter :: rest) = [letter] :=
  leading_cons (by rw [single]; rfl)

/-- Whatever follows its characters, the first token of a text stays or is another word, unless it
is a stray quote. -/
theorem leading_resembles {letter : Char} {rest : List Char}
    (closed : isQuote letter = true → (firstToken letter rest).1 ≠ .stray letter) :
    ∃ content, leading (letter :: rest) = letter :: content ∧ ∀ behind,
      (firstToken letter rest).1.Resembles (firstToken letter (content ++ behind)).1 := by
  by_cases word : startsWord letter = true
  · refine ⟨rest.takeWhile continuesWord, leading_cons ?_, fun behind => ?_⟩
    · rw [firstToken, if_pos word]
      exact List.takeWhile_append_dropWhile.symm
    · rw [firstToken, if_pos word, firstToken, if_pos word]
      trivial
  by_cases quotes : isQuote letter = true
  · have member : letter ∈ rest := by
      by_contra free
      exact closed quotes (congrArg Prod.fst (firstToken_unclosed quotes free))
    obtain ⟨content, after, rfl, free⟩ := List.eq_append_cons_of_mem member
    obtain ⟨string, left⟩ := firstToken_quoted after quotes free
    refine ⟨content ++ [letter], leading_cons ?_, fun behind => ?_⟩
    · rw [left, List.append_assoc, List.singleton_append]
    · rw [string, List.append_assoc, List.singleton_append,
        (firstToken_quoted behind quotes free).1]
      exact Token.resembles_refl _
  by_cases marks : isMark letter = true
  · refine ⟨[], leading_single (firstToken_mark marks rest), fun behind => ?_⟩
    rw [firstToken_mark marks, firstToken_mark marks]
    exact Token.resembles_refl _
  · have other : startsToken letter = false := by
      rw [startsToken, Bool.eq_false_iff.mpr word, Bool.eq_false_iff.mpr quotes,
        Bool.eq_false_iff.mpr marks]
      rfl
    refine ⟨[], leading_single (firstToken_other other rest), fun behind => ?_⟩
    rw [firstToken_other other, firstToken_other other]
    exact Token.resembles_refl _

/-- A text is no start of a query where nothing that its last characters start leads on. -/
theorem not_isViable {before rest content : List Char} {letter : Char} {tokens : List Token}
    {stage : Stage} (keeps : Keeps before (letter :: rest) tokens)
    (run : Stage.start.run tokens = some stage) (apart : isSeparator letter = false)
    (stops : ∀ behind, stage.advance (firstToken letter (content ++ behind)).1 = none) :
    ¬ IsViable (String.ofList (before ++ letter :: content)) := by
  rintro ⟨completion, viable⟩
  obtain ⟨last, runs, -⟩ := parse_isOk_iff.mp viable
  have cut : (String.ofList (before ++ letter :: content) ++ completion).toList =
      before ++ letter :: (content ++ completion.toList) := by
    rw [String.toList_append, String.toList_ofList, List.append_assoc, List.cons_append]
  rw [cut, keeps (letter :: (content ++ completion.toList)) fun next front => .inl front,
    tokensIn_token apart, Stage.run_append, run, Option.bind_some, Stage.run_cons, stops] at runs
  cases runs

/-- A text is the start of a query with one more character that leads on. -/
theorem isViable_of_advance {before rest content : List Char} {letter : Char}
    {tokens : List Token} {token : Token} {stage next : Stage}
    (keeps : Keeps before (letter :: rest) tokens) (run : Stage.start.run tokens = some stage)
    (leads : stage.advance token = some next)
    (cut : tokensIn (letter :: (content ++ next.closing.toList)) = token :: next.completion) :
    IsViable (String.ofList (before ++ [letter])) := by
  obtain ⟨last, completed, ends⟩ := next.run_completion
  refine ⟨String.ofList content ++ next.closing, parse_isOk_iff.mpr ⟨last, ?_, ends⟩⟩
  have whole : (String.ofList (before ++ [letter]) ++
      (String.ofList content ++ next.closing)).toList =
      before ++ letter :: (content ++ next.closing.toList) := by
    simp only [String.toList_append, String.toList_ofList, List.append_assoc,
      List.singleton_append]
  rw [whole, keeps (letter :: (content ++ next.closing.toList)) fun next front => .inl front, cut,
    Stage.run_append, run, Option.bind_some, Stage.run_cons, leads]
  exact completed

/-! ### When the blame is right -/

/-- The blamed token is a comma after a list, or an open quote where a string may stand. -/
def BlamesEarly (before after : List Char) : Prop :=
  ((tokensIn after).head? = some (.mark ',') ∧ EndsInList (tokensIn before)) ∨
    ((∃ quote, isQuote quote = true ∧ (tokensIn after).head? = some (.stray quote)) ∧
      AwaitsString (tokensIn before))

/-- Texts that are the same in front up to an offset are the same behind it. -/
theorem append_inj_of_byteSize {front other rest left : List Char}
    (same : front ++ rest = other ++ left) (size : Text.byteSize front = Text.byteSize other) :
    front = other ∧ rest = left := by
  induction front generalizing other with
  | nil =>
    cases other with
    | nil => exact ⟨rfl, same⟩
    | cons letter other =>
      rw [Text.byteSize, Text.byteSize] at size
      exact absurd size (by have := letter.utf8Size_pos; omega)
  | cons letter front inductionHypothesis =>
    cases other with
    | nil =>
      rw [Text.byteSize, Text.byteSize] at size
      exact absurd size (by have := letter.utf8Size_pos; omega)
    | cons next other =>
      obtain ⟨rfl, further_eq⟩ := List.cons.inj same
      rw [Text.byteSize, Text.byteSize, Nat.add_left_cancel_iff] at size
      obtain ⟨rfl, rfl⟩ := inductionHypothesis further_eq size
      exact ⟨rfl, rfl⟩

/-- A comma goes on with a list. -/
theorem isViable_of_comma {before rest : List Char} {tokens : List Token} {stage next : Stage}
    (keeps : Keeps before (',' :: rest) tokens) (run : Stage.start.run tokens = some stage)
    (leads : stage.advance (.mark ',') = some next) :
    IsViable (String.ofList (before ++ [','])) := by
  have cut : tokensIn (',' :: ([] ++ next.closing.toList)) = .mark ',' :: next.completion := by
    rw [tokensIn_token rfl, firstToken_mark rfl]
    exact congrArg (Token.mark ',' :: ·) next.tokensIn_closing
  exact isViable_of_advance keeps run leads cut

/-- A quote goes on where a string may stand. -/
theorem isViable_of_quote {before rest : List Char} {quote : Char} {tokens : List Token}
    {stage : Stage} (quotes : isQuote quote = true) (keeps : Keeps before (quote :: rest) tokens)
    (run : Stage.start.run tokens = some stage) (awaits : AwaitsString tokens) :
    IsViable (String.ofList (before ++ [quote])) := by
  have leads : ∃ next, stage.advance (.quoted "") = some next := by
    rcases (Stage.awaitsString_iff run).mp awaits with rfl | rfl <;> exact ⟨_, rfl⟩
  obtain ⟨next, leads⟩ := leads
  have cut : tokensIn (quote :: ([quote] ++ next.closing.toList)) =
      .quoted "" :: next.completion := by
    obtain ⟨string, left⟩ := firstToken_quoted next.closing.toList quotes List.not_mem_nil
    rw [List.nil_append] at string left
    rw [tokensIn_token (not_isSeparator_of_starts (.inr (.inl quotes))), List.singleton_append,
      string, left, next.tokensIn_closing]
  exact isViable_of_advance keeps run leads cut

/-- A quote goes on nowhere else, whether it is closed or not. -/
theorem not_isViable_of_quote {before rest : List Char} {quote : Char} {tokens : List Token}
    {stage : Stage} (quotes : isQuote quote = true) (keeps : Keeps before (quote :: rest) tokens)
    (run : Stage.start.run tokens = some stage) (begun : stage ≠ .profileDue)
    (unawaited : ¬ AwaitsString tokens) : ¬ IsViable (String.ofList (before ++ [quote])) := by
  have apart := not_isSeparator_of_starts (.inr (.inl quotes))
  refine not_isViable keeps run apart fun behind => ?_
  rw [List.nil_append]
  have noString (content : String) : stage.advance (.quoted content) = none := by
    by_contra leads
    obtain ⟨next, leads⟩ := Option.ne_none_iff_exists'.mp leads
    rw [Stage.awaitsString_iff run] at unawaited
    rcases Stage.advance_quoted leads with opening | due | valueDue
    · exact unawaited (.inl opening)
    · exact begun due
    · exact unawaited (.inr valueDue)
  by_cases member : quote ∈ behind
  · obtain ⟨content, after, rfl, free⟩ := List.eq_append_cons_of_mem member
    rw [(firstToken_quoted after quotes free).1]
    exact noString _
  · rw [firstToken_unclosed quotes member]
    cases stage <;> rfl

/-- Where no token like the next one leads on, its characters do not either, unless it is an open
quote where a string may stand. -/
theorem blame_of_excluded {before rest : List Char} {letter : Char} {tokens : List Token}
    {stage : Stage} (keeps : Keeps before (letter :: rest) tokens)
    (run : Stage.start.run tokens = some stage) (apart : isSeparator letter = false)
    (excluded : stage.Excludes (firstToken letter rest).1) (begun : stage ≠ .profileDue) :
    ¬ IsViable (String.ofList (before ++ leading (letter :: rest))) ↔
      ¬ BlamesEarly before (letter :: rest) := by
  have first : (tokensIn (letter :: rest)).head? = some (firstToken letter rest).1 := by
    rw [tokensIn_token apart, List.head?_cons]
  have noComma : ¬ ((firstToken letter rest).1 = .mark ',' ∧ EndsInList tokens) := by
    rintro ⟨comma, list⟩
    have stops := excluded _ (Token.resembles_refl _)
    rw [comma] at stops
    rcases (Stage.endsInList_iff run).mp list with rfl | rfl <;> cases stops
  rw [BlamesEarly, keeps.tokens_eq, first, Option.some.injEq, or_iff_right noComma]
  -- Only an open quote can become another token by what follows it; a word stays a word.
  by_cases opens : isQuote letter = true ∧ (firstToken letter rest).1 = .stray letter
  · obtain ⟨quotes, stray⟩ := opens
    have free : letter ∉ rest := by
      intro member
      obtain ⟨content, behind, rfl, free⟩ := List.eq_append_cons_of_mem member
      cases (firstToken_quoted behind quotes free).1.symm.trans stray
    rw [leading_single (firstToken_unclosed quotes free)]
    by_cases awaits : AwaitsString tokens
    · exact iff_of_false (not_not_intro (isViable_of_quote quotes keeps run awaits))
        (not_not_intro ⟨⟨letter, quotes, congrArg some stray⟩, awaits⟩)
    · exact iff_of_true (not_isViable_of_quote quotes keeps run begun awaits)
        fun early => awaits early.2
  · obtain ⟨content, leading_eq, resembles⟩ :=
      leading_resembles fun quotes stray => opens ⟨quotes, stray⟩
    rw [leading_eq]
    refine iff_of_true (not_isViable keeps run apart fun behind => excluded _ (resembles behind)) ?_
    rintro ⟨⟨quote, quotes, stray⟩, -⟩
    have stray := Option.some.inj stray
    obtain ⟨rfl, -⟩ := firstToken_stray stray
    exact opens ⟨quotes, stray⟩

/-- The first token that is left stands at its offset. -/
theorem place_of_offset {before after : List Char} {front more : List Lexeme} {first : Lexeme}
    (same : lexemes 0 (before ++ after) = front ++ first :: more)
    (plain : ∀ stray, .stray stray ∉ tokensOf front)
    (offset_eq : first.offset = Text.byteSize before) :
    Keeps before after (tokensOf front) ∧ ∃ letter rest, after = letter :: rest ∧
      isSeparator letter = false ∧ first.token = (firstToken letter rest).1 := by
  obtain ⟨place, behind, whole, left, starts, keeps⟩ := lexemes_cut front same plain
  rw [Nat.zero_add] at left
  obtain ⟨letter, rest, rfl, apart, rfl⟩ := eq_cons_of_lexemes starts left
  obtain ⟨rfl, rfl⟩ := append_inj_of_byteSize whole offset_eq.symm
  exact ⟨keeps, letter, rest, rfl, apart, rfl⟩

/-- A refusal of a text before its end blames the first token that a query cannot go on with, but
for a comma after a list and an open quote where a string may stand. -/
theorem refusal_blames {before after : List Char} {refusal : Refusal}
    (blamed : Blamed .start (lexemes 0 (before ++ after)) refusal) (inside : after ≠ [])
    (points : (refusal.error (Text.byteSize (before ++ after))).offset? =
      some (Text.byteSize before))
    (misplaced : ∀ word offset, refusal ≠ .unknownOperator word offset) :
    ¬ IsViable (String.ofList (before ++ leading after)) ↔ ¬ BlamesEarly before after := by
  obtain ⟨stage, rest, ⟨front, same, run⟩, blames⟩ := blamed
  have plain := Stage.stray_not_mem run
  have notEnd : Text.byteSize (before ++ after) ≠ Text.byteSize before := by
    intro size
    exact inside (append_inj_of_byteSize (List.append_nil (before ++ after)) size).2.symm
  cases blames with
  | ending unfinished => exact absurd (Option.some.inj points) notEnd
  | quote => exact absurd (Option.some.inj points) notEnd
  | operator unknown => exact absurd rfl (misplaced _ _)
  | token excluded begun =>
    rw [Refusal.error, offset?_atRest, Option.some.injEq] at points
    obtain ⟨keeps, letter, content, rfl, apart, token_eq⟩ := place_of_offset same plain points
    rw [token_eq] at excluded
    exact blame_of_excluded keeps run apart excluded begun
  | comma leads stops =>
    rw [Refusal.error, offset?_atRest, Option.some.injEq] at points
    obtain ⟨keeps, letter, content, rfl, apart, token_eq⟩ := place_of_offset same plain points
    obtain rfl := eq_of_firstToken_mark token_eq.symm
    have list : EndsInList (tokensIn before) := by
      rw [keeps.tokens_eq, Stage.endsInList_iff run]
      exact Stage.advance_comma leads
    have first : (tokensIn (',' :: content)).head? = some (.mark ',') := by
      rw [tokensIn_token apart, List.head?_cons, ← token_eq]
    rw [leading_single (firstToken_mark rfl content)]
    exact iff_of_false (not_not_intro (isViable_of_comma keeps run leads))
      (not_not_intro (.inl ⟨first, list⟩))

/-- Where a text is refused before its end, and not for a word in the place of an operator, the
blamed token is the first that a query cannot go on with: no query that is read starts with the text
up to and including that token. This holds exactly if the token is neither a comma after a list of
profiles or attributes nor a quote that is never closed, after the word `in` or an operator. -/
theorem blame_exact {before after : String} {error : Error}
    (refused : parse (before ++ after) = .error error)
    (points : error.offset? = some before.utf8ByteSize) (inside : after ≠ "")
    (misplaced : ∀ word offset, error ≠ .unknownOperator word offset) :
    ¬ IsViable (before ++ String.ofList (leading after.toList)) ↔
      ¬ BlamesEarly before.toList after.toList := by
  rcases parse_error refused with ⟨-, rfl⟩ | ⟨-, refusal, blamed, rfl⟩
  · cases points
  · rw [String.toList_append] at blamed points misplaced
    rw [utf8ByteSize_toList] at points
    have started : after.toList ≠ [] := fun empty => inside (String.toList_eq_nil_iff.mp empty)
    have exact_blame := refusal_blames blamed started points fun word offset same =>
      misplaced word offset (by rw [same]; rfl)
    rwa [String.ofList_append, String.ofList_toList] at exact_blame

theorem blame_exact_string :
    parse ("vpc - " ++ "'x'") = .error (.unexpected .typeName (some (.quoted "x")) 6) ∧
      ¬ IsViable "vpc - 'x'" := by
  have refused : parse ("vpc - " ++ "'x'") =
    .error (.unexpected .typeName (some (.quoted "x")) 6) := by decide +kernel
  have first : (tokensIn "'x'".toList).head? = some (.quoted "x") := by decide +kernel
  have whole : "vpc - " ++ String.ofList (leading "'x'".toList) = "vpc - 'x'" := by decide +kernel
  have right : ¬ BlamesEarly "vpc - ".toList "'x'".toList := by
    rintro (⟨comma, -⟩ | ⟨⟨quote, -, stray⟩, -⟩)
    · cases first.symm.trans comma
    · cases first.symm.trans stray
  exact ⟨refused, whole ▸ (blame_exact refused (by decide) (by decide) nofun).mpr right⟩

/-- The comma after an attribute is blamed although a query can go on with it. The question mark
after the comma is what no query goes on with. -/
theorem comma_blamed_early :
    parse ("vpc :a" ++ ", ?b eq 'x'") =
        .error (.unexpected .linkOrEnd (some (.mark ',')) "vpc :a".utf8ByteSize) ∧
      String.ofList (leading ", ?b eq 'x'".toList) = "," ∧ IsViable ("vpc :a" ++ ",") := by
  refine ⟨by decide +kernel, by decide +kernel, "b", ?_⟩
  exact ⟨⟨.all, ⟨.bare "vpc", [.show (.named ["a", "b"])]⟩, []⟩, by decide +kernel⟩

end PathQuery.Query
