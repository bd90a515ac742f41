/-
This file proves that a text is read as a query exactly when it is spelled with the tokens of a way
of writing the query. The characters that tokens start with tell the kinds of tokens apart, so that
a text is spelled with the tokens it is cut into and with no others. A query whose names are words
and whose strings can be put in quotes is read back from its own text.
-/

import PathQuery.Proofs.Grammar

namespace PathQuery.Query

/-! ### The kinds of characters -/

/-- The characters that tokens start with are visible and plain. -/
theorem plain_of_starts {letter : Char}
    (starts : startsWord letter = true ∨ isQuote letter = true ∨ isMark letter = true) :
    33 ≤ letter.toNat ∧ letter.toNat ≤ 126 := by
  have codes : letter.toNat = letter.val.toNat := rfl
  rcases starts with word | quote | mark
  · have word : (decide ('A'.val ≤ letter.val ∧ letter.val ≤ 'Z'.val) ||
        ('a'.val ≤ letter.val && letter.val ≤ 'z'.val) || letter == '_') = true := word
    simp only [Bool.or_eq_true, Bool.and_eq_true, decide_eq_true_eq, beq_iff_eq,
      UInt32.le_iff_toNat_le] at word
    have ends : 'Z'.val.toNat = 90 ∧ 'z'.val.toNat = 122 ∧ 'A'.val.toNat = 65 ∧
      'a'.val.toNat = 97 := by decide
    rcases word with letters | rfl
    · omega
    · decide
  · simp only [isQuote, Bool.or_eq_true, beq_iff_eq] at quote
    rcases quote with rfl | rfl <;> decide
  · simp only [isMark, List.contains_eq_mem, decide_eq_true_eq, List.mem_cons, List.not_mem_nil,
      or_false] at mark
    rcases mark with rfl | rfl | rfl | rfl | rfl | rfl | rfl <;> decide

/-- No token starts with a blank character. -/
theorem not_isBlank_of_starts {letter : Char}
    (starts : startsWord letter = true ∨ isQuote letter = true ∨ isMark letter = true) :
    Text.isBlank letter = false := by
  have plain := plain_of_starts starts
  simp only [Text.isBlank, Text.inRanges, Text.blankRanges, List.any_cons, List.any_nil,
    Bool.or_false, Bool.or_eq_false_iff, Bool.and_eq_false_iff, decide_eq_false_iff_not]
  omega

/-- Separators are blank. -/
theorem isBlank_of_isSeparator {letter : Char} (separates : isSeparator letter = true) :
    Text.isBlank letter = true := by
  simp only [isSeparator, Bool.or_eq_true, beq_iff_eq] at separates
  rcases separates with ((rfl | rfl) | rfl) | rfl <;> decide

/-- No token starts with a separator. -/
theorem not_isSeparator_of_starts {letter : Char}
    (starts : startsWord letter = true ∨ isQuote letter = true ∨ isMark letter = true) :
    isSeparator letter = false := by
  by_contra separates
  rw [Bool.not_eq_false] at separates
  exact absurd ((isBlank_of_isSeparator separates).symm.trans (not_isBlank_of_starts starts))
    (by decide)

/-- No word starts with a quote. -/
theorem not_startsWord_of_isQuote {letter : Char} (quotes : isQuote letter = true) :
    startsWord letter = false := by
  simp only [isQuote, Bool.or_eq_true, beq_iff_eq] at quotes
  rcases quotes with rfl | rfl <;> decide

/-- Neither a word nor a string starts with a mark. -/
theorem not_starts_of_isMark {letter : Char} (marks : isMark letter = true) :
    startsWord letter = false ∧ isQuote letter = false := by
  simp only [isMark, List.contains_eq_mem, decide_eq_true_eq, List.mem_cons, List.not_mem_nil,
    or_false] at marks
  rcases marks with rfl | rfl | rfl | rfl | rfl | rfl | rfl <;> decide

/-! ### Cutting a text into tokens -/

/-- A separator is passed over. -/
theorem tokensOf_lexemes_gap {letter : Char} (separates : isSeparator letter = true)
    (offset : Nat) (rest : List Char) :
    tokensOf (lexemes offset (letter :: rest)) =
      tokensOf (lexemes (offset + letter.utf8Size) rest) := by
  rw [lexemes, if_pos separates]

/-- Where a token starts, it is cut off and the rest is cut on. -/
theorem tokensOf_lexemes_token {letter : Char} (starts : isSeparator letter = false)
    (offset : Nat) (rest : List Char) :
    ∃ behind, tokensOf (lexemes offset (letter :: rest)) =
      (firstToken letter rest).1 :: tokensOf (lexemes behind (firstToken letter rest).2.val) := by
  rw [lexemes, if_neg (Bool.eq_false_iff.mp starts)]
  exact ⟨_, rfl⟩

/-- A word is cut off with all the characters that it can go on with. -/
theorem firstToken_word {letter : Char} {name rest : List Char}
    (starts : startsWord letter = true) (continues : ∀ next ∈ name, continuesWord next = true)
    (longest : ∀ next, rest.head? = some next → continuesWord next = false) :
    (firstToken letter (name ++ rest)).1 = .word (String.ofList (letter :: name)) ∧
      (firstToken letter (name ++ rest)).2.val = rest := by
  have none_taken : rest.takeWhile continuesWord = [] ∧ rest.dropWhile continuesWord = rest := by
    cases rest with
    | nil => exact ⟨rfl, rfl⟩
    | cons next rest => simp [longest next rfl]
  rw [firstToken, if_pos starts]
  refine ⟨?_, ?_⟩
  · rw [List.takeWhile_append_of_pos continues, none_taken.1, List.append_nil]
  · exact (List.dropWhile_append_of_pos continues).trans none_taken.2

/-- A string is cut off up to the next quote of its kind. -/
theorem firstToken_quoted {quote : Char} {content : List Char} (rest : List Char)
    (quotes : isQuote quote = true) (free : quote ∉ content) :
    (firstToken quote (content ++ quote :: rest)).1 = .quoted (String.ofList content) ∧
      (firstToken quote (content ++ quote :: rest)).2.val = rest := by
  have found := Text.splitFirst_append rest free
  rw [firstToken, if_neg (Bool.eq_false_iff.mp (not_startsWord_of_isQuote quotes)),
    if_pos quotes]
  split
  · next inner behind cut =>
    cases found.symm.trans cut
    exact ⟨rfl, rfl⟩
  · next cut => cases found.symm.trans cut

/-- A mark is cut off alone. -/
theorem firstToken_mark {letter : Char} (marks : isMark letter = true) (rest : List Char) :
    firstToken letter rest = (.mark letter, .all rest) := by
  obtain ⟨notWord, notQuote⟩ := not_starts_of_isMark marks
  rw [firstToken, if_neg (Bool.eq_false_iff.mp notWord), if_neg (Bool.eq_false_iff.mp notQuote),
    if_pos marks]

/-- A text is cut into the tokens that it is spelled with. -/
theorem Spells.tokensOf_lexemes {letters : List Char} {tokens : List Token}
    (spells : Spells letters tokens) (offset : Nat) :
    tokensOf (lexemes offset letters) = tokens := by
  induction spells generalizing offset with
  | done => rw [lexemes, tokensOf_nil]
  | gap separates spells inductionHypothesis =>
    rw [tokensOf_lexemes_gap separates, inductionHypothesis]
  | @word letter name rest tokens starts continues longest spells inductionHypothesis =>
    obtain ⟨behind, cut⟩ := tokensOf_lexemes_token (not_isSeparator_of_starts (.inl starts))
      offset (name ++ rest)
    obtain ⟨front, left⟩ := firstToken_word starts continues longest
    rw [cut, front, left, inductionHypothesis]
  | @quoted quote content rest tokens quotes free spells inductionHypothesis =>
    obtain ⟨behind, cut⟩ := tokensOf_lexemes_token
      (not_isSeparator_of_starts (.inr (.inl quotes))) offset (content ++ quote :: rest)
    obtain ⟨front, left⟩ := firstToken_quoted rest quotes free
    rw [cut, front, left, inductionHypothesis]
  | @mark letter rest tokens marks spells inductionHypothesis =>
    obtain ⟨behind, cut⟩ := tokensOf_lexemes_token
      (not_isSeparator_of_starts (.inr (.inr marks))) offset rest
    rw [cut, firstToken_mark marks]
    exact congrArg _ (inductionHypothesis behind)

/-- A text is spelled with one sequence of tokens only. -/
theorem Spells.unique {letters : List Char} {tokens others : List Token}
    (spells : Spells letters tokens) (other : Spells letters others) : tokens = others :=
  (spells.tokensOf_lexemes 0).symm.trans (other.tokensOf_lexemes 0)

/-- A text is spelled with its first token, unless it is stray, and those of the rest. -/
theorem spells_firstToken {letter : Char} {rest : List Char} {token : Token}
    {after : Text.Remaining rest} {tokens : List Token}
    (cut : firstToken letter rest = (token, after)) (plain : ∀ stray, token ≠ .stray stray)
    (spells : Spells after.val tokens) : Spells (letter :: rest) (token :: tokens) := by
  rw [firstToken] at cut
  split at cut
  · next starts =>
    cases cut
    have continues : ∀ next ∈ rest.takeWhile continuesWord, continuesWord next = true :=
      List.all_eq_true.mp List.all_takeWhile
    have longest : ∀ next, (rest.dropWhile continuesWord).head? = some next →
        continuesWord next = false := by
      intro next front
      have stops := List.head?_dropWhile_not continuesWord rest
      rwa [front] at stops
    have spelled := Spells.word starts continues longest spells
    rwa [List.takeWhile_append_dropWhile] at spelled
  · split at cut
    · next quotes =>
      split at cut
      · next content behind split =>
        cases cut
        rw [← Text.append_of_splitFirst split]
        exact .quoted quotes (Text.not_mem_of_splitFirst split) spells
      · cases cut
        exact absurd rfl (plain letter)
    · split at cut
      · next marks =>
        cases cut
        exact .mark marks spells
      · cases cut
        exact absurd rfl (plain letter)

/-- A text that is cut into tokens without a stray character is spelled with them. -/
theorem spells_of_lexemes {letters : List Char} {offset : Nat}
    (plain : ∀ stray, .stray stray ∉ tokensOf (lexemes offset letters)) :
    Spells letters (tokensOf (lexemes offset letters)) := by
  induction offset, letters using lexemes.induct with
  | case1 offset =>
    rw [lexemes]
    exact .done
  | case2 offset letter rest separates inductionHypothesis =>
    rw [tokensOf_lexemes_gap separates] at plain ⊢
    exact .gap separates (inductionHypothesis plain)
  | case3 offset letter rest starts token after bound cut size inductionHypothesis =>
    have tokens_eq : tokensOf (lexemes offset (letter :: rest)) =
        token :: tokensOf (lexemes (offset + size) after) := by
      rw [lexemes, if_neg starts, cut]
      rfl
    rw [tokens_eq] at plain ⊢
    refine spells_firstToken cut ?_ (inductionHypothesis ?_)
    · exact fun stray same => plain stray (List.mem_cons.mpr (.inl same.symm))
    · exact fun stray member => plain stray (List.mem_cons_of_mem _ member)

/-- A text that is spelled with tokens is not blank. -/
theorem Spells.not_isBlank {letters : List Char} {tokens : List Token}
    (spells : Spells letters tokens) (some_token : tokens ≠ []) :
    letters.all Text.isBlank = false := by
  induction spells with
  | done => exact absurd rfl some_token
  | gap separates spells inductionHypothesis =>
    rw [List.all_cons, inductionHypothesis some_token, Bool.and_false]
  | word starts continues longest spells =>
    rw [List.all_cons, not_isBlank_of_starts (.inl starts), Bool.false_and]
  | quoted quotes free spells =>
    rw [List.all_cons, not_isBlank_of_starts (.inr (.inl quotes)), Bool.false_and]
  | mark marks spells =>
    rw [List.all_cons, not_isBlank_of_starts (.inr (.inr marks)), Bool.false_and]

/-! ### The tokens of a way of writing a query -/

section Tokens

variable {P : Token → Prop} (marks : ∀ letter, isMark letter = true → P (.mark letter))
include marks

theorem forall_listed {first : Token} {further : List Token} (first_holds : P first)
    (further_hold : ∀ token ∈ further, P token) : ∀ token ∈ listed first further, P token := by
  rw [listed, List.forall_mem_cons, List.forall_mem_flatMap]
  refine ⟨first_holds, fun token member => ?_⟩
  rw [List.forall_mem_cons, List.forall_mem_singleton]
  exact ⟨marks ',' rfl, further_hold token member⟩

theorem forall_mention {mention : TypeMention} (names : ∀ name ∈ mention.names, P (.word name)) :
    ∀ token ∈ mention.tokens, P token := by
  cases mention with
  | bare name => simpa [TypeMention.tokens, TypeMention.names] using names
  | qualified space name =>
    simpa [TypeMention.tokens, TypeMention.names, marks '.' rfl] using names

theorem forall_modifier {modifier : Modifier}
    (keywords : ∀ comparison : Comparison, P (.word comparison.keyword))
    (names : ∀ name ∈ modifier.names, P (.word name))
    (values : ∀ value ∈ modifier.values, P (.quoted value)) :
    ∀ token ∈ modifier.tokens, P token := by
  match modifier with
  | .show .all => simp [Modifier.tokens, AttrChoice.tokens, marks ':' rfl, marks '*' rfl]
  | .show (.named []) => simp [Modifier.tokens, AttrChoice.tokens, marks ':' rfl]
  | .show (.named (first :: further)) =>
    rw [Modifier.names, List.forall_mem_cons] at names
    rw [Modifier.tokens, List.forall_mem_cons]
    exact ⟨marks ':' rfl, forall_listed marks names.1 (List.forall_mem_map.mpr names.2)⟩
  | .search condition =>
    simp only [Modifier.names, Modifier.values, List.forall_mem_singleton] at names values
    simp [Modifier.tokens, marks '?' rfl, names, values, keywords]

theorem forall_clause {clause : ProfileClause} (opening : P (.word "in"))
    (names : ∀ first further, clause = .names first further →
      ∀ name ∈ first :: further, P name.token) :
    ∀ token ∈ clause.tokens, P token := by
  match clause with
  | .absent => exact nofun
  | .star => simp [ProfileClause.tokens, opening, marks '*' rfl]
  | .names first further =>
    have named := names first further rfl
    rw [List.forall_mem_cons] at named
    rw [ProfileClause.tokens, List.forall_mem_cons]
    exact ⟨opening, forall_listed marks named.1 (List.forall_mem_map.mpr named.2)⟩

/-- What holds of marks, keywords, names and strings holds of all tokens of a query. -/
theorem forall_tokens {written : Written}
    (keywords : ∀ comparison : Comparison, P (.word comparison.keyword))
    (profiles : ∀ token ∈ written.profiles.tokens, P token)
    (mentions : ∀ item ∈ written.query.items, ∀ name ∈ item.mention.names, P (.word name))
    (names : ∀ item ∈ written.query.items, ∀ modifier ∈ item.modifiers,
      ∀ name ∈ modifier.names, P (.word name))
    (values : ∀ item ∈ written.query.items, ∀ modifier ∈ item.modifiers,
      ∀ value ∈ modifier.values, P (.quoted value)) :
    ∀ token ∈ written.tokens, P token := by
  have items : ∀ item ∈ written.query.items, ∀ token ∈ item.tokens, P token := by
    intro item member
    rw [QueryItem.tokens, List.forall_mem_append, List.forall_mem_flatMap]
    exact ⟨forall_mention marks (mentions item member), fun modifier among =>
      forall_modifier marks keywords (names item member modifier among)
        (values item member modifier among)⟩
  rw [Written.query, Query.items, List.forall_mem_cons, List.forall_mem_map] at items
  rw [Written.tokens, List.forall_mem_append, List.forall_mem_append, List.forall_mem_flatMap]
  refine ⟨⟨profiles, items.1⟩, fun linked member => ?_⟩
  rw [Written.linkedTokens, List.forall_mem_cons]
  refine ⟨?_, items.2 linked member⟩
  cases linked.1
  · exact marks '-' rfl
  · exact marks '=' rfl

end Tokens

/-- No token of a query is stray. -/
theorem stray_not_mem_tokens (written : Written) (letter : Char) :
    .stray letter ∉ written.tokens := by
  have plain : ∀ token ∈ written.tokens, token ≠ .stray letter := by
    have marks : ∀ mark, isMark mark = true → Token.mark mark ≠ .stray letter := nofun
    refine forall_tokens marks nofun (forall_clause marks nofun ?_) nofun nofun nofun
    exact fun first further _ name _ => by cases name <;> exact nofun
  exact fun member => plain _ member rfl

/-! ### The text of a query -/

/-- Whether a token can be written: a word, a string without quotes of both kinds, or a mark. -/
def isSpellable : Token → Bool
  | .word name => isIdentifier name
  | .quoted content => isQuotable content
  | .mark letter => isMark letter
  | .stray _ => false

/-- The quote that a string is written with does not stand in it. -/
theorem quoteFor_spec {content : String} (quotable : isQuotable content = true) :
    isQuote (quoteFor content) = true ∧ quoteFor content ∉ content.toList := by
  unfold quoteFor
  split
  · next single =>
    refine ⟨rfl, fun double => ?_⟩
    rw [isQuotable, single, List.contains_iff_mem.mpr double] at quotable
    cases quotable
  · next single => exact ⟨rfl, fun member => single (List.contains_iff_mem.mpr member)⟩

/-- A token that can be written is spelled by its text, before what no word goes on with. -/
theorem spells_token {token : Token} (spellable : isSpellable token = true) (rest : List Char)
    {tokens : List Token} (apart : ∀ next, rest.head? = some next → continuesWord next = false)
    (spells : Spells rest tokens) : Spells (token.text.toList ++ rest) (token :: tokens) := by
  cases token with
  | word name =>
    rw [isSpellable, isIdentifier] at spellable
    split at spellable
    · cases spellable
    · next letter further letters =>
      rw [Bool.and_eq_true, List.all_eq_true] at spellable
      have name_eq : name = String.ofList (letter :: further) := by
        rw [← letters, String.ofList_toList]
      rw [Token.text, letters, List.cons_append, name_eq]
      exact .word spellable.1 spellable.2 apart spells
  | quoted content =>
    obtain ⟨quotes, free⟩ := quoteFor_spec spellable
    have spelled := Spells.quoted quotes free spells
    rw [String.ofList_toList] at spelled
    rw [Token.text, String.toList_ofList, List.cons_append, List.append_assoc,
      List.singleton_append]
    exact spelled
  | mark letter =>
    rw [Token.text, Char.toString, String.toList_singleton]
    exact .mark spellable spells
  | stray letter => cases spellable

/-- Tokens that can be written are spelled by their texts with spaces between. -/
theorem spells_intercalate {tokens : List Token}
    (spellable : ∀ token ∈ tokens, isSpellable token = true) :
    Spells (" ".intercalate (tokens.map Token.text)).toList tokens := by
  induction tokens with
  | nil => exact .done
  | cons token tokens inductionHypothesis =>
    rw [List.forall_mem_cons] at spellable
    have rest := inductionHypothesis spellable.2
    cases tokens with
    | nil =>
      have spelled := spells_token spellable.1 [] nofun .done
      rwa [List.append_nil] at spelled
    | cons next tokens =>
      have spelled := spells_token spellable.1 (' ' :: _) (by rintro _ ⟨⟩; rfl)
        (.gap rfl rest)
      simpa [String.intercalate_cons_cons] using spelled

/-- What is chosen by the clause for a choice of profiles is that choice. -/
theorem choice_ofChoice {choice : ProfileChoice} (chosen : choice ≠ .only []) :
    (ProfileClause.ofChoice choice).choice = choice := by
  match choice, chosen with
  | .all, _ => rfl
  | .only (first :: further), _ =>
    simp only [ProfileClause.ofChoice, ProfileClause.choice, ProfileName.profile, List.map_map,
      Function.comp_def, List.map_id']

/-- A query in writing is that query. -/
theorem query_written {query : Query} (chosen : query.profiles ≠ .only []) :
    query.written.query = query := by
  rw [Written.query, Query.written, choice_ofChoice chosen]

/-- All tokens of a query that can be written can be written. -/
theorem isSpellable_of_isWellFormed {query : Query} (wellFormed : query.IsWellFormed) :
    ∀ token ∈ query.written.tokens, isSpellable token = true := by
  have marks : ∀ letter, isMark letter = true → isSpellable (.mark letter) = true := fun _ => id
  refine forall_tokens marks (fun comparison => by cases comparison <;> decide)
    (forall_clause marks (by decide) ?_) ?_ ?_ ?_
  · intro first further given
    obtain ⟨names, chosen⟩ : ∃ names, query.profiles = .only names := by
      cases choice : query.profiles with
      | all => simp [Query.written, choice, ProfileClause.ofChoice] at given
      | only names => exact ⟨names, rfl⟩
    have quotable := wellFormed.profiles names chosen
    cases names with
    | nil => exact absurd chosen wellFormed.chosen
    | cons name names =>
      rw [Query.written, chosen, ProfileClause.ofChoice] at given
      cases given
      rw [List.forall_mem_cons] at quotable
      exact List.forall_mem_cons.mpr ⟨quotable.1, List.forall_mem_map.mpr quotable.2⟩
  all_goals rw [query_written wellFormed.chosen]
  · exact fun item member => (wellFormed.items item member).mention
  · exact fun item member => (wellFormed.items item member).names
  · exact fun item member => (wellFormed.items item member).values

/-! ### Reading the text of a query -/

/-- A text that is spelled with the tokens of a way of writing a query is read as that query. -/
theorem parse_of_spells {text : String} {written : Written} (complete : written.IsComplete)
    (spells : Spells text.toList written.tokens) : parse text = .ok written.query := by
  have some_token : written.tokens ≠ [] := by
    obtain ⟨clause, ⟨mention, modifiers⟩, sequence⟩ := written
    cases mention <;> simp [Written.tokens, QueryItem.tokens, TypeMention.tokens]
  have visible : Text.isBlankText text = false := spells.not_isBlank some_token
  rw [parse, if_neg (Bool.eq_false_iff.mp visible),
    ofTokens_complete complete (spells.tokensOf_lexemes 0)]

/-- A text is read as a query exactly when it is spelled with the tokens of a complete way of
writing the query. -/
theorem parse_iff {text : String} {query : Query} :
    parse text = .ok query ↔
      ∃ written : Written, written.IsComplete ∧ written.query = query ∧
        Spells text.toList written.tokens := by
  constructor
  · intro read
    rw [parse] at read
    split at read
    · cases read
    · split at read
      · next found =>
        cases read
        obtain ⟨written, complete, rfl, tokens_eq⟩ := ofTokens_sound found
        refine ⟨written, complete, rfl, ?_⟩
        rw [← tokens_eq]
        exact spells_of_lexemes (by
          rw [tokens_eq]
          exact stray_not_mem_tokens written)
      · cases read
  · rintro ⟨written, complete, rfl, spells⟩
    exact parse_of_spells complete spells

/-- A query that can be written is read from its text. -/
theorem parse_written {query : Query} (wellFormed : query.IsWellFormed) :
    parse query.written.text = .ok query := by
  have query_eq := query_written wellFormed.chosen
  have complete : query.written.IsComplete := by
    rw [Written.IsComplete, query_eq]
    exact fun item member => (wellFormed.items item member).listed
  have spells : Spells query.written.text.toList query.written.tokens :=
    spells_intercalate (isSpellable_of_isWellFormed wellFormed)
  rw [parse_of_spells complete spells, query_eq]

/-- The separators between its tokens do not matter to what a text is read as. -/
theorem parse_respelled {text other : String} {tokens : List Token} {query : Query}
    (spells : Spells text.toList tokens) (otherSpells : Spells other.toList tokens)
    (read : parse text = .ok query) : parse other = .ok query := by
  obtain ⟨written, complete, rfl, spelled⟩ := parse_iff.mp read
  obtain rfl := spells.unique spelled
  exact parse_of_spells complete otherSpells

/-- Queries are read by their grammar. A text is read as a query exactly when it is spelled with the
tokens of a complete way of writing the query; it is spelled with one sequence of tokens at most,
and these are the tokens of one way of writing at most; profiles are given in it exactly where it
opens a list of them; the separators between the tokens do not matter; and a query that can be
written is read from its own text. -/
theorem parse_grammar :
    (∀ text query, parse text = .ok query ↔
      ∃ written : Written, written.IsComplete ∧ written.query = query ∧
        Spells text.toList written.tokens) ∧
    (∀ letters tokens others, Spells letters tokens → Spells letters others → tokens = others) ∧
    (∀ written other : Written, written.IsComplete → other.IsComplete →
      written.tokens = other.tokens → written = other) ∧
    (∀ written : Written, written.profiles ≠ .absent ↔ OpensProfiles written.tokens) ∧
    (∀ text other tokens, Spells text.toList tokens → Spells other.toList tokens →
      ∀ query, parse text = .ok query ↔ parse other = .ok query) ∧
    ∀ query : Query, query.IsWellFormed → parse query.written.text = .ok query := by
  refine ⟨fun _ _ => parse_iff, fun _ _ _ => Spells.unique, fun _ _ => Written.eq_of_tokens,
    Written.profiles_iff, ?_, fun _ => parse_written⟩
  exact fun text other tokens spells otherSpells query =>
    ⟨parse_respelled spells otherSpells, parse_respelled otherSpells spells⟩

/-- A query in which profiles, types and attributes are called like the words of the grammar. -/
def namedLikeKeywords : Query where
  profiles := .only ["in", "it's"]
  root := ⟨.bare "in", [.show (.named ["eq", "in"]), .search ⟨"ne", .equal, "in"⟩]⟩
  sequence := [(.short, ⟨.qualified "in" "eq", [.show .all]⟩)]

theorem parse_grammar_namedLikeKeywords :
    namedLikeKeywords.IsWellFormed ∧
      namedLikeKeywords.written.text =
        "in 'in' , \"it's\" in : eq , in ? ne eq 'in' - in . eq : *" ∧
      parse namedLikeKeywords.written.text = .ok namedLikeKeywords ∧
      parse ("\n" ++ namedLikeKeywords.written.text) = .ok namedLikeKeywords := by
  have wellFormed : namedLikeKeywords.IsWellFormed := by
    refine ⟨by decide, ?_, ?_⟩
    · rintro names ⟨⟩
      decide
    · intro item member
      rcases List.mem_cons.mp member with rfl | member
      · exact ⟨by decide, by decide, by decide, by decide⟩
      · obtain rfl := List.mem_singleton.mp member
        exact ⟨by decide, by decide, by decide, by decide⟩
  obtain ⟨sound, unique, derivation, profiles, respelled, roundTrip⟩ := parse_grammar
  have read := roundTrip namedLikeKeywords wellFormed
  obtain ⟨written, -, -, spells⟩ := (sound _ _).mp read
  have spaced : Spells ("\n" ++ namedLikeKeywords.written.text).toList written.tokens := by
    rw [String.toList_append]
    exact .gap rfl spells
  exact ⟨wellFormed, by decide, read, (respelled _ _ _ spells spaced _).mp read⟩

end PathQuery.Query
