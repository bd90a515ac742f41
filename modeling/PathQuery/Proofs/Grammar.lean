/-
This file proves that reading tokens is undoing the writing of queries. Every part is read from the
front of the tokens: what it is read from are its tokens and those left over, and from its tokens,
followed by others that cannot belong to it, nothing else is read. Two written queries with the same
tokens are therefore the same.
-/

import Mathlib.Data.List.Forall2
import PathQuery.Query.Parser
import PathQuery.Query.Written

namespace PathQuery.Query

/-- The tokens of lexemes, whatever their offsets. -/
def tokensOf (lexemes : List Lexeme) : List Token := lexemes.map (·.token)

@[simp] theorem tokensOf_nil : tokensOf [] = [] := rfl

@[simp] theorem tokensOf_cons (lexeme : Lexeme) (rest : List Lexeme) :
    tokensOf (lexeme :: rest) = lexeme.token :: tokensOf rest := rfl

/-- Lexemes whose tokens start with a token start with a lexeme of it. -/
theorem tokensOf_eq_cons {lexemes : List Lexeme} {token : Token} {rest : List Token}
    (same : tokensOf lexemes = token :: rest) :
    ∃ offset behind, lexemes = ⟨token, offset⟩ :: behind ∧ tokensOf behind = rest := by
  obtain ⟨⟨_, offset⟩, behind, rfl, rfl, rest⟩ := List.map_eq_cons_iff.mp same
  exact ⟨offset, behind, rfl, rest⟩

/-- Tokens do not start with a mark. -/
def Avoids (letter : Char) (tokens : List Token) : Prop := tokens.head? ≠ some (.mark letter)

/-! ### Names -/

section Names

variable {α : Type} {name? : Token → Option String} {token : α → Token} {name : α → String}

/-- A class of tokens is read as the names that it was written for. -/
structure Names (name? : Token → Option String) (token : α → Token) (name : α → String) : Prop where
  read : ∀ written, name? (token written) = some (name written)
  written : ∀ {front found}, name? front = some found →
    ∃ written, token written = front ∧ name written = found

theorem profileNames : Names profileName? ProfileName.token ProfileName.profile where
  read written := by cases written <;> rfl
  written {front found} same := by
    cases front with
    | word content => exact ⟨.plain content, rfl, Option.some.inj same⟩
    | quoted content => exact ⟨.quoted content, rfl, Option.some.inj same⟩
    | mark letter => cases same
    | stray letter => cases same

theorem plainNames : Names plainName? Token.word id where
  read written := rfl
  written {front found} same := by
    cases front with
    | word content => exact ⟨content, rfl, Option.some.inj same⟩
    | quoted content => cases same
    | mark letter => cases same
    | stray letter => cases same

/-- Further names are read from their tokens, each after a comma. -/
theorem furtherNames_sound (names : Names name? token name) (lexemes : List Lexeme) :
    ∃ further : List α, (furtherNames name? lexemes).1 = further.map name ∧
      tokensOf lexemes = (further.map token).flatMap (fun token => [.mark ',', token]) ++
        tokensOf (furtherNames name? lexemes).2.val := by
  induction lexemes using furtherNames.induct name? with
  | case1 comma next rest found named more after bound same inductionHypothesis =>
    obtain ⟨further, further_eq, rest_eq⟩ := inductionHypothesis
    obtain ⟨written, token_eq, name_eq⟩ := names.written named
    refine ⟨written :: further, ?_, ?_⟩
    · simp only [furtherNames, named, further_eq, List.map_cons, name_eq]
    · simp only [furtherNames, named, tokensOf_cons, rest_eq, List.map_cons, List.flatMap_cons,
        token_eq, List.cons_append, List.nil_append]
  | case2 comma next rest unnamed =>
    exact ⟨[], by simp only [furtherNames, unnamed, List.map_nil], by
      simp only [furtherNames, unnamed, List.map_nil, List.flatMap_nil, List.nil_append]⟩
  | case3 lexemes other =>
    rw [furtherNames.eq_2 name? lexemes other]
    exact ⟨[], rfl, rfl⟩

/-- From the tokens of further names these are read, up to tokens that start with no comma. -/
theorem furtherNames_complete (names : Names name? token name) (further : List α)
    {lexemes : List Lexeme} {behind : List Token} (avoids : Avoids ',' behind)
    (same : tokensOf lexemes =
      (further.map token).flatMap (fun token => [.mark ',', token]) ++ behind) :
    (furtherNames name? lexemes).1 = further.map name ∧
      tokensOf (furtherNames name? lexemes).2.val = behind := by
  induction further generalizing lexemes with
  | nil =>
    rw [furtherNames.eq_2]
    · exact ⟨rfl, same⟩
    · rintro comma next rest rfl
      have front : behind = .mark ',' :: next.token :: tokensOf rest := same.symm
      exact avoids (congrArg List.head? front)
  | cons written further inductionHypothesis =>
    simp only [List.map_cons, List.flatMap_cons, List.cons_append, List.nil_append] at same
    obtain ⟨comma, named, rfl, named_eq⟩ := tokensOf_eq_cons same
    obtain ⟨offset, rest, rfl, rest_eq⟩ := tokensOf_eq_cons named_eq
    obtain ⟨found, left⟩ := inductionHypothesis rest_eq
    simp only [furtherNames, names.read, List.map_cons, found, left, and_self]

end Names

/-! ### Profiles -/

/-- Profiles are read from the tokens of a clause that gives them. -/
theorem readProfiles_sound {lexemes after : List Lexeme} {choice : ProfileChoice}
    (read : readProfiles lexemes = (choice, after)) :
    ∃ clause : ProfileClause, clause.choice = choice ∧
      tokensOf lexemes = clause.tokens ++ tokensOf after := by
  unfold readProfiles at read
  split at read
  · next offset next rest =>
    split at read
    · next star =>
      cases read
      exact ⟨.star, rfl, by simp [ProfileClause.tokens, star]⟩
    · split at read
      · next found named =>
        obtain ⟨further, further_eq, rest_eq⟩ := furtherNames_sound profileNames rest
        obtain ⟨first, token_eq, rfl⟩ := profileNames.written named
        cases read
        refine ⟨.names first further, ?_, ?_⟩
        · rw [ProfileClause.choice, further_eq]
        · rw [tokensOf_cons, tokensOf_cons, rest_eq, ← token_eq]
          rfl
      · cases read
        exact ⟨.absent, rfl, rfl⟩
  · cases read
    exact ⟨.absent, rfl, rfl⟩

/-- From the tokens of a clause its profiles are read, up to tokens that start with no comma and, if
it is absent, open no list of profiles. -/
theorem readProfiles_complete (clause : ProfileClause) {lexemes : List Lexeme}
    {behind : List Token} (avoids : Avoids ',' behind)
    (opens : clause = .absent → ¬ OpensProfiles behind)
    (same : tokensOf lexemes = clause.tokens ++ behind) :
    ∃ after, readProfiles lexemes = (clause.choice, after) ∧ tokensOf after = behind := by
  cases clause with
  | absent =>
    refine ⟨lexemes, ?_, same⟩
    unfold readProfiles
    split
    · next offset next rest =>
      have front : behind = .word "in" :: next.token :: tokensOf rest := same.symm
      rw [if_neg fun star => opens rfl ⟨_, _, front, .inl star⟩]
      split
      · next found named =>
        obtain ⟨name, token_eq, -⟩ := profileNames.written named
        exact absurd ⟨_, _, front, .inr ⟨name, token_eq.symm⟩⟩ (opens rfl)
      · rfl
    · rfl
  | star =>
    obtain ⟨offset, starred, rfl, starred_eq⟩ := tokensOf_eq_cons same
    obtain ⟨position, rest, rfl, rest_eq⟩ := tokensOf_eq_cons starred_eq
    exact ⟨rest, rfl, rest_eq⟩
  | names first further =>
    obtain ⟨offset, named, rfl, named_eq⟩ := tokensOf_eq_cons same
    obtain ⟨position, rest, rfl, rest_eq⟩ := tokensOf_eq_cons named_eq
    obtain ⟨found, left⟩ := furtherNames_complete profileNames further avoids rest_eq
    refine ⟨_, ?_, left⟩
    have plain : first.token ≠ .mark '*' := by cases first <;> exact Token.noConfusion
    simp only [readProfiles, if_neg plain, profileNames.read, found, ProfileClause.choice]

/-! ### Items -/

/-- A mention is read from its tokens. -/
theorem readMention_sound {lexemes : List Lexeme} {mention : TypeMention} {after : Fewer lexemes}
    (read : readMention lexemes = .ok (mention, after)) :
    tokensOf lexemes = mention.tokens ++ tokensOf after.val := by
  unfold readMention at read
  split at read <;> cases read <;> rfl

/-- From the tokens of a mention it is read, up to tokens that start with no dot. -/
theorem readMention_complete (mention : TypeMention) {lexemes : List Lexeme} {behind : List Token}
    (avoids : Avoids '.' behind) (same : tokensOf lexemes = mention.tokens ++ behind) :
    ∃ after, readMention lexemes = .ok (mention, after) ∧ tokensOf after.val = behind := by
  cases mention with
  | bare name =>
    obtain ⟨offset, rest, rfl, rfl⟩ := tokensOf_eq_cons same
    refine ⟨⟨rest, by simp⟩, ?_, rfl⟩
    rw [readMention.eq_3]
    · rintro dot written behind position rfl
      exact avoids rfl
    · rintro dot behind rfl
      exact avoids rfl
  | qualified space name =>
    obtain ⟨offset, dotted, rfl, dotted_eq⟩ := tokensOf_eq_cons same
    obtain ⟨dot, named, rfl, named_eq⟩ := tokensOf_eq_cons dotted_eq
    obtain ⟨position, rest, rfl, rfl⟩ := tokensOf_eq_cons named_eq
    exact ⟨⟨rest, by simp only [List.length_cons]; omega⟩, rfl, rfl⟩

/-- A choice of attributes is read from its tokens, and if it is a list, it is not empty. -/
theorem readAttrs_sound {lexemes : List Lexeme} {choice : AttrChoice} {after : Remaining lexemes}
    (read : readAttrs lexemes = .ok (choice, after)) :
    tokensOf lexemes = choice.tokens ++ tokensOf after.val ∧ choice ≠ .named [] := by
  unfold readAttrs at read
  split at read
  · cases read
    exact ⟨rfl, AttrChoice.noConfusion⟩
  · next name offset rest =>
    obtain ⟨further, further_eq, rest_eq⟩ := furtherNames_sound plainNames rest
    rw [List.map_id] at further_eq
    cases read
    refine ⟨?_, fun empty => nomatch empty⟩
    rw [tokensOf_cons, rest_eq, AttrChoice.tokens, listed, further_eq, List.cons_append]
  · cases read

/-- From the tokens of a choice of attributes it is read, up to tokens that start with no comma. -/
theorem readAttrs_complete {choice : AttrChoice} (complete : choice ≠ .named [])
    {lexemes : List Lexeme} {behind : List Token} (avoids : Avoids ',' behind)
    (same : tokensOf lexemes = choice.tokens ++ behind) :
    ∃ after, readAttrs lexemes = .ok (choice, after) ∧ tokensOf after.val = behind := by
  match choice, complete with
  | .all, _ =>
    obtain ⟨offset, rest, rfl, rfl⟩ := tokensOf_eq_cons same
    exact ⟨⟨rest, by simp⟩, rfl, rfl⟩
  | .named (first :: further), _ =>
    obtain ⟨offset, rest, rfl, rest_eq⟩ := tokensOf_eq_cons same
    obtain ⟨found, left⟩ := furtherNames_complete plainNames further avoids rest_eq
    rw [List.map_id] at found
    refine ⟨⟨_, Nat.le_succ_of_le (furtherNames plainName? rest).2.property⟩, ?_, left⟩
    simp only [readAttrs, found]

/-- A condition is read from its tokens. -/
theorem readCondition_sound {lexemes : List Lexeme} {condition : Condition}
    {after : Remaining lexemes} (read : readCondition lexemes = .ok (condition, after)) :
    tokensOf lexemes = .word condition.attr :: .word condition.comparison.keyword ::
      .quoted condition.value :: tokensOf after.val := by
  unfold readCondition at read
  split at read
  · next attr place word offset rest =>
    cases compared : Comparison.ofKeyword? word with
    | none =>
      simp only [compared] at read
      cases read
    | some comparison =>
      rcases rest with _ | ⟨⟨_ | value | _ | _, position⟩, behind⟩ <;>
        simp only [compared] at read <;> cases read
      simp only [tokensOf_cons, Comparison.ofKeyword?_eq_some_iff.mp compared]
  · cases read
  · cases read

/-- From the tokens of a condition it is read. -/
theorem readCondition_complete (condition : Condition) {lexemes : List Lexeme}
    {behind : List Token}
    (same : tokensOf lexemes = .word condition.attr :: .word condition.comparison.keyword ::
      .quoted condition.value :: behind) :
    ∃ after, readCondition lexemes = .ok (condition, after) ∧ tokensOf after.val = behind := by
  obtain ⟨offset, compared, rfl, compared_eq⟩ := tokensOf_eq_cons same
  obtain ⟨position, valued, rfl, valued_eq⟩ := tokensOf_eq_cons compared_eq
  obtain ⟨place, rest, rfl, rfl⟩ := tokensOf_eq_cons valued_eq
  refine ⟨⟨rest, by simp only [List.length_cons]; omega⟩, ?_, rfl⟩
  simp only [readCondition, Comparison.ofKeyword?_eq_some_iff.mpr rfl]

/-- A modifier is read from its tokens. -/
theorem readModifier_sound {lexemes : List Lexeme} {modifier : Modifier} {after : Fewer lexemes}
    (read : readModifier lexemes = .ok (some (modifier, after))) :
    tokensOf lexemes = modifier.tokens ++ tokensOf after.val ∧
      modifier ≠ .show (.named []) := by
  unfold readModifier at read
  split at read
  · split at read
    · next attrs =>
      cases read
      obtain ⟨rest_eq, complete⟩ := readAttrs_sound attrs
      exact ⟨by rw [tokensOf_cons, rest_eq]; rfl, fun same => complete (Modifier.show.inj same)⟩
    · cases read
  · split at read
    · next condition =>
      cases read
      exact ⟨by rw [tokensOf_cons, readCondition_sound condition]; rfl, Modifier.noConfusion⟩
    · cases read
  · cases read

/-- From the tokens of a modifier it is read, up to tokens that start with no comma. -/
theorem readModifier_complete {modifier : Modifier} (complete : modifier ≠ .show (.named []))
    {lexemes : List Lexeme} {behind : List Token} (avoids : Avoids ',' behind)
    (same : tokensOf lexemes = modifier.tokens ++ behind) :
    ∃ after, readModifier lexemes = .ok (some (modifier, after)) ∧
      tokensOf after.val = behind := by
  cases modifier with
  | «show» choice =>
    obtain ⟨offset, rest, rfl, rest_eq⟩ := tokensOf_eq_cons same
    have listed : choice ≠ .named [] := fun empty => complete (congrArg _ empty)
    obtain ⟨after, read, left⟩ := readAttrs_complete listed avoids rest_eq
    refine ⟨⟨after.val, Nat.lt_succ_of_le after.property⟩, ?_, left⟩
    simp only [readModifier, read]
  | search condition =>
    obtain ⟨offset, rest, rfl, rest_eq⟩ := tokensOf_eq_cons same
    obtain ⟨after, read, left⟩ := readCondition_complete condition rest_eq
    refine ⟨⟨after.val, Nat.lt_succ_of_le after.property⟩, ?_, left⟩
    simp only [readModifier, read]

/-- Tokens start with a link, if there are any. -/
def AtLink (tokens : List Token) : Prop :=
  ∀ token, tokens.head? = some token → ∃ mark : LinkMark, token = .mark mark.letter

/-- Modifiers and what follows an item start with none but a colon, a question mark or a link. -/
theorem avoids_modifiers (letter : Char) (listed : letter = ',' ∨ letter = '.')
    (modifiers : List Modifier) {behind : List Token} (atLink : AtLink behind) :
    Avoids letter (modifiers.flatMap Modifier.tokens ++ behind) := by
  cases modifiers with
  | nil =>
    intro front
    obtain ⟨mark, same⟩ := atLink _ front
    rcases listed with rfl | rfl <;> cases mark <;> simp [LinkMark.letter] at same
  | cons modifier modifiers =>
    rcases listed with rfl | rfl <;> cases modifier <;> simp [Avoids, Modifier.tokens]

/-- Modifiers are read from their tokens. -/
theorem readModifiers_sound {lexemes : List Lexeme} {modifiers : List Modifier}
    {after : Remaining lexemes} (read : readModifiers lexemes = .ok (modifiers, after)) :
    tokensOf lexemes = modifiers.flatMap Modifier.tokens ++ tokensOf after.val ∧
      .show (.named []) ∉ modifiers := by
  induction lexemes using readModifiers.induct generalizing modifiers with
  | case1 lexemes refusal front =>
    rw [readModifiers, front] at read
    cases read
  | case2 lexemes front =>
    rw [readModifiers, front] at read
    cases read
    exact ⟨rfl, List.not_mem_nil⟩
  | case3 lexemes modifier rest fewer front refusal further inductionHypothesis =>
    rw [readModifiers, front] at read
    simp only [further] at read
    cases read
  | case4 lexemes modifier rest fewer front further left bound read_rest inductionHypothesis =>
    rw [readModifiers, front] at read
    simp only [read_rest] at read
    cases read
    obtain ⟨front_eq, complete⟩ := readModifier_sound front
    obtain ⟨rest_eq, further_complete⟩ := inductionHypothesis read_rest
    refine ⟨?_, ?_⟩
    · rw [front_eq, rest_eq, List.flatMap_cons, List.append_assoc]
    · rw [List.mem_cons, not_or]
      exact ⟨complete.symm, further_complete⟩

/-- From the tokens of modifiers these are read, up to a link or the end. -/
theorem readModifiers_complete {modifiers : List Modifier}
    (complete : .show (.named []) ∉ modifiers) {lexemes : List Lexeme} {behind : List Token}
    (atLink : AtLink behind)
    (same : tokensOf lexemes = modifiers.flatMap Modifier.tokens ++ behind) :
    ∃ after, readModifiers lexemes = .ok (modifiers, after) ∧ tokensOf after.val = behind := by
  induction modifiers generalizing lexemes with
  | nil =>
    have none_read : readModifier lexemes = .ok none := by
      unfold readModifier
      split
      · obtain ⟨mark, front⟩ := atLink _ (congrArg List.head? (same : _ = behind)).symm
        cases mark <;> simp [LinkMark.letter] at front
      · obtain ⟨mark, front⟩ := atLink _ (congrArg List.head? (same : _ = behind)).symm
        cases mark <;> simp [LinkMark.letter] at front
      · rfl
    refine ⟨⟨lexemes, Nat.le_refl _⟩, ?_, same⟩
    rw [readModifiers, none_read]
  | cons modifier modifiers inductionHypothesis =>
    rw [List.mem_cons, not_or] at complete
    rw [List.flatMap_cons, List.append_assoc] at same
    obtain ⟨rest, read, rest_eq⟩ :=
      readModifier_complete (Ne.symm complete.1) (avoids_modifiers _ (.inl rfl) _ atLink) same
    obtain ⟨after, further, left⟩ := inductionHypothesis complete.2 rest_eq
    refine ⟨⟨after.val, ?_⟩, ?_, left⟩
    · exact Nat.le_trans after.property (Nat.le_of_lt rest.property)
    · rw [readModifiers, read]
      simp only [further]

/-- An item is read from its tokens. -/
theorem readItem_sound {lexemes : List Lexeme} {item : QueryItem} {after : Fewer lexemes}
    (read : readItem lexemes = .ok (item, after)) :
    tokensOf lexemes = item.tokens ++ tokensOf after.val ∧
      .show (.named []) ∉ item.modifiers := by
  unfold readItem at read
  split at read
  · cases read
  · next mention =>
    split at read
    · cases read
    · next modifiers =>
      cases read
      obtain ⟨modifiers_eq, complete⟩ := readModifiers_sound modifiers
      refine ⟨?_, complete⟩
      rw [readMention_sound mention, modifiers_eq, QueryItem.tokens, List.append_assoc]

/-- From the tokens of an item it is read, up to a link or the end. -/
theorem readItem_complete {item : QueryItem} (complete : .show (.named []) ∉ item.modifiers)
    {lexemes : List Lexeme} {behind : List Token} (atLink : AtLink behind)
    (same : tokensOf lexemes = item.tokens ++ behind) :
    ∃ after, readItem lexemes = .ok (item, after) ∧ tokensOf after.val = behind := by
  rw [QueryItem.tokens, List.append_assoc] at same
  obtain ⟨rest, mention, rest_eq⟩ :=
    readMention_complete item.mention (avoids_modifiers _ (.inr rfl) _ atLink) same
  obtain ⟨after, modifiers, left⟩ := readModifiers_complete complete atLink rest_eq
  refine ⟨⟨after.val, Nat.lt_of_le_of_lt after.property rest.property⟩, ?_, left⟩
  simp only [readItem, mention, modifiers]

/-! ### Whole queries -/

/-- A token stands for a link exactly when it is the link's mark. -/
theorem linkMark?_eq_some_iff {token : Token} {mark : LinkMark} :
    linkMark? token = some mark ↔ token = .mark mark.letter := by
  unfold linkMark?
  split
  · cases mark <;> simp [LinkMark.letter]
  · cases mark <;> simp [LinkMark.letter]
  · next notShort notFull =>
    cases mark with
    | short => exact ⟨nofun, fun same => absurd same notShort⟩
    | full => exact ⟨nofun, fun same => absurd same notFull⟩

/-- Linked items start with a link. -/
theorem atLink_sequence (sequence : List (LinkMark × QueryItem)) :
    AtLink (sequence.flatMap Written.linkedTokens) := by
  cases sequence with
  | nil => exact nofun
  | cons linked sequence =>
    rintro token front
    cases front
    exact ⟨linked.1, rfl⟩

/-- Linked items are read from their tokens. -/
theorem readSequence_sound {lexemes : List Lexeme} {sequence : List (LinkMark × QueryItem)}
    (read : readSequence lexemes = .ok sequence) :
    tokensOf lexemes = sequence.flatMap Written.linkedTokens ∧
      ∀ linked ∈ sequence, .show (.named []) ∉ linked.2.modifiers := by
  induction lexemes using readSequence.induct generalizing sequence with
  | case1 =>
    rw [readSequence] at read
    cases read
    exact ⟨rfl, nofun⟩
  | case2 next rest unlinked =>
    rw [readSequence, unlinked] at read
    cases read
  | case3 next rest mark linked refusal item =>
    rw [readSequence, linked] at read
    simp only [item] at read
    cases read
  | case4 next rest mark linked item after bound read_item refusal further inductionHypothesis =>
    rw [readSequence, linked] at read
    simp only [read_item, further] at read
    cases read
  | case5 next rest mark linked item after bound read_item further read_rest
      inductionHypothesis =>
    rw [readSequence, linked] at read
    simp only [read_item, read_rest] at read
    cases read
    obtain ⟨item_eq, complete⟩ := readItem_sound read_item
    obtain ⟨rest_eq, further_complete⟩ := inductionHypothesis read_rest
    refine ⟨?_, ?_⟩
    · rw [tokensOf_cons, item_eq, rest_eq, List.flatMap_cons, linkMark?_eq_some_iff.mp linked]
      rfl
    · rw [List.forall_mem_cons]
      exact ⟨complete, further_complete⟩

/-- From the tokens of linked items these are read. -/
theorem readSequence_complete {sequence : List (LinkMark × QueryItem)}
    (complete : ∀ linked ∈ sequence, .show (.named []) ∉ linked.2.modifiers)
    {lexemes : List Lexeme} (same : tokensOf lexemes = sequence.flatMap Written.linkedTokens) :
    readSequence lexemes = .ok sequence := by
  induction sequence generalizing lexemes with
  | nil =>
    obtain rfl : lexemes = [] := List.map_eq_nil_iff.mp same
    rw [readSequence]
  | cons linked sequence inductionHypothesis =>
    rw [List.forall_mem_cons] at complete
    obtain ⟨offset, rest, rfl, rest_eq⟩ := tokensOf_eq_cons same
    obtain ⟨after, item, after_eq⟩ :=
      readItem_complete complete.1 (atLink_sequence sequence) rest_eq
    rw [readSequence, linkMark?_eq_some_iff.mpr rfl]
    simp only [item, inductionHypothesis complete.2 after_eq]

/-- An item and linked ones do not open a list of profiles, whatever the item is called. -/
theorem not_opensProfiles (item : QueryItem) (sequence : List (LinkMark × QueryItem)) :
    ¬ OpensProfiles (item.tokens ++ sequence.flatMap Written.linkedTokens) := by
  rintro ⟨next, rest, same, front⟩
  have plain : next ≠ .mark '*' ∧ ∀ name : ProfileName, next ≠ name.token := by
    obtain ⟨mention, modifiers⟩ := item
    cases mention with
    | bare name =>
      -- After the name stands the first mark of a modifier or of a link.
      obtain ⟨letter, rfl, other⟩ : ∃ letter, next = .mark letter ∧ letter ≠ '*' := by
        have behind := (List.cons.inj same).2
        rcases modifiers with _ | ⟨_ | _, modifiers⟩
        · rcases sequence with _ | ⟨⟨_ | _, linked⟩, sequence⟩
          · cases behind
          · exact ⟨'-', (List.cons.inj behind).1.symm, by decide⟩
          · exact ⟨'=', (List.cons.inj behind).1.symm, by decide⟩
        · exact ⟨':', (List.cons.inj behind).1.symm, by decide⟩
        · exact ⟨'?', (List.cons.inj behind).1.symm, by decide⟩
      exact ⟨fun star => other (Token.mark.inj star), fun name => by cases name <;> nofun⟩
    | qualified space name =>
      obtain rfl : .mark '.' = next := (List.cons.inj (List.cons.inj same).2).1
      exact ⟨by decide, fun name => by cases name <;> nofun⟩
  rcases front with star | ⟨name, named⟩
  · exact plain.1 star
  · exact plain.2 name named

/-- An item and linked ones start with no comma. -/
theorem avoids_item (item : QueryItem) (behind : List Token) :
    Avoids ',' (item.tokens ++ behind) := by
  obtain ⟨mention, modifiers⟩ := item
  cases mention <;> exact nofun

/-- A query is read from the tokens of a complete way of writing it. -/
theorem ofTokens_sound {lexemes : List Lexeme} {query : Query}
    (read : ofTokens lexemes = .ok query) :
    ∃ written : Written, written.IsComplete ∧ written.query = query ∧
      tokensOf lexemes = written.tokens := by
  rw [ofTokens] at read
  split at read
  next profiles rest front =>
  obtain ⟨clause, rfl, front_eq⟩ := readProfiles_sound front
  split at read
  · cases read
  · next root =>
    split at read
    · cases read
    · next sequence =>
      cases read
      obtain ⟨root_eq, root_complete⟩ := readItem_sound root
      obtain ⟨sequence_eq, sequence_complete⟩ := readSequence_sound sequence
      refine ⟨⟨clause, _, _⟩, ?_, rfl, ?_⟩
      · simpa only [Written.IsComplete, Written.query, Query.items, List.forall_mem_cons,
          List.forall_mem_map] using ⟨root_complete, sequence_complete⟩
      · rw [front_eq, root_eq, sequence_eq, Written.tokens, List.append_assoc]

/-- From the tokens of a complete way of writing a query, the query is read. -/
theorem ofTokens_complete {written : Written} (complete : written.IsComplete)
    {lexemes : List Lexeme} (same : tokensOf lexemes = written.tokens) :
    ofTokens lexemes = .ok written.query := by
  obtain ⟨clause, root, sequence⟩ := written
  simp only [Written.IsComplete, Written.query, Query.items, List.forall_mem_cons,
    List.forall_mem_map] at complete
  rw [Written.tokens, List.append_assoc] at same
  obtain ⟨rest, profiles, rest_eq⟩ := readProfiles_complete clause (avoids_item root _)
    (fun _ => not_opensProfiles root sequence) same
  obtain ⟨after, item, after_eq⟩ :=
    readItem_complete complete.1 (atLink_sequence sequence) rest_eq
  rw [ofTokens, profiles]
  simp only [item, readSequence_complete complete.2 after_eq, Written.query]

/-! ### One way of writing for the same tokens -/

/-- Different lists do not have the same tokens with commas before them. -/
theorem commas_injective {further others : List Token}
    (same : (further.flatMap fun token => [.mark ',', token]) =
      others.flatMap fun token => [.mark ',', token]) : further = others := by
  induction further generalizing others with
  | nil =>
    cases others with
    | nil => rfl
    | cons token others => cases same
  | cons token further inductionHypothesis =>
    cases others with
    | nil => cases same
    | cons other others =>
      simp only [List.flatMap_cons, List.cons_append, List.nil_append, List.cons.injEq,
        true_and] at same
      rw [same.1, inductionHypothesis same.2]

namespace ProfileName

theorem token_injective : Function.Injective ProfileName.token := by
  intro name other same
  cases name <;> cases other <;> cases same <;> rfl

end ProfileName

namespace ProfileClause

/-- Different clauses have different tokens. -/
theorem tokens_injective : Function.Injective ProfileClause.tokens := by
  intro clause other same
  match clause, other with
  | absent, absent => rfl
  | star, star => rfl
  | names first further, names otherFirst others =>
    obtain ⟨first_eq, further_eq⟩ := List.cons.inj (List.cons.inj same).2
    rw [ProfileName.token_injective first_eq,
      List.map_injective_iff.mpr ProfileName.token_injective (commas_injective further_eq)]
  | star, names first further => cases first <;> cases same
  | names first further, star => cases first <;> cases same

/-- A clause that gives profiles opens a list of them. -/
theorem opensProfiles {clause : ProfileClause} (given : clause ≠ absent) (behind : List Token) :
    OpensProfiles (clause.tokens ++ behind) := by
  match clause, given with
  | star, _ => exact ⟨_, _, rfl, .inl rfl⟩
  | names first further, _ => exact ⟨_, _, rfl, .inr ⟨first, rfl⟩⟩

end ProfileClause

namespace Written

/-- A query is written with profiles exactly where its tokens open a list of profiles. -/
theorem profiles_iff (written : Written) :
    written.profiles ≠ .absent ↔ OpensProfiles written.tokens := by
  rw [Written.tokens, List.append_assoc]
  constructor
  · intro given
    exact ProfileClause.opensProfiles given _
  · intro opens absent
    rw [absent] at opens
    exact not_opensProfiles _ _ opens

/-- Different ways of writing have different tokens. -/
theorem eq_of_tokens {written other : Written} (complete : written.IsComplete)
    (other_complete : other.IsComplete) (same : written.tokens = other.tokens) :
    written = other := by
  let lexemes : List Lexeme := written.tokens.map (⟨·, 0⟩)
  have tokens_eq : tokensOf lexemes = written.tokens := by
    simp only [lexemes, tokensOf, List.map_map, Function.comp_def, List.map_id']
  have query_eq : written.query = other.query := Except.ok.inj
    ((ofTokens_complete complete tokens_eq).symm.trans
      (ofTokens_complete other_complete (tokens_eq.trans same)))
  obtain ⟨clause, root, sequence⟩ := written
  obtain ⟨otherClause, otherRoot, otherSequence⟩ := other
  simp only [Written.query, Query.mk.injEq] at query_eq
  obtain ⟨-, rfl, rfl⟩ := query_eq
  rw [Written.tokens, Written.tokens, List.append_assoc, List.append_assoc] at same
  obtain rfl := ProfileClause.tokens_injective (List.append_cancel_right same)
  rfl

end Written

end PathQuery.Query
