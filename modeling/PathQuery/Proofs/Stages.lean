/-
This file follows the reading of a query token by token. How far a query has been read is told by
the stage that its tokens lead to, and a stage says which tokens may follow. Every stage can be
brought to the end of a query. The readers of the parts of a query go from stage to stage, and where
one of them refuses, the next token does not lead on from the stage that was reached, or there is
none and the query cannot end there. Only a comma after a name is refused for what stands after it.
-/

import PathQuery.Proofs.Grammar

namespace PathQuery.Query

/-- How far a query has been read. Each stage is named for what is due or for what was read last. -/
inductive Stage where
  | start
  /-- The word `in` was read first; it is the name of a type unless it opens a list of profiles. -/
  | opening
  | profileDue
  | profiles
  | itemDue
  /-- A name was read that may be that of a namespace. -/
  | mention
  | nameDue
  /-- A type or a modifier was read that is complete. -/
  | complete
  | attrsDue
  | attrDue
  | attrs
  | conditionDue
  | operatorDue
  | valueDue
  deriving DecidableEq

namespace Stage

/-- The stage that a token leads to wherever an item may end. -/
def onward : Token → Option Stage
  | .mark ':' => some attrsDue
  | .mark '?' => some conditionDue
  | .mark '-' => some itemDue
  | .mark '=' => some itemDue
  | _ => none

/-- The stage that a token leads to. -/
def advance (stage : Stage) (token : Token) : Option Stage :=
  match stage with
  | start =>
    match token with
    | .word name => some (if name = "in" then opening else mention)
    | _ => none
  | opening =>
    match token with
    | .word _ => some profiles
    | .quoted _ => some profiles
    | .mark '*' => some itemDue
    | .mark '.' => some nameDue
    | token => onward token
  | profileDue =>
    match token with
    | .word _ => some profiles
    | .quoted _ => some profiles
    | _ => none
  | profiles =>
    match token with
    | .word _ => some mention
    | .mark ',' => some profileDue
    | _ => none
  | itemDue =>
    match token with
    | .word _ => some mention
    | _ => none
  | mention =>
    match token with
    | .mark '.' => some nameDue
    | token => onward token
  | nameDue =>
    match token with
    | .word _ => some complete
    | _ => none
  | complete => onward token
  | attrsDue =>
    match token with
    | .word _ => some attrs
    | .mark '*' => some complete
    | _ => none
  | attrDue =>
    match token with
    | .word _ => some attrs
    | _ => none
  | attrs =>
    match token with
    | .mark ',' => some attrDue
    | token => onward token
  | conditionDue =>
    match token with
    | .word _ => some operatorDue
    | _ => none
  | operatorDue =>
    match token with
    | .word word => if (Comparison.ofKeyword? word).isSome then some valueDue else none
    | _ => none
  | valueDue =>
    match token with
    | .quoted _ => some complete
    | _ => none

/-- Whether a query may end at a stage. -/
def isFinal : Stage → Bool
  | opening | mention | complete | attrs => true
  | _ => false

/-- The stage that tokens lead to, one after the other. -/
def run (stage : Stage) (tokens : List Token) : Option Stage :=
  tokens.foldlM advance stage

theorem run_append (stage : Stage) (front rest : List Token) :
    stage.run (front ++ rest) = (stage.run front).bind (·.run rest) :=
  List.foldlM_append

theorem run_cons (stage : Stage) (token : Token) (rest : List Token) :
    stage.run (token :: rest) = (stage.advance token).bind (·.run rest) := rfl

theorem run_singleton (stage : Stage) (token : Token) :
    stage.run [token] = stage.advance token := by
  rw [run_cons]
  cases stage.advance token <;> rfl

/-- Tokens that bring a query to its end. -/
def completion : Stage → List Token
  | opening | mention | complete | attrs => []
  | start | profiles | itemDue | nameDue | attrDue => [.word "a"]
  | profileDue => [.word "a", .word "a"]
  | attrsDue => [.mark '*']
  | conditionDue => [.word "a", .word "eq", .quoted ""]
  | operatorDue => [.word "eq", .quoted ""]
  | valueDue => [.quoted ""]

/-- Every stage can be brought to the end of a query. -/
theorem run_completion (stage : Stage) :
    ∃ last, stage.run stage.completion = some last ∧ last.isFinal = true := by
  cases stage <;> exact ⟨_, rfl, rfl⟩

/-- Where an item may end, further modifiers and links may follow. -/
theorem advance_of_onward {stage next : Stage} {token : Token} (ends : stage.isFinal = true)
    (leads : onward token = some next) : stage.advance token = some next := by
  unfold onward at leads
  cases stage <;> cases ends
  all_goals split at leads <;> cases leads <;> rfl

theorem advance_mention {token : Token} (plain : token ≠ .mark '.') :
    mention.advance token = onward token := by
  dsimp only [advance]
  split
  · exact absurd rfl plain
  · rfl

/-- After the word `in` a token that opens no list of profiles is one after a name. -/
theorem advance_opening {token : Token} (plain : token ≠ .mark '.') (star : token ≠ .mark '*')
    (unnamed : profileName? token = none) : opening.advance token = onward token := by
  dsimp only [advance]
  split
  · cases unnamed
  · cases unnamed
  · exact absurd rfl star
  · exact absurd rfl plain
  · rfl

/-- After listed profiles only a name or a comma goes on. -/
theorem advance_profiles {token : Token} (plain : plainName? token = none)
    (comma : token ≠ .mark ',') : profiles.advance token = none := by
  dsimp only [advance]
  split
  · cases plain
  · exact absurd rfl comma
  · rfl

theorem advance_attrs {token : Token} (plain : token ≠ .mark ',') :
    attrs.advance token = onward token := by
  dsimp only [advance]
  split
  · exact absurd rfl plain
  · rfl

end Stage

/-! ### Tokens that are refused -/

/-- Two tokens are words, or they are the same. -/
def Token.Resembles : Token → Token → Prop
  | .word _, .word _ => True
  | token, other => token = other

@[simp] theorem Token.resembles_refl (token : Token) : token.Resembles token := by
  cases token <;> simp [Resembles]

/-- A token that resembles one that is not a word is that token. -/
theorem Token.Resembles.eq {token other : Token} (resembles : token.Resembles other)
    (plain : plainName? token = none) : token = other := by
  cases token with
  | word name => cases plain
  | quoted | mark | stray => exact resembles

theorem Token.Resembles.eq_mark {token : Token} {letter : Char}
    (resembles : token.Resembles (.mark letter)) : token = .mark letter := by
  cases token with
  | word name => cases resembles
  | quoted | mark | stray => exact resembles

theorem Stage.onward_of_resembles {token other : Token} (resembles : token.Resembles other)
    (stops : onward token = none) : onward other = none := by
  cases token with
  | word name =>
    cases other with
    | word => rfl
    | quoted | mark | stray => cases resembles
  | quoted | mark | stray => rwa [← resembles.eq rfl]

/-- No token that resembles a token leads on from a stage. -/
def Stage.Excludes (stage : Stage) (token : Token) : Prop :=
  ∀ other, token.Resembles other → stage.advance other = none

/-- A token that is no word is excluded where it leads nowhere. -/
theorem Stage.excludes_of_plain {stage : Stage} {token : Token} (plain : plainName? token = none)
    (stops : stage.advance token = none) : stage.Excludes token :=
  fun _ resembles => resembles.eq plain ▸ stops

/-- Why a query is refused at a stage, before lexemes that are left. -/
inductive Blames : Stage → List Lexeme → Refusal → Prop
  | ending {stage : Stage} {what : Expectation} (unfinished : stage.isFinal = false) :
    Blames stage [] (.expected what [])
  /-- No token like the next one leads on. A profile is never missed after its comma. -/
  | token {stage : Stage} {what : Expectation} {lexeme : Lexeme} {rest : List Lexeme}
    (excluded : stage.Excludes lexeme.token) (begun : stage ≠ .profileDue) :
    Blames stage (lexeme :: rest) (.expected what (lexeme :: rest))
  /-- A comma goes on with a list, but no name follows it. -/
  | comma {stage next : Stage} {what : Expectation} {offset : Nat} {rest : List Lexeme}
    (leads : stage.advance (.mark ',') = some next)
    (stops : ∀ lexeme ∈ rest.head?, next.advance lexeme.token = none) :
    Blames stage (⟨.mark ',', offset⟩ :: rest) (.expected what (⟨.mark ',', offset⟩ :: rest))
  /-- The value starts with a double quote that is never closed. -/
  | quote {what : Expectation} {offset : Nat} {rest : List Lexeme} :
    Blames .valueDue (⟨.stray '"', offset⟩ :: rest) (.expected what [])
  | operator {word : String} {offset : Nat} {rest : List Lexeme}
    (unknown : Comparison.ofKeyword? word = none) :
    Blames .operatorDue (⟨.word word, offset⟩ :: rest) (.unknownOperator word offset)

/-- What is left is refused where the query cannot end and its first token is excluded. -/
theorem Blames.of_excluded {stage : Stage} {what : Expectation} {rest : List Lexeme}
    (unfinished : stage.isFinal = false) (begun : stage ≠ .profileDue)
    (excluded : ∀ lexeme ∈ rest.head?, stage.Excludes lexeme.token) :
    Blames stage rest (.expected what rest) := by
  cases rest with
  | nil => exact .ending unfinished
  | cons lexeme rest => exact .token (excluded lexeme rfl) begun

/-- What starts with no word starts with no name. -/
theorem plain_of_no_word {rest : List Lexeme}
    (noWord : ∀ name offset more, rest = ⟨.word name, offset⟩ :: more → False) :
    ∀ lexeme ∈ rest.head?, plainName? lexeme.token = none := by
  rintro ⟨token, offset⟩ front
  obtain ⟨more, rfl⟩ := List.head?_eq_some_iff.mp front
  cases token with
  | word name => exact (noWord name offset more rfl).elim
  | quoted | mark | stray => rfl

/-- Where only a word leads on, what is left is refused unless it starts with one. -/
theorem Blames.of_no_word {stage : Stage} {what : Expectation} {rest : List Lexeme}
    (unfinished : stage.isFinal = false)
    (wordOnly : ∀ token, plainName? token = none → stage.advance token = none)
    (noWord : ∀ name offset more, rest = ⟨.word name, offset⟩ :: more → False) :
    Blames stage rest (.expected what rest) := by
  have begun : stage ≠ .profileDue := by
    rintro rfl
    cases wordOnly (.quoted "") rfl
  refine .of_excluded unfinished begun fun lexeme front => ?_
  have plain := plain_of_no_word noWord lexeme front
  exact Stage.excludes_of_plain plain (wordOnly _ plain)

/-! ### Going from stage to stage -/

/-- Lexemes are read from one stage to another, up to those that are left. -/
def Reads (stage : Stage) (lexemes : List Lexeme) (next : Stage) (rest : List Lexeme) : Prop :=
  ∃ front, lexemes = front ++ rest ∧ stage.run (tokensOf front) = some next

namespace Reads

variable {stage next last : Stage} {lexemes rest left : List Lexeme}

theorem refl (stage : Stage) (lexemes : List Lexeme) : Reads stage lexemes stage lexemes :=
  ⟨[], rfl, rfl⟩

theorem cons {lexeme : Lexeme} (leads : stage.advance lexeme.token = some next)
    (reads : Reads next rest last left) : Reads stage (lexeme :: rest) last left := by
  obtain ⟨front, rfl, run⟩ := reads
  refine ⟨lexeme :: front, rfl, ?_⟩
  rw [tokensOf_cons, Stage.run_cons, leads]
  exact run

theorem trans (reads : Reads stage lexemes next rest) (further : Reads next rest last left) :
    Reads stage lexemes last left := by
  obtain ⟨front, rfl, run⟩ := reads
  obtain ⟨middle, rfl, runOn⟩ := further
  refine ⟨front ++ middle, (List.append_assoc ..).symm, ?_⟩
  rw [tokensOf, List.map_append, Stage.run_append]
  exact Option.bind_eq_some_iff.mpr ⟨next, run, runOn⟩

end Reads

/-- Lexemes are refused at a stage that is reached from another. -/
def Blamed (stage : Stage) (lexemes : List Lexeme) (refusal : Refusal) : Prop :=
  ∃ next rest, Reads stage lexemes next rest ∧ Blames next rest refusal

theorem Blames.blamed {stage : Stage} {lexemes : List Lexeme} {refusal : Refusal}
    (blames : Blames stage lexemes refusal) : Blamed stage lexemes refusal :=
  ⟨stage, lexemes, .refl stage lexemes, blames⟩

theorem Reads.blamed {stage next : Stage} {lexemes rest : List Lexeme} {refusal : Refusal}
    (reads : Reads stage lexemes next rest) (blamed : Blamed next rest refusal) :
    Blamed stage lexemes refusal := by
  obtain ⟨last, left, further, blames⟩ := blamed
  exact ⟨last, left, reads.trans further, blames⟩

/-- An item may end at a stage, and what is left goes on after it or is refused there. -/
structure Settled (stage : Stage) (rest : List Lexeme) : Prop where
  ends : stage.isFinal = true
  stuck : ∀ {what lexeme more}, rest = lexeme :: more → Stage.onward lexeme.token = none →
    Blames stage rest (.expected what rest)

theorem settled_complete (rest : List Lexeme) : Settled .complete rest where
  ends := rfl
  stuck {what lexeme more} same stops := by
    subst same
    exact .token (fun other resembles => Stage.onward_of_resembles resembles stops) nofun

theorem settled_mention {rest : List Lexeme} (avoids : Avoids '.' (tokensOf rest)) :
    Settled .mention rest where
  ends := rfl
  stuck {what lexeme more} same stops := by
    subst same
    refine .token (fun other resembles => ?_) nofun
    rw [Stage.advance_mention, Stage.onward_of_resembles resembles stops]
    rintro rfl
    exact avoids (congrArg some resembles.eq_mark)

/-! ### Names -/

section Lists

variable {name? : Token → Option String} {whole due : Stage}

/-- A list of names is read between two stages: after a name, and after a comma. -/
structure Lists (name? : Token → Option String) (whole due : Stage) : Prop where
  comma : whole.advance (.mark ',') = some due
  named : ∀ {token name}, name? token = some name → due.advance token = some whole
  unnamed : ∀ {token}, name? token = none → due.advance token = none

theorem lists_profiles : Lists profileName? .profiles .profileDue where
  comma := rfl
  named {token name} found := by cases token <;> cases found <;> rfl
  unnamed {token} none := by cases token <;> cases none <;> rfl

theorem lists_attrs : Lists plainName? .attrs .attrDue where
  comma := rfl
  named {token name} found := by cases token <;> cases found; rfl
  unnamed {token} none := by cases token <;> cases none <;> rfl

/-- Further names are read up to a comma that no name follows, or to what is no comma. -/
theorem furtherNames_reads (lists : Lists name? whole due) (lexemes : List Lexeme) :
    Reads whole lexemes whole (furtherNames name? lexemes).2.val ∧
      ∀ {offset rest}, (furtherNames name? lexemes).2.val = ⟨.mark ',', offset⟩ :: rest →
        ∀ lexeme ∈ rest.head?, due.advance lexeme.token = none := by
  induction lexemes using furtherNames.induct name? with
  | case1 comma next rest found named more after bound same inductionHypothesis =>
    obtain ⟨reads, stops⟩ := inductionHypothesis
    simp only [furtherNames, named]
    exact ⟨.cons lists.comma (.cons (lists.named named) reads), stops⟩
  | case2 comma next rest unnamed =>
    simp only [furtherNames, unnamed]
    refine ⟨.refl _ _, fun same lexeme front => ?_⟩
    cases same
    obtain rfl := Option.some.inj front
    exact lists.unnamed unnamed
  | case3 lexemes other =>
    rw [furtherNames.eq_2 name? lexemes other]
    refine ⟨.refl _ _, fun {offset rest} same lexeme front => ?_⟩
    cases rest with
    | nil => cases front
    | cons next more => exact absurd same (other offset next more)

end Lists

/-! ### Items -/

/-- Attributes are read, or it is refused what stands in their place. -/
theorem readAttrs_outcome (lexemes : List Lexeme) :
    (∃ choice after next, readAttrs lexemes = .ok (choice, after) ∧
        Reads .attrsDue lexemes next after.val ∧ Settled next after.val) ∨
      ∃ refusal, readAttrs lexemes = .error refusal ∧ Blamed .attrsDue lexemes refusal := by
  unfold readAttrs
  split
  · next offset rest =>
    exact .inl ⟨_, _, _, rfl, .cons rfl (.refl _ _), settled_complete rest⟩
  · next name offset rest =>
    obtain ⟨reads, stops⟩ := furtherNames_reads lists_attrs rest
    refine .inl ⟨_, _, _, rfl, .cons rfl reads, rfl, fun {what lexeme more} same stuck => ?_⟩
    rw [same]
    obtain ⟨token, place⟩ := lexeme
    by_cases comma : token = .mark ','
    · subst comma
      exact .comma rfl (stops same)
    · refine .token (fun other resembles => ?_) nofun
      rw [Stage.advance_attrs, Stage.onward_of_resembles resembles stuck]
      rintro rfl
      exact comma resembles.eq_mark
  · next noStar noWord =>
    refine .inr ⟨_, rfl, Blames.blamed (.of_excluded rfl nofun fun lexeme front => ?_)⟩
    obtain ⟨token, offset⟩ := lexeme
    obtain ⟨more, rfl⟩ := List.head?_eq_some_iff.mp front
    cases token with
    | word name => exact (noWord name offset more rfl).elim
    | quoted | stray => exact Stage.excludes_of_plain rfl rfl
    | mark letter =>
      refine Stage.excludes_of_plain rfl ?_
      unfold Stage.advance
      dsimp only
      split
      · next same => cases same
      · next same => exact (noStar offset more (by rw [same])).elim
      · rfl

theorem missingValue_blames {rest : List Lexeme}
    (noQuoted : ∀ value offset more, rest = ⟨.quoted value, offset⟩ :: more → False) :
    Blames .valueDue rest (missingValue rest) := by
  unfold missingValue
  split
  · exact .quote
  · refine .of_excluded rfl nofun fun lexeme front other resembles => ?_
    obtain ⟨token, offset⟩ := lexeme
    obtain ⟨more, rfl⟩ := List.head?_eq_some_iff.mp front
    cases token with
    | quoted value => exact (noQuoted value offset more rfl).elim
    | mark | stray =>
      obtain rfl := resembles.eq rfl
      rfl
    | word name =>
      cases other with
      | word => rfl
      | quoted | mark | stray => cases resembles

/-- A condition is read, or it is refused what stands in the place of one of its parts. -/
theorem readCondition_outcome (lexemes : List Lexeme) :
    (∃ condition after, readCondition lexemes = .ok (condition, after) ∧
        Reads .conditionDue lexemes .complete after.val) ∨
      ∃ refusal, readCondition lexemes = .error refusal ∧
        Blamed .conditionDue lexemes refusal := by
  unfold readCondition
  split
  · next attr place word offset rest =>
    have upTo {next : Stage} (leads : Stage.operatorDue.advance (.word word) = some next) :
        Reads .conditionDue (⟨.word attr, place⟩ :: ⟨.word word, offset⟩ :: rest) next rest :=
      .cons rfl (.cons leads (.refl _ _))
    cases compared : Comparison.ofKeyword? word with
    | none =>
      have blamed := (@Blames.operator word offset rest compared).blamed
      exact .inr ⟨_, rfl, Reads.blamed (.cons rfl (.refl _ _)) blamed⟩
    | some comparison =>
      have leads : Stage.operatorDue.advance (.word word) = some .valueDue := by
        show (if _ then _ else _) = _
        rw [compared]
        rfl
      have refused
          (noQuoted : ∀ value offset more, rest = ⟨.quoted value, offset⟩ :: more → False) :=
        (upTo leads).blamed (Blames.blamed (missingValue_blames noQuoted))
      rcases rest with _ | ⟨⟨_ | value | _ | _, position⟩, behind⟩
      case some.cons.quoted => exact .inl ⟨_, _, rfl, (upTo leads).trans (.cons rfl (.refl _ _))⟩
      all_goals exact .inr ⟨_, rfl, refused nofun⟩
  · next attr place rest noWord =>
    have blames : Blames .operatorDue rest (.expected .operator rest) :=
      .of_no_word rfl (fun token plain => by cases token <;> cases plain <;> rfl) noWord
    exact .inr ⟨_, rfl, Reads.blamed (.cons rfl (.refl _ _)) blames.blamed⟩
  · next noBoth noWord =>
    have blames : Blames .conditionDue lexemes (.expected .attrName lexemes) :=
      .of_no_word rfl (fun token plain => by cases token <;> cases plain <;> rfl) noWord
    exact .inr ⟨_, rfl, blames.blamed⟩

/-- No modifier starts with what is left. -/
def NoModifier (rest : List Lexeme) : Prop :=
  ∀ lexeme ∈ rest.head?, lexeme.token ≠ .mark ':' ∧ lexeme.token ≠ .mark '?'

/-- Where an item may end, a mark leads on to a modifier or a link. -/
theorem Reads.onward {stage next : Stage} {letter : Char} {offset : Nat} {rest : List Lexeme}
    (ends : stage.isFinal = true) (leads : Stage.onward (.mark letter) = some next) :
    Reads stage (⟨.mark letter, offset⟩ :: rest) next rest :=
  .cons (Stage.advance_of_onward ends leads) (.refl _ _)

/-- Where an item may end a modifier is read, if one follows, or something in it is refused. -/
theorem readModifier_outcome {stage : Stage} (ends : stage.isFinal = true)
    (lexemes : List Lexeme) :
    (readModifier lexemes = .ok none ∧ NoModifier lexemes) ∨
      (∃ modifier after next, readModifier lexemes = .ok (some (modifier, after)) ∧
        Reads stage lexemes next after.val ∧ Settled next after.val) ∨
      ∃ refusal, readModifier lexemes = .error refusal ∧ Blamed stage lexemes refusal := by
  unfold readModifier
  split
  · next offset rest =>
    rcases readAttrs_outcome rest with ⟨choice, after, next, read, reads, settled⟩ |
      ⟨refusal, refused, blamed⟩
    · rw [read]
      exact .inr (.inl ⟨_, _, _, rfl, (Reads.onward ends rfl).trans reads, settled⟩)
    · rw [refused]
      exact .inr (.inr ⟨_, rfl, (Reads.onward ends rfl).blamed blamed⟩)
  · next offset rest =>
    rcases readCondition_outcome rest with ⟨condition, after, read, reads⟩ |
      ⟨refusal, refused, blamed⟩
    · rw [read]
      exact .inr (.inl ⟨_, _, _, rfl, (Reads.onward ends rfl).trans reads, settled_complete _⟩)
    · rw [refused]
      exact .inr (.inr ⟨_, rfl, (Reads.onward ends rfl).blamed blamed⟩)
  · next noShow noSearch =>
    refine .inl ⟨rfl, fun ⟨token, offset⟩ front => ?_⟩
    obtain ⟨rest, rfl⟩ := List.head?_eq_some_iff.mp front
    refine ⟨?_, ?_⟩
    · rintro rfl
      exact noShow offset rest rfl
    · rintro rfl
      exact noSearch offset rest rfl

/-- Modifiers are read as long as they follow, or something in one of them is refused. -/
theorem readModifiers_outcome {stage : Stage} {lexemes : List Lexeme}
    (settled : Settled stage lexemes) :
    (∃ modifiers after next, readModifiers lexemes = .ok (modifiers, after) ∧
        Reads stage lexemes next after.val ∧ Settled next after.val ∧ NoModifier after.val) ∨
      ∃ refusal, readModifiers lexemes = .error refusal ∧ Blamed stage lexemes refusal := by
  rw [readModifiers]
  -- After a modifier an item may end again, so the stage after it is one to go on from.
  rcases readModifier_outcome settled.ends lexemes with ⟨read, noModifier⟩ |
    ⟨modifier, ⟨rest, fewer⟩, next, read, reads, settledOn⟩ | ⟨refusal, refused, blamed⟩
  · rw [read]
    exact .inl ⟨_, _, stage, rfl, .refl _ _, settled, noModifier⟩
  · rw [read]
    rcases readModifiers_outcome settledOn with ⟨modifiers, after, last, further, readsOn, ended⟩ |
      ⟨refusal, refused, blamed⟩
    · simp only [further]
      exact .inl ⟨_, _, _, rfl, reads.trans readsOn, ended⟩
    · simp only [refused]
      exact .inr ⟨_, rfl, reads.blamed blamed⟩
  · rw [refused]
    exact .inr ⟨_, rfl, blamed⟩
termination_by lexemes.length

/-- An item is due at a stage: a name goes on with one, and what is no name is refused. -/
structure Awaits (stage : Stage) (lexemes : List Lexeme) : Prop where
  named : ∀ {name offset rest}, lexemes = ⟨.word name, offset⟩ :: rest →
    ∃ next, stage.advance (.word name) = some next ∧ next.advance (.mark '.') = some .nameDue ∧
      (Avoids '.' (tokensOf rest) → Settled next rest)
  unnamed : (∀ name offset rest, lexemes = ⟨.word name, offset⟩ :: rest → False) →
    Blames stage lexemes (.expected .typeName lexemes)

theorem awaits_itemDue (lexemes : List Lexeme) : Awaits .itemDue lexemes where
  named _ := ⟨.mention, rfl, rfl, settled_mention⟩
  unnamed := .of_no_word rfl fun token plain => by cases token <;> cases plain <;> rfl

/-- The mention of a type is read, or it is refused what stands in the place of a name. -/
theorem readMention_outcome {stage : Stage} {lexemes : List Lexeme}
    (awaits : Awaits stage lexemes) :
    (∃ mention after next, readMention lexemes = .ok (mention, after) ∧
        Reads stage lexemes next after.val ∧ Settled next after.val) ∨
      ∃ refusal, readMention lexemes = .error refusal ∧ Blamed stage lexemes refusal := by
  unfold readMention
  split
  · next space place position name offset rest =>
    obtain ⟨next, leads, dotted, -⟩ := awaits.named rfl
    exact .inl ⟨_, _, _, rfl, .cons leads (.cons dotted (.cons rfl (.refl _ _))),
      settled_complete rest⟩
  · next space place position rest noWord =>
    obtain ⟨next, leads, dotted, -⟩ := awaits.named rfl
    have blames : Blames .nameDue rest (.expected .typeNameAfterDot rest) :=
      .of_no_word rfl (fun token plain => by cases token <;> cases plain <;> rfl) noWord
    exact .inr ⟨_, rfl, Reads.blamed (.cons leads (.cons dotted (.refl _ _))) blames.blamed⟩
  · next name offset rest _ noDot =>
    obtain ⟨next, leads, -, settled⟩ := awaits.named rfl
    refine .inl ⟨_, _, _, rfl, .cons leads (.refl _ _), settled fun front => ?_⟩
    obtain ⟨behind, tokens_eq⟩ := List.head?_eq_some_iff.mp front
    obtain ⟨position, more, rfl, -⟩ := tokensOf_eq_cons tokens_eq
    exact noDot position more rfl
  · next noWord =>
    exact .inr ⟨_, rfl, (awaits.unnamed noWord).blamed⟩

/-- An item is read where it is due, or something in it is refused. -/
theorem readItem_outcome {stage : Stage} {lexemes : List Lexeme}
    (awaits : Awaits stage lexemes) :
    (∃ item after next, readItem lexemes = .ok (item, after) ∧
        Reads stage lexemes next after.val ∧ Settled next after.val ∧ NoModifier after.val) ∨
      ∃ refusal, readItem lexemes = .error refusal ∧ Blamed stage lexemes refusal := by
  unfold readItem
  rcases readMention_outcome awaits with ⟨mention, rest, next, read, reads, settled⟩ |
    ⟨refusal, refused, blamed⟩
  · rw [read]
    rcases readModifiers_outcome settled with ⟨modifiers, after, last, further, readsOn, ended⟩ |
      ⟨refusal, refused, blamed⟩
    · simp only [further]
      exact .inl ⟨_, _, _, rfl, reads.trans readsOn, ended⟩
    · simp only [refused]
      exact .inr ⟨_, rfl, reads.blamed blamed⟩
  · rw [refused]
    exact .inr ⟨_, rfl, blamed⟩

/-! ### Whole queries -/

/-- Linked items are read up to the end, or something in them is refused. -/
theorem readSequence_outcome {stage : Stage} {lexemes : List Lexeme}
    (settled : Settled stage lexemes) (noModifier : NoModifier lexemes) :
    (∃ sequence next, readSequence lexemes = .ok sequence ∧ Reads stage lexemes next [] ∧
        next.isFinal = true) ∨
      ∃ refusal, readSequence lexemes = .error refusal ∧ Blamed stage lexemes refusal := by
  cases lexemes with
  | nil =>
    rw [readSequence]
    exact .inl ⟨_, _, rfl, .refl _ _, settled.ends⟩
  | cons first rest =>
    rw [readSequence]
    cases linked : linkMark? first.token with
    | none =>
      -- What is no link starts no modifier either, so that nothing is left to go on with.
      have stops : Stage.onward first.token = none := by
        obtain ⟨noColon, noQuestion⟩ := noModifier first rfl
        unfold Stage.onward
        split
        · next same => exact absurd same noColon
        · next same => exact absurd same noQuestion
        · next same => cases same ▸ linked
        · next same => cases same ▸ linked
        · rfl
      exact .inr ⟨_, rfl, (settled.stuck rfl stops).blamed⟩
    | some mark =>
      have leads : Stage.onward first.token = some .itemDue := by
        rw [linkMark?_eq_some_iff.mp linked]
        cases mark <;> rfl
      have upTo : Reads stage (first :: rest) .itemDue rest :=
        .cons (Stage.advance_of_onward settled.ends leads) (.refl _ _)
      rcases readItem_outcome (awaits_itemDue rest) with
        ⟨item, ⟨after, fewer⟩, next, read, reads, settledOn, noModifierOn⟩ |
        ⟨refusal, refused, blamed⟩
      · simp only [read]
        rcases readSequence_outcome settledOn noModifierOn with
          ⟨sequence, last, further, toEnd, ends⟩ | ⟨refusal, refused, blamed⟩
        · simp only [further]
          exact .inl ⟨_, _, rfl, upTo.trans (reads.trans toEnd), ends⟩
        · simp only [refused]
          exact .inr ⟨_, rfl, upTo.blamed (reads.blamed blamed)⟩
      · simp only [refused]
        exact .inr ⟨_, rfl, upTo.blamed blamed⟩
termination_by lexemes.length
decreasing_by
  subst_vars
  simp only [List.length_cons]
  omega

/-- After listed profiles an item is due, unless a name follows after a comma. -/
theorem awaits_profiles {lexemes : List Lexeme}
    (stops : ∀ {offset rest}, lexemes = ⟨.mark ',', offset⟩ :: rest →
      ∀ lexeme ∈ rest.head?, Stage.profileDue.advance lexeme.token = none) :
    Awaits .profiles lexemes where
  named _ := ⟨.mention, rfl, rfl, settled_mention⟩
  unnamed noWord := by
    cases lexemes with
    | nil => exact .ending rfl
    | cons lexeme rest =>
      have plain := plain_of_no_word noWord lexeme rfl
      obtain ⟨token, offset⟩ := lexeme
      -- A comma was given back: a list goes on with it, but no profile follows.
      by_cases comma : token = .mark ','
      · subst comma
        exact .comma rfl (stops rfl)
      · exact .token (Stage.excludes_of_plain plain (Stage.advance_profiles plain comma)) nofun

/-- At the start an item is due, unless a list of profiles is opened. -/
theorem awaits_start {lexemes : List Lexeme} (unopened : ¬ OpensProfiles (tokensOf lexemes)) :
    Awaits .start lexemes where
  named {name offset rest} same := by
    subst same
    by_cases opening : name = "in"
    · subst opening
      refine ⟨.opening, rfl, rfl, fun avoids => ⟨rfl, fun {what lexeme more} same stops => ?_⟩⟩
      subst same
      have star : lexeme.token ≠ .mark '*' := fun same => unopened ⟨_, _, rfl, .inl same⟩
      have unnamed : profileName? lexeme.token = none := by
        by_contra named
        obtain ⟨name, named⟩ := Option.ne_none_iff_exists'.mp named
        obtain ⟨written, token_eq, -⟩ := profileNames.written named
        exact unopened ⟨_, _, rfl, .inr ⟨written, token_eq.symm⟩⟩
      refine .token (Stage.excludes_of_plain ?_ ?_) nofun
      · cases token : lexeme.token <;> simp_all [profileName?, plainName?]
      · rw [Stage.advance_opening (fun dot => avoids (congrArg some dot)) star unnamed, stops]
    · exact ⟨.mention, congrArg some (if_neg opening), rfl, settled_mention⟩
  unnamed := .of_no_word rfl fun token plain => by cases token <;> cases plain <;> rfl

/-- The profiles that a query starts with are read, if they are given, up to where an item is
due. -/
theorem readProfiles_outcome (lexemes : List Lexeme) :
    ∃ next, Reads .start lexemes next (readProfiles lexemes).2 ∧
      Awaits next (readProfiles lexemes).2 := by
  unfold readProfiles
  split
  · next offset next rest =>
    split
    · next star =>
      exact ⟨.itemDue, .cons rfl (.cons (by rw [star]; rfl) (.refl _ _)), awaits_itemDue rest⟩
    · next noStar =>
      split
      · next name named =>
        have leads : Stage.opening.advance next.token = some .profiles := by
          cases token : next.token <;> rw [token] at named <;> cases named <;> rfl
        obtain ⟨reads, stops⟩ := furtherNames_reads lists_profiles rest
        exact ⟨.profiles, .cons rfl (.cons leads reads), awaits_profiles stops⟩
      · next unnamed =>
        refine ⟨.start, .refl _ _, awaits_start ?_⟩
        rintro ⟨first, behind, same, front⟩
        obtain ⟨rfl, -⟩ := List.cons.inj (List.cons.inj same).2
        rcases front with star | ⟨name, named⟩
        · exact noStar star
        · rw [show next.token = name.token from named, profileNames.read] at unnamed
          cases unnamed
  · next unopened =>
    refine ⟨.start, .refl _ _, awaits_start ?_⟩
    rintro ⟨first, behind, same, -⟩
    obtain ⟨offset, more, rfl, more_eq⟩ := tokensOf_eq_cons same
    obtain ⟨place, rest, rfl, -⟩ := tokensOf_eq_cons more_eq
    exact unopened offset _ rest rfl

/-- A query is read from tokens that lead from the start to a stage where it may end, or something
in it is refused. -/
theorem ofTokens_outcome (lexemes : List Lexeme) :
    (∃ query next, ofTokens lexemes = .ok query ∧ Reads .start lexemes next [] ∧
        next.isFinal = true) ∨
      ∃ refusal, ofTokens lexemes = .error refusal ∧ Blamed .start lexemes refusal := by
  obtain ⟨next, reads, awaits⟩ := readProfiles_outcome lexemes
  unfold ofTokens
  rcases readItem_outcome awaits with ⟨root, after, last, read, readsOn, settled, noModifier⟩ |
    ⟨refusal, refused, blamed⟩
  · simp only [read]
    rcases readSequence_outcome settled noModifier with ⟨sequence, final, further, toEnd, ends⟩ |
      ⟨refusal, refused, blamed⟩
    · simp only [further]
      exact .inl ⟨_, _, rfl, reads.trans (readsOn.trans toEnd), ends⟩
    · simp only [refused]
      exact .inr ⟨_, rfl, reads.blamed (readsOn.blamed blamed)⟩
  · simp only [refused]
    exact .inr ⟨_, rfl, reads.blamed blamed⟩

/-! ### Queries that are accepted -/

/-- Tokens lead from the start to a stage where a query may end. -/
def Accepts (tokens : List Token) : Prop :=
  ∃ last, Stage.start.run tokens = some last ∧ last.isFinal = true

/-- What is refused at a stage leads to none where the query may end. -/
theorem Blames.refuses {stage : Stage} {rest : List Lexeme} {refusal : Refusal}
    (blames : Blames stage rest refusal) {last : Stage}
    (run : stage.run (tokensOf rest) = some last) : last.isFinal = false := by
  cases blames with
  | ending unfinished =>
    cases run
    exact unfinished
  | token excluded =>
    rw [tokensOf_cons, Stage.run_cons, excluded _ (Token.resembles_refl _)] at run
    cases run
  | @comma stage next what offset rest leads stops =>
    rw [tokensOf_cons, Stage.run_cons, leads] at run
    cases rest with
    | nil =>
      -- After a comma a name is due.
      cases run
      cases stage <;> cases leads <;> rfl
    | cons lexeme rest =>
      rw [Option.bind_some, tokensOf_cons, Stage.run_cons, stops lexeme rfl] at run
      cases run
  | quote => cases run
  | @operator word offset rest unknown =>
    have stops : Stage.operatorDue.advance (.word word) = none := by
      show (if _ then _ else _) = _
      rw [unknown]
      rfl
    rw [tokensOf_cons, Stage.run_cons, stops] at run
    cases run

/-- A query is read from exactly those tokens that lead to a stage where it may end. -/
theorem ofTokens_isOk_iff {lexemes : List Lexeme} :
    (∃ query, ofTokens lexemes = .ok query) ↔ Accepts (tokensOf lexemes) := by
  rcases ofTokens_outcome lexemes with ⟨query, last, read, ⟨front, rfl, run⟩, ends⟩ |
    ⟨refusal, refused, next, rest, ⟨front, rfl, run⟩, blames⟩
  · rw [List.append_nil] at read ⊢
    exact ⟨fun _ => ⟨last, run, ends⟩, fun _ => ⟨query, read⟩⟩
  · refine ⟨fun ⟨query, read⟩ => ?_, fun ⟨last, runs, ends⟩ => ?_⟩
    · cases refused.symm.trans read
    · rw [tokensOf, List.map_append, Stage.run_append, ← tokensOf, run] at runs
      exact absurd (blames.refuses runs) (by rw [ends]; decide)

/-- No stage goes on with a stray character. -/
theorem Stage.stray_not_mem {stage last : Stage} {tokens : List Token}
    (run : stage.run tokens = some last) (letter : Char) : .stray letter ∉ tokens := by
  induction tokens generalizing stage with
  | nil => exact List.not_mem_nil
  | cons token tokens inductionHypothesis =>
    rw [Stage.run_cons] at run
    obtain ⟨next, leads, run⟩ := Option.bind_eq_some_iff.mp run
    rw [List.mem_cons, not_or]
    refine ⟨?_, inductionHypothesis run⟩
    rintro rfl
    cases stage <;> cases leads

/-- Tokens are the first ones of a query exactly if they lead to a stage. -/
theorem exists_accepts_iff {tokens : List Token} :
    (∃ rest, Accepts (tokens ++ rest)) ↔ ∃ stage, Stage.start.run tokens = some stage := by
  constructor
  · rintro ⟨rest, last, run, -⟩
    rw [Stage.run_append] at run
    obtain ⟨stage, run, -⟩ := Option.bind_eq_some_iff.mp run
    exact ⟨stage, run⟩
  · rintro ⟨stage, run⟩
    obtain ⟨last, completed, ends⟩ := stage.run_completion
    exact ⟨stage.completion, last, by rw [Stage.run_append, run, Option.bind_some, completed], ends⟩

end PathQuery.Query
