/-
This file reads a query from its tokens. Each part is read from the front of the
tokens and leaves the rest. A comma that no name follows is left standing, and a
leading `in` opens a list of profiles only where a name, a string or a star
follows it.
-/

import PathQuery.Query.Basic
import PathQuery.Query.Error

namespace PathQuery.Query

/-! ### What stops the reading -/

/-- Why tokens cannot be read as a query: they do not go on as expected, or a word stands where an
operator should. -/
inductive Refusal where
  | expected (what : Expectation) (rest : List Lexeme)
  | unknownOperator (word : String) (offset : Nat)

namespace Refusal

/-- The error that a refusal amounts to in a text that ends at a given offset. -/
def error (ending : Nat) : Refusal → Error
  | expected what rest => Error.atRest what rest ending
  | unknownOperator word offset => .unknownOperator word offset

end Refusal

/-- Tokens that remain, no more than there were. -/
abbrev Remaining (tokens : List Lexeme) := { rest : List Lexeme // rest.length ≤ tokens.length }

/-- Tokens that remain, fewer than there were. -/
abbrev Fewer (tokens : List Lexeme) := { rest : List Lexeme // rest.length < tokens.length }

/-! ### Names -/

/-- The name that a token gives to a profile. -/
def profileName? : Token → Option String
  | .word name => some name
  | .quoted content => some content
  | _ => none

/-- The name that a token gives to an attribute or a type. -/
def plainName? : Token → Option String
  | .word name => some name
  | _ => none

/-- Reads further names, each after a comma. -/
def furtherNames (name? : Token → Option String) :
    (tokens : List Lexeme) → List String × Remaining tokens
  | ⟨.mark ',', comma⟩ :: next :: rest =>
    match name? next.token with
    | some name =>
      let ⟨names, ⟨after, bound⟩⟩ := furtherNames name? rest
      (name :: names, ⟨after, by simp only [List.length_cons]; omega⟩)
    | none => ([], ⟨⟨.mark ',', comma⟩ :: next :: rest, Nat.le_refl _⟩)
  | tokens => ([], ⟨tokens, Nat.le_refl _⟩)

/-! ### The parts of a query -/

/-- Reads the profiles that a query starts with; without them it reads under all. -/
def readProfiles (tokens : List Lexeme) : ProfileChoice × List Lexeme :=
  match tokens with
  | ⟨.word "in", _⟩ :: next :: rest =>
    if next.token = .mark '*' then (.all, rest)
    else
      match profileName? next.token with
      | some name =>
        let ⟨names, ⟨after, _⟩⟩ := furtherNames profileName? rest
        (.only (name :: names), after)
      | none => (.all, tokens)
  | _ => (.all, tokens)

/-- Reads the mention of a resource type. -/
def readMention (tokens : List Lexeme) : Except Refusal (TypeMention × Fewer tokens) :=
  match tokens with
  | ⟨.word space, _⟩ :: ⟨.mark '.', _⟩ :: ⟨.word name, _⟩ :: rest =>
    .ok (.qualified space name, ⟨rest, by simp only [List.length_cons]; omega⟩)
  | ⟨.word _, _⟩ :: ⟨.mark '.', _⟩ :: rest => .error (.expected .typeNameAfterDot rest)
  | ⟨.word name, _⟩ :: rest => .ok (.bare name, ⟨rest, by simp only [List.length_cons]; omega⟩)
  | rest => .error (.expected .typeName rest)

/-- Reads the attributes that a modifier asks for. -/
def readAttrs (tokens : List Lexeme) : Except Refusal (AttrChoice × Remaining tokens) :=
  match tokens with
  | ⟨.mark '*', _⟩ :: rest => .ok (.all, ⟨rest, by simp only [List.length_cons]; omega⟩)
  | ⟨.word name, _⟩ :: rest =>
    let ⟨names, ⟨after, bound⟩⟩ := furtherNames plainName? rest
    .ok (.named (name :: names), ⟨after, by simp only [List.length_cons]; omega⟩)
  | rest => .error (.expected .attrOrStar rest)

/-- The refusal where a quoted value should stand. A double quote that is never closed takes the
rest of the text, so what is missing is missing at the end. -/
def missingValue (rest : List Lexeme) : Refusal :=
  match rest with
  | ⟨.stray '"', _⟩ :: _ => .expected .quotedValue []
  | _ => .expected .quotedValue rest

/-- Reads a condition: an attribute, an operator and a quoted value. -/
def readCondition (tokens : List Lexeme) : Except Refusal (Condition × Remaining tokens) :=
  match tokens with
  | ⟨.word attr, _⟩ :: ⟨.word word, offset⟩ :: rest =>
    match Comparison.ofKeyword? word, rest with
    | none, _ => .error (.unknownOperator word offset)
    | some comparison, ⟨.quoted value, _⟩ :: after =>
      .ok (⟨attr, comparison, value⟩, ⟨after, by simp only [List.length_cons]; omega⟩)
    | some _, rest => .error (missingValue rest)
  | ⟨.word _, _⟩ :: rest => .error (.expected .operator rest)
  | rest => .error (.expected .attrName rest)

/-- Reads one modifier, if one follows. -/
def readModifier (tokens : List Lexeme) :
    Except Refusal (Option (Modifier × Fewer tokens)) :=
  match tokens with
  | ⟨.mark ':', _⟩ :: rest =>
    match readAttrs rest with
    | .ok (choice, ⟨after, bound⟩) =>
      .ok (some (.show choice, ⟨after, by simp only [List.length_cons]; omega⟩))
    | .error refusal => .error refusal
  | ⟨.mark '?', _⟩ :: rest =>
    match readCondition rest with
    | .ok (condition, ⟨after, bound⟩) =>
      .ok (some (.search condition, ⟨after, by simp only [List.length_cons]; omega⟩))
    | .error refusal => .error refusal
  | _ => .ok none

/-- Reads modifiers as long as they follow. -/
def readModifiers (tokens : List Lexeme) : Except Refusal (List Modifier × Remaining tokens) :=
  match readModifier tokens with
  | .error refusal => .error refusal
  | .ok none => .ok ([], ⟨tokens, Nat.le_refl _⟩)
  | .ok (some (modifier, ⟨rest, fewer⟩)) =>
    match readModifiers rest with
    | .error refusal => .error refusal
    | .ok (modifiers, ⟨after, bound⟩) => .ok (modifier :: modifiers, ⟨after, by omega⟩)
termination_by tokens.length

/-- Reads one item: a type and its modifiers. -/
def readItem (tokens : List Lexeme) : Except Refusal (QueryItem × Fewer tokens) :=
  match readMention tokens with
  | .error refusal => .error refusal
  | .ok (mention, ⟨rest, fewer⟩) =>
    match readModifiers rest with
    | .error refusal => .error refusal
    | .ok (modifiers, ⟨after, bound⟩) => .ok (⟨mention, modifiers⟩, ⟨after, by omega⟩)

/-- The link that a token stands for. -/
def linkMark? : Token → Option LinkMark
  | .mark '-' => some .short
  | .mark '=' => some .full
  | _ => none

/-- Reads linked items up to the end of the tokens. -/
def readSequence (tokens : List Lexeme) : Except Refusal (List (LinkMark × QueryItem)) :=
  match tokens with
  | [] => .ok []
  | next :: rest =>
    match linkMark? next.token with
    | none => .error (.expected .linkOrEnd tokens)
    | some mark =>
      match readItem rest with
      | .error refusal => .error refusal
      | .ok (item, ⟨after, _⟩) =>
        match readSequence after with
        | .error refusal => .error refusal
        | .ok sequence => .ok ((mark, item) :: sequence)
termination_by tokens.length
decreasing_by
  simp only [List.length_cons]
  omega

/-- Reads a whole query from its tokens. -/
def ofTokens (tokens : List Lexeme) : Except Refusal Query :=
  let ⟨profiles, rest⟩ := readProfiles tokens
  match readItem rest with
  | .error refusal => .error refusal
  | .ok (root, ⟨after, _⟩) =>
    match readSequence after with
    | .error refusal => .error refusal
    | .ok sequence => .ok ⟨profiles, root, sequence⟩

/-- Reads a query from its text. -/
def parse (text : String) : Except Error Query :=
  if Text.isBlankText text then .error .empty
  else
    match ofTokens (lexemes 0 text.toList) with
    | .ok query => .ok query
    | .error refusal => .error (refusal.error text.utf8ByteSize)

end PathQuery.Query
