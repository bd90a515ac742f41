/-
This file defines how queries are written. What is written is a sequence of tokens:

    query    = ["in" profiles] item (link item)*
    profiles = "*" | name ("," name)*,  where a name is a word or a string
    item     = word ["." word] modifier*
    modifier = ":" ("*" | word ("," word)*) | "?" word ("eq" | "ne") string
    link     = "-" | "="

A query can be written in several ways, which differ in how they give its profiles. What is
written is therefore a tree of this grammar: a query together with the way of giving its
profiles.
-/

import PathQuery.Query.Basic
import PathQuery.Query.Token

namespace PathQuery

/-! ### The tokens of the parts of a query -/

namespace Query

/-- A token and further ones, with a comma before each of these. -/
def listed (first : Token) (further : List Token) : List Token :=
  first :: further.flatMap fun token => [.mark ',', token]

end Query

open Query (Token listed)

/-- The tokens of a mention: a name, or a namespace and a name with a dot between. -/
def TypeMention.tokens : TypeMention → List Token
  | bare name => [.word name]
  | qualified space name => [.word space, .mark '.', .word name]

/-- The tokens of a choice of attributes. A list of names needs at least one. -/
def AttrChoice.tokens : AttrChoice → List Token
  | all => [.mark '*']
  | named [] => []
  | named (first :: further) => listed (.word first) (further.map .word)

/-- The tokens of a modifier. -/
def Modifier.tokens : Modifier → List Token
  | .show choice => .mark ':' :: choice.tokens
  | .search condition =>
    [.mark '?', .word condition.attr, .word condition.comparison.keyword, .quoted condition.value]

/-- The tokens of an item: those of its mention and of its modifiers. -/
def QueryItem.tokens (item : QueryItem) : List Token :=
  item.mention.tokens ++ item.modifiers.flatMap Modifier.tokens

namespace Query

/-! ### Ways of writing a query -/

/-- The name of a profile, as a word or as a string. -/
inductive ProfileName where
  | plain (name : String)
  | quoted (name : String)
  deriving DecidableEq

namespace ProfileName

/-- The profile that is named. -/
def profile : ProfileName → String
  | plain name => name
  | quoted name => name

/-- The token that names the profile. -/
def token : ProfileName → Token
  | plain name => .word name
  | quoted name => .quoted name

end ProfileName

/-- The ways of giving profiles: none are given, a star stands for all, or they are named. -/
inductive ProfileClause where
  | absent
  | star
  | names (first : ProfileName) (further : List ProfileName)
  deriving DecidableEq

namespace ProfileClause

/-- The profiles that a clause chooses. -/
def choice : ProfileClause → ProfileChoice
  | absent => .all
  | star => .all
  | names first further => .only (first.profile :: further.map (·.profile))

/-- The tokens of a clause. -/
def tokens : ProfileClause → List Token
  | absent => []
  | star => [.word "in", .mark '*']
  | names first further => .word "in" :: listed first.token (further.map (·.token))

/-- A clause that chooses profiles: all of them are left out, chosen ones are given as strings. -/
def ofChoice : ProfileChoice → ProfileClause
  | .all => absent
  | .only [] => absent
  | .only (first :: further) => names (.quoted first) (further.map .quoted)

end ProfileClause

/-- Tokens start with the word `in` and after it a star, a word or a string. -/
def OpensProfiles (tokens : List Token) : Prop :=
  ∃ next rest, tokens = .word "in" :: next :: rest ∧
    (next = .mark '*' ∨ ∃ name : ProfileName, next = name.token)

/-- A query as it is written. -/
structure Written where
  profiles : ProfileClause
  root : QueryItem
  sequence : List (LinkMark × QueryItem)
  deriving DecidableEq

namespace Written

/-- The query that is written. -/
def query (written : Written) : Query :=
  ⟨written.profiles.choice, written.root, written.sequence⟩

/-- The tokens of a linked item. -/
def linkedTokens (linked : LinkMark × QueryItem) : List Token :=
  .mark linked.1.letter :: linked.2.tokens

/-- The tokens of a written query. -/
def tokens (written : Written) : List Token :=
  written.profiles.tokens ++ written.root.tokens ++ written.sequence.flatMap linkedTokens

/-- Every list of attributes names at least one. -/
def IsComplete (written : Written) : Prop :=
  ∀ item ∈ written.query.items, .show (.named []) ∉ item.modifiers

end Written

/-! ### The text of tokens -/

/-- A text is spelled with tokens. A word is as long as it can be, a string ends at the next quote
of the kind that it starts with, and any amount of separators may stand before, between and after
the tokens. -/
inductive Spells : List Char → List Token → Prop
  | done : Spells [] []
  | gap {letter : Char} {rest : List Char} {tokens : List Token}
      (separates : isSeparator letter = true) (spells : Spells rest tokens) :
      Spells (letter :: rest) tokens
  | word {letter : Char} {name rest : List Char} {tokens : List Token}
      (starts : startsWord letter = true) (continues : ∀ next ∈ name, continuesWord next = true)
      (longest : ∀ next, rest.head? = some next → continuesWord next = false)
      (spells : Spells rest tokens) :
      Spells (letter :: (name ++ rest)) (.word (String.ofList (letter :: name)) :: tokens)
  | quoted {quote : Char} {content rest : List Char} {tokens : List Token}
      (quotes : isQuote quote = true) (free : quote ∉ content) (spells : Spells rest tokens) :
      Spells (quote :: (content ++ quote :: rest)) (.quoted (String.ofList content) :: tokens)
  | mark {letter : Char} {rest : List Char} {tokens : List Token}
      (marks : isMark letter = true) (spells : Spells rest tokens) :
      Spells (letter :: rest) (.mark letter :: tokens)

/-- The quote to write a string with: the double one where the single one stands in the string. -/
def quoteFor (content : String) : Char :=
  if content.toList.contains '\'' then '"' else '\''

/-- The text of a token. -/
def Token.text : Token → String
  | word name => name
  | quoted content =>
    String.ofList (quoteFor content :: (content.toList ++ [quoteFor content]))
  | mark letter => letter.toString
  | stray letter => letter.toString

/-- The text of a written query: its tokens with single spaces between them. -/
def Written.text (written : Written) : String :=
  " ".intercalate (written.tokens.map Token.text)

/-- Whether a text is a word. -/
def isIdentifier (name : String) : Bool :=
  match name.toList with
  | [] => false
  | letter :: rest => startsWord letter && rest.all continuesWord

/-- Whether a text can be written as a string: it does not hold quotes of both kinds. -/
def isQuotable (content : String) : Bool :=
  !(content.toList.contains '\'' && content.toList.contains '"')

/-! ### Writing queries -/

/-- A query in writing. -/
def written (query : Query) : Written :=
  ⟨.ofChoice query.profiles, query.root, query.sequence⟩

end Query

/-! ### Queries that can be written -/

/-- The names in a mention. -/
def TypeMention.names : TypeMention → List String
  | bare name => [name]
  | qualified space name => [space, name]

namespace Modifier

/-- The names in a modifier. -/
def names : Modifier → List String
  | .show .all => []
  | .show (.named names) => names
  | .search condition => [condition.attr]

/-- The values in a modifier. -/
def values : Modifier → List String
  | .show _ => []
  | .search condition => [condition.value]

end Modifier

/-- An item that can be written: its names are words, its values can be put in quotes, and its
lists of attributes name at least one. -/
structure QueryItem.IsWellFormed (item : QueryItem) : Prop where
  mention : ∀ name ∈ item.mention.names, Query.isIdentifier name = true
  names : ∀ modifier ∈ item.modifiers, ∀ name ∈ modifier.names, Query.isIdentifier name = true
  values : ∀ modifier ∈ item.modifiers, ∀ value ∈ modifier.values, Query.isQuotable value = true
  listed : .show (.named []) ∉ item.modifiers

/-- A query that can be written: if profiles are chosen, there is at least one of them, and they can
be put in quotes. -/
structure Query.IsWellFormed (query : Query) : Prop where
  chosen : query.profiles ≠ .only []
  profiles : ∀ names, query.profiles = .only names → ∀ name ∈ names, isQuotable name = true
  items : ∀ item ∈ query.items, item.IsWellFormed

end PathQuery
