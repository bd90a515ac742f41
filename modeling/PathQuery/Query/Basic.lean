/-
This file defines queries. A query names a path through the resource types: a
first item and any number of linked items, each with the attributes to show and
the conditions to meet, read under all profiles or under chosen ones.
-/

import PathQuery.Condition

namespace PathQuery

/-- The profiles that a query reads under. -/
inductive ProfileChoice where
  | all
  | only (names : List String)
  deriving DecidableEq

/-- A mention of a resource type, with or without its namespace. -/
inductive TypeMention where
  | bare (name : String)
  | qualified (space name : String)
  deriving DecidableEq

namespace TypeMention

/-- The written form of a mention. -/
def text : TypeMention → String
  | bare name => name
  | qualified space name => space ++ "." ++ name

end TypeMention

/-- The attributes that a modifier asks for. -/
inductive AttrChoice where
  | all
  | named (names : List String)
  deriving DecidableEq

/-- What follows the type of an item: attributes to show, or a condition to meet. -/
inductive Modifier where
  | show (choice : AttrChoice)
  | search (condition : Condition)
  deriving DecidableEq

/-- One stop on the path of a query. -/
structure QueryItem where
  mention : TypeMention
  modifiers : List Modifier
  deriving DecidableEq

/-- The two ways to write a link. They mean the same. -/
inductive LinkMark where
  | short
  | full
  deriving DecidableEq

namespace LinkMark

/-- The character that a link is written with. -/
def letter : LinkMark → Char
  | short => '-'
  | full => '='

end LinkMark

/-- A path query. -/
structure Query where
  profiles : ProfileChoice
  root : QueryItem
  sequence : List (LinkMark × QueryItem)
  deriving DecidableEq

namespace Query

/-- The items of a query in the order of its path. -/
def items (query : Query) : List QueryItem :=
  query.root :: query.sequence.map (·.2)

end Query

end PathQuery
