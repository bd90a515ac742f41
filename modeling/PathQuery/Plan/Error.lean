/-
This file defines why a query cannot be planned and why a plan cannot be changed or run,
and how that is told.
-/

import PathQuery.Topology.Basic

namespace PathQuery.Plan

/-- The reasons for refusing a query, a change of a plan or a run of it. -/
inductive Error where
  | sharedProfiles (profiles : List String)
  | unknownProfile (profile : String)
  | ambiguousType (name : String) (spaces : List String)
  | badMention (written : String)
  | unsupportedAttr (kind : ResourceType) (attr : String)
  | unsupportedCondition (kind : ResourceType) (attr : String)
  | noReader (space : String)
  | rootAlreadySet
  | rootNotSet
  | unknownNode (node : String)
  | cycle (source target : String)
  | workerPool (reason : String)
  | topology (error : Topology.Error)
  deriving DecidableEq

/-- The message for an error. -/
def Error.message : Error → String
  | sharedProfiles profiles =>
    "duplicate profiles found across readers: " ++ ", ".intercalate profiles
  | unknownProfile profile => "profile \"" ++ profile ++ "\" is not supported by any reader"
  | ambiguousType name spaces =>
    "type \"" ++ name ++ "\" is ambiguous: defined in " ++ ", ".intercalate spaces
  | badMention written => "invalid type reference \"" ++ written ++ "\""
  | unsupportedAttr kind attr =>
    "type " ++ kind.text ++ " does not support attribute \"" ++ attr ++ "\""
  | unsupportedCondition kind attr =>
    "type " ++ kind.text ++ " does not support search condition on \"" ++ attr ++ "\""
  | noReader space => "no reader for namespace \"" ++ space ++ "\""
  | rootAlreadySet => "root node is already set"
  | rootNotSet => "root node is not set"
  | unknownNode node => "node \"" ++ node ++ "\" is not part of the plan"
  | cycle source target => "edge " ++ source ++ " -> " ++ target ++ " would create a cycle"
  | workerPool reason => "cannot start worker pool: " ++ reason
  | topology error => error.message

end PathQuery.Plan
