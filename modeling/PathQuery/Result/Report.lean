/-
This file lays a result out as a report: the root groups, under each group its items,
and under each item the groups that its links led to. A brief report leaves out the
identities and the messages for links that could not be followed.
-/

import PathQuery.Document.Outline
import PathQuery.Result.Basic

namespace PathQuery

/-- How much a report says. -/
inductive Verbosity where
  | normal
  | debug
  deriving DecidableEq

namespace Report

/-- What a report says about a group itself. -/
structure GroupHead where
  id : Option String
  kind : String
  link : List String
  linkError : Option String
  fetchError : Option String
  deriving DecidableEq

/-- What a report says about an item itself. -/
structure ItemHead where
  id : Option String
  group : Option String
  profile : String
  properties : Properties
  queryError : Option String
  linkErrors : List String
  deriving DecidableEq

mutual

/-- A group and its items. -/
inductive Group where
  | group (head : GroupHead) (items : List Item)

/-- An item and the groups under it. -/
inductive Item where
  | item (head : ItemHead) (children : List Group)

end

/-- What a report says about a group. -/
def groupHead (verbosity : Verbosity) (group : Result.Group) : GroupHead where
  id := match verbosity with
    | .normal => none
    | .debug => some group.id
  kind := group.kind.text
  link := group.link.map Condition.text
  linkError := group.linkError
  fetchError := group.fetchError

/-- What a report says about an item. -/
def itemHead (verbosity : Verbosity) (item : Result.Item) : ItemHead where
  id := match verbosity with
    | .normal => none
    | .debug => some item.id
  group := match verbosity with
    | .normal => none
    | .debug => some item.group
  profile := item.record.profile
  properties := item.record.properties
  queryError := item.queryError
  linkErrors := match verbosity with
    | .normal => []
    | .debug => item.linkErrors

/-- The report on a group, down to a number of levels. -/
def ofGroup (result : Result) (verbosity : Verbosity) : (levels : Nat) → Result.Group → Group
  | 0, group => .group (groupHead verbosity group) []
  | levels + 1, group =>
    .group (groupHead verbosity group) (group.items.map fun item =>
      .item (itemHead verbosity item)
        ((result.childGroups item.id).map (ofGroup result verbosity levels)))

end Report

/-- The report on a result. Groups nest no deeper than there are groups, unless one is under
itself. -/
def Result.report (result : Result) (verbosity : Verbosity) : List Report.Group :=
  result.rootGroups.map (Report.ofGroup result verbosity result.size)

namespace Report

/-! ### The outline of a report -/

mutual

/-- The outline of the report on a group. -/
def Group.outline : Group → Outline
  | .group head items =>
    .fields (Outline.optional "id" head.id ++
      [("type", .text head.kind), ("link", .texts head.link)] ++
      Outline.optional "linkError" head.linkError ++
      Outline.optional "fetchError" head.fetchError ++
      [("items", .list (itemOutlines items))])

/-- The outlines of the reports on items. -/
def itemOutlines : List Item → List Outline
  | [] => []
  | item :: rest => item.outline :: itemOutlines rest

/-- The outline of the report on an item. -/
def Item.outline : Item → Outline
  | .item head children =>
    .fields (Outline.optional "id" head.id ++ Outline.optional "groupId" head.group ++
      [("profile", .text head.profile),
        ("properties", .fields (head.properties.map fun (name, value) => (name, .text value)))] ++
      Outline.optional "queryError" head.queryError ++
      (if head.linkErrors.isEmpty then [] else [("linkErrors", .texts head.linkErrors)]) ++
      [("children", .list (groupOutlines children))])

/-- The outlines of the reports on groups. -/
def groupOutlines : List Group → List Outline
  | [] => []
  | group :: rest => group.outline :: groupOutlines rest

end

/-- The outline of a whole report. -/
def outline (groups : List Group) : Outline :=
  .fields [("results", .list (groupOutlines groups))]

end Report

end PathQuery
