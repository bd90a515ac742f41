/-
This file finds the paths that a pattern matches among files. The pattern is cut at its
strokes; each piece is matched against the entries of the directories that the pieces
before it have led to.
-/

import PathQuery.File.Access
import PathQuery.Glob.Pattern

namespace PathQuery.Glob

/-- The path of an entry of a directory. Entries of the working directory go by their names. -/
def entryPath (directory name : String) : String :=
  if File.Path.parts directory = [.current] then name else File.Path.join directory name

/-- The name at the end of a list of names. -/
def lastName (names : List String) : String := names.getLastD ""

/-- Leaves one of several pieces in a row that reach into directories. -/
def collapse : List Pattern → List Pattern
  | first :: second :: rest =>
    if first.isRecursive && second.isRecursive then collapse (second :: rest)
    else first :: collapse (second :: rest)
  | patterns => patterns

/-- The dots that a piece matches as a name; it has to start with a dot itself. -/
def dots (pattern : Pattern) : List String :=
  if pattern.head? = some (.letter '.') then ["..", "."].filter pattern.matchesText else []

/-- The paths to which the pieces of a pattern lead from a path. -/
def pathsFrom (files : Files) : List Pattern → (path : String) → List String
  | [], path => [path]
  | pattern :: rest, path =>
    match pattern.plain? with
    | some name =>
      let further := entryPath path name
      let isThere :=
        if name = "." || name = ".." then files.isDirectory path else files.contains further
      if isThere then pathsFrom files rest further else []
    | none =>
      if pattern.isRecursive then
        let inside := ((files.tree path).toOption.map (·.inside)).getD []
        match rest with
        | [] =>
          (inside.filter (·.2.isDirectory)).map fun (names, _) => names.foldl entryPath path
        | next :: rest =>
          (inside.filter fun (names, _) => next.matchesText (lastName names)).flatMap
            fun (names, _) => pathsFrom files rest (names.foldl entryPath path)
      else if !files.isDirectory path then []
      else
        (dots pattern).flatMap (fun name => pathsFrom files rest (File.Path.join path name)) ++
          ((files.entries path).filter fun (name, _) => pattern.matchesText name).flatMap
            fun (name, _) => pathsFrom files rest (entryPath path name)

/-- The pieces of a pattern after the root, the last of them not empty unless it is the only one. -/
def pieces (written : String) : List String :=
  let rest := if File.Path.isAbsolute written then written.toList.drop 1 else written.toList
  let cut := Text.split '/' (String.ofList rest)
  if cut.length > 1 && cut.getLast? == some "" then cut.dropLast else cut

/-- The paths that a pattern matches, in ascending order. -/
def paths (files : Files) (written : String) : Except Fault (List String) := do
  let _ ← Pattern.ofText written
  let patterns ← (pieces written).mapM Pattern.ofText
  let found := pathsFrom files (collapse patterns)
    (if File.Path.isAbsolute written then "/" else ".")
  let wanted := if written.endsWith "/" then found.filter files.isDirectory else found
  .ok (wanted.mergeSort File.Path.isUpTo)

end PathQuery.Glob
