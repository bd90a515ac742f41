/-
This file defines what can be done with the text of a path: it is cut into parts, joined
to another path, and compared with one. Two paths are alike when they have the same
parts, however many strokes and needless dots they are written with.
-/

import PathQuery.Text.Split

namespace PathQuery.File

/-- A part of a path. -/
inductive Part where
  | root
  | current
  | parent
  | name (text : String)
  deriving DecidableEq

namespace Part

/-- The rank of a kind of part among the parts that may stand at one place. -/
def rank : Part → Nat
  | root => 0
  | current => 1
  | parent => 2
  | name _ => 3

/-- Whether a part comes before another one. -/
def isBefore : Part → Part → Bool
  | name first, name second => first < second
  | first, second => first.rank < second.rank

/-- The part that is written as a text, if it leads anywhere. -/
def ofText? (text : String) : Option Part :=
  if text.isEmpty || text = "." then none
  else if text = ".." then some parent
  else some (name text)

end Part

namespace Path

/-- Whether a path starts at the root. -/
def isAbsolute (path : String) : Bool := path.startsWith "/"

/-- The texts between the strokes of a path. -/
def pieces (path : String) : List String := Text.split '/' path

/-- The parts of a path. A dot counts only where a path starts with it. -/
def parts (path : String) : List Part :=
  let first :=
    if isAbsolute path then [Part.root]
    else if (pieces path).head? == some "." then [.current]
    else []
  first ++ (pieces path).filterMap Part.ofText?

/-- Whether two paths have the same parts. -/
def areAlike (first second : String) : Bool := parts first == parts second

/-- Whether the parts of a path do not come after those of another one. -/
def partsUpTo : List Part → List Part → Bool
  | [], _ => true
  | _ :: _, [] => false
  | first :: rest, second :: others =>
    if first = second then partsUpTo rest others else first.isBefore second

/-- Whether a path does not come after another one. -/
def isUpTo (first second : String) : Bool := partsUpTo (parts first) (parts second)

/-- A path that starts where another one ends. A path from the root starts there in any case. -/
def join (base path : String) : String :=
  if isAbsolute path || base.isEmpty then path
  else if base.endsWith "/" then base ++ path
  else base ++ "/" ++ path

/-- The pieces of a path from its end, without those at the end that lead nowhere. -/
def settled : List String → List String
  | last :: before :: rest =>
    if last.isEmpty || last = "." then settled (before :: rest) else last :: before :: rest
  | pieces => pieces

/-- The path without its last part. -/
def parent? (path : String) : Option String :=
  match settled (pieces path).reverse with
  | [] => none
  | [only] => if only.isEmpty then none else some ""
  | _ :: rest =>
    let kept := settled rest
    some (if kept = [""] then "/" else "/".intercalate kept.reverse)

end Path

end PathQuery.File
