/-
This file reads and writes the files of a tree by their paths. A path that does not start
at the root starts at the working directory. Every step of a path must be a directory
but the last one, which may be a file.
-/

import PathQuery.File.Path
import PathQuery.File.Tree

namespace PathQuery

/-- The files that can be reached, and the place of the working directory. -/
structure Files where
  root : FileTree
  here : List String

namespace Files

open File

/-- No files at all, and a working directory of some name. -/
def ofName (name : String) : Files :=
  ⟨FileTree.empty.put [name] .empty, [name]⟩

/-! ### Places -/

/-- The number of bytes to which a name is limited. -/
def nameLimit : Nat := 255

/-- The fault of a name that no file can have. -/
def nameFault? (name : String) : Option Fault :=
  if nameLimit < name.utf8ByteSize then some .nameTooLong else none

/-- The place to which the pieces of a path lead from a place. -/
def walk (root : FileTree) : (place : List String) → List String → Except Fault (List String)
  | place, [] => .ok place
  | place, piece :: rest =>
    match root.at? place with
    | none => .error .missing
    | some (.file _) => .error .notDirectory
    | some (.directory entries) =>
      if piece.isEmpty || piece = "." then walk root place rest
      else if piece = ".." then walk root place.dropLast rest
      else
        match nameFault? piece with
        | some fault => .error fault
        | none =>
          if (entries.lookup piece).isSome then walk root (place ++ [piece]) rest
          else .error .missing

/-- The place from which a path starts. -/
def startOf (files : Files) (path : String) : List String :=
  if Path.isAbsolute path then [] else files.here

/-- The place to which a path leads. -/
def place (files : Files) (path : String) : Except Fault (List String) :=
  if path.isEmpty then .error .missing
  else if path.contains '\x00' then .error .zeroInName
  else walk files.root (files.startOf path) (Path.pieces path)

/-- The file or directory to which a path leads. -/
def tree (files : Files) (path : String) : Except Fault FileTree := do
  let place ← files.place path
  match files.root.at? place with
  | some tree => .ok tree
  | none => .error .missing

/-! ### Reading -/

/-- Whether a path leads anywhere. -/
def contains (files : Files) (path : String) : Bool := (files.tree path).toOption.isSome

/-- Whether a path leads to a directory. -/
def isDirectory (files : Files) (path : String) : Bool :=
  (files.tree path).toOption.any (·.isDirectory)

/-- Whether a path leads to a file. -/
def isFile (files : Files) (path : String) : Bool :=
  (files.tree path).toOption.any (!·.isDirectory)

/-- The entries of the directory to which a path leads. -/
def entries (files : Files) (path : String) : List (String × FileTree) :=
  ((files.tree path).toOption.map (·.entries)).getD []

/-- The text of the file to which a path leads. -/
def readText (files : Files) (path : String) : Except Fault String := do
  match ← files.tree path with
  | .directory _ => .error .isDirectory
  | .file content =>
    match String.fromUTF8? content with
    | some text => .ok text
    | none => .error .notText

/-! ### Writing -/

/-- Follows the pieces of a path and makes the directories that are missing. -/
def makeAlong (place : List String) : List String → FileTree → Except Fault FileTree
  | [], root => .ok root
  | piece :: rest, root =>
    match root.at? place with
    | none => .error .missing
    | some (.file _) => .error .notDirectory
    | some (.directory entries) =>
      if piece.isEmpty || piece = "." then makeAlong place rest root
      else if piece = ".." then makeAlong place.dropLast rest root
      else
        match nameFault? piece, entries.lookup piece with
        | some fault, _ => .error fault
        | none, some (.file _) => .error (if rest.isEmpty then .present else .notDirectory)
        | none, some (.directory _) => makeAlong (place ++ [piece]) rest root
        | none, none =>
          makeAlong (place ++ [piece]) rest (root.put (place ++ [piece]) .empty)

/-- Makes a directory and those that lead to it, as far as they are missing. -/
def makeDirectory (files : Files) (path : String) : Except Fault Files :=
  if path.isEmpty then .ok files
  else if path.contains '\x00' then .error .zeroInName
  else do
    let root ← makeAlong (files.startOf path) (Path.pieces path) files.root
    .ok { files with root }

/-- Writes a file into a directory that there is. -/
def write (files : Files) (path : String) (content : ByteArray) : Except Fault Files :=
  if path.isEmpty then .error .missing
  else if path.contains '\x00' then .error .zeroInName
  else do
    let pieces := Path.pieces path
    let name := pieces.getLastD ""
    let place ← walk files.root (files.startOf path) pieces.dropLast
    match files.root.at? place with
    | none => .error .missing
    | some (.file _) => .error .notDirectory
    | some (.directory entries) =>
      if ["", ".", ".."].contains name then .error .isDirectory
      else
        match nameFault? name, entries.lookup name with
        | some fault, _ => .error fault
        | none, some (.directory _) => .error .isDirectory
        | none, _ => .ok { files with root := files.root.put (place ++ [name]) (.file content) }

/-- Writes a text into a file. -/
def writeText (files : Files) (path text : String) : Except Fault Files :=
  files.write path text.toUTF8

/-- The files that are new or have changed, with the names that lead to them. -/
def changes (before after : Files) : List (List String × ByteArray) :=
  after.root.inside.filterMap fun (names, tree) =>
    match tree, before.root.at? names with
    | .file content, some (.file earlier) =>
      if content == earlier then none else some (names, content)
    | .file content, _ => some (names, content)
    | .directory _, _ => none

/-- Takes a file away. -/
def removeFile (files : Files) (path : String) : Except Fault Files := do
  let place ← files.place path
  match files.root.at? place with
  | some (.file _) => .ok { files with root := files.root.remove place }
  | _ => .error .isDirectory

end Files

end PathQuery
