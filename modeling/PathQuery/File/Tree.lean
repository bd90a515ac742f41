/-
This file defines trees of files. A tree is a file with its bytes, or a directory with
trees under names; a place in a tree is the list of the names that lead to it. The file also
names the reasons for which a file cannot be read or written, with the words that the system
has for them.
-/

namespace PathQuery

namespace File

/-- Why a file cannot be read or written. -/
inductive Fault where
  | missing
  | notDirectory
  | isDirectory
  | present
  | nameTooLong
  | zeroInName
  | notText
  | other (reason : String)
  deriving DecidableEq

/-- The words for a fault. -/
def Fault.message : Fault → String
  | missing => "No such file or directory (os error 2)"
  | present => "File exists (os error 17)"
  | notDirectory => "Not a directory (os error 20)"
  | isDirectory => "Is a directory (os error 21)"
  | nameTooLong => "File name too long (os error 36)"
  | zeroInName => "file name contained an unexpected NUL byte"
  | notText => "stream did not contain valid UTF-8"
  | other reason => reason

end File

/-! ### Trees -/

/-- A file, or a directory of files and directories. -/
inductive FileTree where
  | file (content : ByteArray)
  | directory (entries : List (String × FileTree))

namespace FileTree

/-- A directory that holds nothing. -/
def empty : FileTree := directory []

/-- What a directory holds; a file holds nothing. -/
def entries : FileTree → List (String × FileTree)
  | file _ => []
  | directory entries => entries

/-- Whether a tree is a directory. -/
def isDirectory : FileTree → Bool
  | file _ => false
  | directory _ => true

/-- The tree at a place. -/
def at? : FileTree → List String → Option FileTree
  | tree, [] => some tree
  | tree, name :: rest => (tree.entries.lookup name).bind fun below => below.at? rest

/-- Puts a tree under a name. -/
def putEntry (name : String) (tree : FileTree) : List (String × FileTree) → List (String × FileTree)
  | [] => [(name, tree)]
  | entry :: rest =>
    if entry.1 = name then (name, tree) :: rest else entry :: putEntry name tree rest

/-- Puts a tree at a place; directories that lead there are made. -/
def put (tree : FileTree) (place : List String) (content : FileTree) : FileTree :=
  match place with
  | [] => content
  | name :: rest =>
    let below := (tree.entries.lookup name).getD empty
    directory (putEntry name (below.put rest content) tree.entries)

/-- Takes away what is at a place. -/
def remove (tree : FileTree) : List String → FileTree
  | [] => empty
  | [name] => directory (tree.entries.filter (·.1 != name))
  | name :: rest =>
    match tree.entries.lookup name with
    | some below => directory (putEntry name (below.remove rest) tree.entries)
    | none => tree

mutual

/-- Everything inside a tree, each with the names that lead to it. -/
def inside : FileTree → List (List String × FileTree)
  | file _ => []
  | directory entries => insideEntries entries

/-- The entries of a directory and everything inside them. -/
def insideEntries : List (String × FileTree) → List (List String × FileTree)
  | [] => []
  | (name, tree) :: rest =>
    ([name], tree) :: (inside tree).map (fun (names, tree) => (name :: names, tree)) ++
      insideEntries rest

end

end FileTree

end PathQuery
