/-
This file loads the configuration from its file and finds the directories of the readers
that it names. The patterns in it start from the directory of the file.
-/

import PathQuery.Config.Basic
import PathQuery.Glob.Expand
import PathQuery.Reader.Directory

namespace PathQuery.Config

/-- The file that is read where no other one is named. -/
def usualPath : String := "topoquery.yaml"

/-- The message that tells several complaints at once. -/
def complaintsMessage (complaints : List String) : String :=
  toString complaints.length ++ " validation error(s): " ++ "; ".intercalate complaints

/-- The reasons for which there is no configuration, or no readers for it. -/
inductive Error where
  | unreadable (path : String) (fault : File.Fault)
  | malformed (fault : Yaml.Fault)
  | invalid (complaints : List Complaint)
  | badPattern (pattern : String) (fault : Glob.Fault)

/-- The message for an error. -/
def Error.message : Error → String
  | unreadable path fault => "cannot read config " ++ path ++ ": " ++ fault.message
  | malformed fault => "YAML parse error: " ++ fault.message
  | invalid complaints => complaintsMessage (complaints.map Complaint.message)
  | badPattern pattern fault =>
    "invalid reader pattern \"" ++ pattern ++ "\": " ++ fault.message

/-- A configuration, the directory from which its patterns start, and the file that it was read
from, if there is one. -/
structure Loaded where
  config : Config
  base : String
  path : Option String
  deriving DecidableEq

/-- Reads and validates the configuration in a file. -/
def readFile (files : Files) (path : String) : Except Error Config :=
  match files.readText path with
  | .error fault => .error (.unreadable path fault)
  | .ok content =>
    match ofText content with
    | .error fault => .error (.malformed fault)
    | .ok config =>
      match config.complaints with
      | [] => .ok config
      | complaints => .error (.invalid complaints)

/-- Loads the configuration from the file that is named, or else from the usual one, which may be
missing. -/
def load (files : Files) (named : Option String) : Except Error Loaded :=
  let path := named.getD usualPath
  if named.isNone && !files.contains path then .ok ⟨usual, ".", none⟩
  else do
    let config ← readFile files path
    let base := (File.Path.parent? path).getD ""
    .ok ⟨config, if base.isEmpty then "." else base, some path⟩

/-! ### Directories of readers -/

/-- Adds paths that are not like any before them. -/
def addUnlike (paths further : List String) : List String :=
  further.foldl (fun paths path =>
    if paths.any (File.Path.areAlike · path) then paths else paths ++ [path]) paths

/-- The directories of readers among those that a pattern matches. -/
def directoriesOf (files : Files) (base pattern : String) : Except Error (List String) :=
  match Glob.paths files (File.Path.join base pattern) with
  | .error fault => .error (.badPattern pattern fault)
  | .ok paths =>
    .ok (paths.filter fun path => files.isFile (File.Path.join path Reader.Manifest.fileName))

/-- The directories of the readers, pattern by pattern, each only once. -/
def readerDirectories (files : Files) (base : String) (patterns : List String) :
    Except Error (List String) := do
  let found ← patterns.mapM (directoriesOf files base)
  .ok (found.foldl addUnlike [])

end PathQuery.Config
