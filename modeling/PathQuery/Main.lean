/-
This file is the program itself: it reads the working directory, runs the command that
the arguments give, writes the files that the command has made, and prints its answer.
-/

import PathQuery.CommandLine.Run

namespace PathQuery.Program

/-- The variable of the environment that may name the configuration. -/
def configVariable : String := "TOPOQUERY_CONFIG"

/-- Reads the entries of a directory. What cannot be read is left out. -/
partial def readEntries (found : Array IO.FS.DirEntry) : IO (List (String × FileTree)) := do
  let mut entries := []
  for entry in found do
    let tree ←
      try
        if ← entry.path.isDir then
          pure (some (FileTree.directory (← readEntries (← entry.path.readDir))))
        else pure (some (FileTree.file (← IO.FS.readBinFile entry.path)))
      catch _ => pure none
    entries := entries ++ (tree.map fun tree => (entry.fileName, tree)).toList
  return entries

/-- The names that lead to an absolute path. -/
def namesOf (path : String) : List String :=
  (File.Path.pieces path).filter (!·.isEmpty)

/-- Reads a directory into the files, if there is such a directory. -/
def readDirectory (files : Files) (path : String) : IO Files := do
  try
    let real ← IO.FS.realPath path
    let entries ← readEntries (← real.readDir)
    return { files with root := files.root.put (namesOf real.toString) (.directory entries) }
  catch _ => return files

/-- Writes a file, and makes the directory that holds it. -/
def writeChange (names : List String) (content : ByteArray) : IO Unit := do
  IO.FS.createDirAll ("/" ++ "/".intercalate names.dropLast)
  IO.FS.writeBinFile ("/" ++ "/".intercalate names) content

/-- Runs a command and gives the number that the program ends with. The tasks of a query are done
here without workers of their own, so none is ever refused. -/
def runCommand (command : CommandLine.Command) : IO UInt32 := do
  let here ← IO.FS.realPath "."
  let start : Files := ⟨.empty, namesOf here.toString⟩
  let files ← ("." :: command.directories).foldlM readDirectory start
  let outcome := command.run .unlimited files
  for (names, content) in Files.changes files outcome.files do
    writeChange names content
  match outcome.printed with
  | .ok printed =>
    IO.print printed
    return 0
  | .error error =>
    IO.eprintln ("error: " ++ error.message)
    return 1

end PathQuery.Program

open PathQuery in
/-- Runs the program. -/
def main (arguments : List String) : IO UInt32 := do
  match CommandLine.Command.ofArguments (← IO.getEnv Program.configVariable) arguments with
  | .ok command => Program.runCommand command
  | .error refusal =>
    if refusal.isRequest then
      IO.println refusal.message
      return 0
    else
      IO.eprintln refusal.message
      return 2
