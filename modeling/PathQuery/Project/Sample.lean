/-
This file sets up a project: a configuration and one reader with a few records, so that
there is something to query. It never touches a configuration that is there already.
-/

import PathQuery.Config.Load

namespace PathQuery.Project

/-! ### The contents of the sample -/

/-- The name of the sample reader, which is its namespace too. -/
def sampleName : String := "demo"

/-- The profile of the sample records. -/
def sampleProfile : String := "dev"

/-- The sample configuration. -/
def sampleConfig : String :=
  Text.ofLines [
    "# topoquery configuration",
    "readers:",
    "  - readers/*",
    "pool_size: 10",
    "verbosity: normal",
    "output: yaml"]

/-- The sample manifest. -/
def sampleManifest : String := Text.ofLines ["namespace: demo", "profiles: [dev]"]

/-- The document for the sample types. -/
def sampleItems : String :=
  Text.ofLines [
    "\x7b",
    "  \"items\": [",
    "    \x7b\"type\": \"demo.vpc\", " ++
      "\"attrs\": [\x7b\"field\": \"id\"\x7d, \x7b\"field\": \"cidr\"\x7d]\x7d,",
    "    \x7b\"type\": \"demo.subnet\", " ++
      "\"attrs\": [\x7b\"field\": \"id\"\x7d, \x7b\"field\": \"vpc_id\"\x7d, " ++
      "\x7b\"field\": \"zone\"\x7d]\x7d,",
    "    \x7b\"type\": \"demo.instance\", " ++
      "\"attrs\": [\x7b\"field\": \"id\"\x7d, \x7b\"field\": \"subnet_id\"\x7d, " ++
      "\x7b\"field\": \"state\"\x7d]\x7d",
    "  ]",
    "\x7d"]

/-- The document for the sample links. -/
def sampleLinks : String :=
  Text.ofLines [
    "\x7b",
    "  \"links\": [",
    "    \x7b\"from\": \"demo.vpc\", \"to\": \"demo.subnet\", " ++
      "\"mapping\": \x7b\"from\": \"id\", \"to\": \"vpc_id\"\x7d\x7d,",
    "    \x7b\"from\": \"demo.subnet\", \"to\": \"demo.instance\", " ++
      "\"mapping\": \x7b\"from\": \"id\", \"to\": \"subnet_id\"\x7d\x7d",
    "  ]",
    "\x7d"]

/-- A row of records, each with its attributes. -/
def sampleRows (rows : List (List (String × String))) : String :=
  let record (attrs : List (String × String)) :=
    "\x7b" ++ ", ".intercalate (attrs.map fun (name, value) =>
      Json.quoted name ++ ": " ++ Json.quoted value) ++ "\x7d"
  "[" ++ ", ".intercalate (rows.map record) ++ "]"

/-- The sample records under the names of their types. -/
def sampleRecords : List (String × String) :=
  [("vpc", sampleRows [[("id", "vpc-1"), ("cidr", "10.0.0.0/16")]]),
    ("subnet", sampleRows [
      [("id", "subnet-a"), ("vpc_id", "vpc-1"), ("zone", "a")],
      [("id", "subnet-b"), ("vpc_id", "vpc-1"), ("zone", "b")]]),
    ("instance", sampleRows [
      [("id", "i-1"), ("subnet_id", "subnet-a"), ("state", "running")],
      [("id", "i-2"), ("subnet_id", "subnet-b"), ("state", "stopped")]])]

/-! ### Setting up -/

/-- A file that cannot be written, or a directory that cannot be made. -/
structure WriteError where
  path : String
  fault : File.Fault
  deriving DecidableEq

/-- The message for an error. -/
def WriteError.message (error : WriteError) : String :=
  "I/O error on " ++ error.path ++ ": " ++ error.fault.message

/-- The paths of a sample in a directory. -/
structure SamplePaths where
  config : String
  reader : String
  data : String
  deriving DecidableEq

/-- The paths of the sample in a directory. -/
def samplePaths (path : String) : SamplePaths :=
  let reader := File.Path.join (File.Path.join path "readers") sampleName
  ⟨File.Path.join path Config.usualPath, reader,
    File.Path.join (File.Path.join reader Reader.Directory.dataName) sampleProfile⟩

/-- The files of a sample, in the order in which they are written. -/
def sampleFiles (paths : SamplePaths) : List (String × String) :=
  [(paths.config, sampleConfig),
    (File.Path.join paths.reader Reader.Manifest.fileName, sampleManifest),
    (File.Path.join paths.reader Reader.Directory.itemsName, sampleItems),
    (File.Path.join paths.reader Reader.Directory.linksName, sampleLinks)] ++
  sampleRecords.map fun (typeName, rows) => (File.Path.join paths.data (typeName ++ ".json"), rows)

/-- Writes files one after the other up to the first that cannot be written. What was written before
it stays. -/
def writeAll (files : Files) : List (String × String) → Files × Option WriteError
  | [] => (files, none)
  | (path, text) :: rest =>
    match files.writeText path text with
    | .ok files => writeAll files rest
    | .error fault => (files, some ⟨path, fault⟩)

/-- Sets up a sample project in a directory, unless there is a configuration. -/
def setUp (files : Files) (path : String) : Files × Option WriteError :=
  let paths := samplePaths path
  if files.contains paths.config then (files, some ⟨paths.config, .other "already exists"⟩)
  else
    match files.makeDirectory paths.data with
    | .error fault => (files, some ⟨paths.data, fault⟩)
    | .ok files => writeAll files (sampleFiles paths)

/-- What is told about a project that was set up. -/
def setUpReport (path : String) : String :=
  let paths := samplePaths path
  "Initialized topoquery project at " ++ path ++ "\n" ++
    "  Created: " ++ paths.config ++ "\n" ++
    "  Created: " ++ paths.reader ++ "/\n" ++
    "Try: topoquery query \"vpc - instance :id,state\"\n"

end PathQuery.Project
