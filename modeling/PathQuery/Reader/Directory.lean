/-
This file defines readers whose records are files in a directory. The directory holds a
manifest with the namespace and the profiles, a document for the types and one for the
links, and for each profile and type a file of records. Of several profiles that cannot
be read, the first one is told; the records of the others are kept.
-/

import PathQuery.File.Access
import PathQuery.Reader.Basic
import PathQuery.Yaml.Form

namespace PathQuery.Reader

/-! ### The manifest -/

/-- What the manifest of a reader says. -/
structure Manifest where
  space : String
  profiles : List String
  deriving DecidableEq

namespace Manifest

/-- The name of the file that holds a manifest. -/
def fileName : String := "reader.yaml"

/-- The form of a manifest. -/
def form : Yaml.Form Manifest where
  name := "ReaderManifest"
  isOpen := true
  start := ⟨"", []⟩
  fields := [
    .of "namespace" true Yaml.text fun space manifest => { manifest with space },
    .of "profiles" false (Yaml.list Yaml.text) fun profiles manifest =>
      { manifest with profiles }]

/-- Whether a text can be a namespace. -/
def isSpace (space : String) : Bool := !space.isEmpty && !space.contains '.'

/-- Reads a manifest. -/
def ofText (content : String) : Except DataFault Manifest :=
  match form.document content with
  | .error fault => .error (.yaml fault)
  | .ok manifest =>
    if isSpace manifest.space then .ok manifest else .error (.badSpace manifest.space)

end Manifest

/-! ### The directory -/

/-- The directory of a reader, with what its manifest says. -/
structure Directory where
  root : String
  manifest : Manifest
  deriving DecidableEq

namespace Directory

/-- The name of the document for the types. -/
def itemsName : String := "item_schema.json"

/-- The name of the document for the links. -/
def linksName : String := "link_schema.json"

/-- The name of the directory for the records. -/
def dataName : String := "data"

/-- Opens the directory of a reader. -/
def ofPath (files : Files) (root : String) : Except Error Directory :=
  let path := File.Path.join root Manifest.fileName
  match files.readText path with
  | .error fault => .error (.unreadable path fault)
  | .ok content =>
    match Manifest.ofText content with
    | .error fault => .error (.badData path fault)
    | .ok manifest => .ok ⟨root, manifest⟩

/-- The path of the records of a profile and a type. -/
def dataPath (directory : Directory) (profile typeName : String) : String :=
  File.Path.join
    (File.Path.join (File.Path.join directory.root dataName) profile) (typeName ++ ".json")

/-! ### Records -/

/-- The record in one row. Its `id` is its identifier. -/
def recordOf (profile : String) (index : Nat) (row : Dict Json.Value) : Except DataFault Record :=
  let properties : Properties := row.entries.map fun (name, value) => (name, value.attrText)
  match properties.get? identifierAttr with
  | some identifier => .ok ⟨profile, identifier, properties⟩
  | none => .error (.noIdentifier index)

/-- Reads the records of a profile. -/
def recordsOf (profile content : String) : Except DataFault (List Record) :=
  match Json.document (Json.list (Json.object Json.value)) content with
  | .error error => .error (.json error)
  | .ok rows => rows.zipIdx.mapM fun (row, index) => recordOf profile index row

/-- The records of a profile and a type. Where there is no file there are no records. -/
def records (files : Files) (directory : Directory) (typeName profile : String) :
    Except Error (List Record) :=
  let path := directory.dataPath profile typeName
  if !files.contains path then .ok []
  else
    match files.readText path with
    | .error fault => .error (.unreadable path fault)
    | .ok content =>
      match recordsOf profile content with
      | .error fault => .error (.badData path fault)
      | .ok records => .ok records

/-- What has been read of several profiles: the records and the first failure. -/
structure Gathered where
  records : List Record
  failure : Option Error

/-- Adds what was read of one more profile. -/
def Gathered.add (gathered : Gathered) : Except Error (List Record) → Gathered
  | .ok records => { gathered with records := gathered.records ++ records }
  | .error error => { gathered with failure := gathered.failure.or (some error) }

/-- The answer to a request: the records of the profiles in order, selected, unless reading them
failed before there were any. -/
def fetch (files : Files) (directory : Directory) (request : Request) :
    Except Error (List Record) :=
  let profiles := request.profiles.filter directory.manifest.profiles.contains
  let gathered := (profiles.map (directory.records files request.typeName)).foldl Gathered.add
    ⟨[], none⟩
  let selected := Record.select gathered.records request.attrs request.conditions
  match gathered.failure with
  | none => .ok selected
  | some error => .error (if selected.isEmpty then error else .partially selected error)

/-- The document of a reader that a file holds. -/
def source (files : Files) (directory : Directory) (name : String) : Schema.Source :=
  let path := File.Path.join directory.root name
  .file path (files.readText path)

/-- The reader that answers from its directory. -/
def reader (files : Files) (directory : Directory) : Reader where
  space := directory.manifest.space
  profiles := directory.manifest.profiles
  documents := ⟨directory.source files itemsName, directory.source files linksName⟩
  fetch request :=
    match directory.fetch files request with
    | .ok records => .records records
    | .error error => .failed error

end Directory

end PathQuery.Reader
