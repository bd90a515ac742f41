/-
This file loads a project: its configuration and the readers that the configuration
names. It also collects what is wrong with the documents of the readers, as far as it
can be said without the others.
-/

import PathQuery.Config.Load

namespace PathQuery

/-- A configuration and the directories of its readers, over some files. -/
structure Project where
  files : Files
  loaded : Config.Loaded
  directories : List Reader.Directory

namespace Project

/-- The reasons for which a project cannot be loaded. -/
inductive LoadError where
  | config (error : Config.Error)
  | reader (error : Reader.Error)

/-- The message for an error. -/
def LoadError.message : LoadError → String
  | config error => error.message
  | reader error => error.message

/-- Loads a project by its configuration, which may be named. -/
def load (files : Files) (named : Option String) : Except LoadError Project := do
  let loaded ← (Config.load files named).mapError .config
  let paths ← (Config.readerDirectories files loaded.base loaded.config.readers).mapError .config
  let directories ← (paths.mapM (Reader.Directory.ofPath files)).mapError .reader
  .ok ⟨files, loaded, directories⟩

/-- The readers of a project. -/
def readers (project : Project) : List Reader :=
  project.directories.map (Reader.Directory.reader project.files)

/-! ### Validation -/

/-- What can be wrong with the documents of a project. -/
inductive Complaint where
  | foreignType (space : String) (kind : ResourceType)
  | schema (error : Schema.Error)
  | topology (error : Topology.Error)

/-- The message for a complaint. -/
def Complaint.message : Complaint → String
  | foreignType space kind =>
    "reader \"" ++ space ++ "\" declares type " ++ kind.text ++ " outside its namespace"
  | schema error => error.message
  | topology error => error.message

/-- The types of a document that are outside of a namespace. -/
def foreignTypes (space : String) (items : Schema.Items) : List ResourceType :=
  (items.types.filterMap fun decl => ResourceType.ofText? decl.written).filter (·.space != space)

/-- The complaints about the documents of one reader. -/
def readerComplaints (reader : Reader) : List Complaint :=
  let items :=
    match reader.documents.items.items with
    | .ok items => (foreignTypes reader.space items).map (.foreignType reader.space)
    | .error error => [.schema error]
  let links :=
    match reader.documents.links.links with
    | .ok _ => []
    | .error error => [.schema error]
  items ++ links

/-- The complaints about several readers: those about the documents of each, or if there are none,
the one about the topology of them all. -/
def complaintsAbout (readers : List Reader) : List Complaint :=
  match readers.flatMap readerComplaints with
  | [] =>
    match Reader.topology readers with
    | .ok _ => []
    | .error (.schema error) => [.schema error]
    | .error (.topology error) => [.topology error]
  | found => found

/-- The complaints about the readers of a project. -/
def complaints (project : Project) : List Complaint := complaintsAbout project.readers

end Project

end PathQuery
