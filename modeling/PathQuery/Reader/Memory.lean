/-
This file defines readers whose records are held in memory. Records are stored on
shelves, one for each profile and type; a record without an identifier of its own gets
its position on its shelf. Requests for chosen types can be made to fail.
-/

import PathQuery.Reader.Basic

namespace PathQuery.Reader

/-- A record and the name of the type that it was stored under. -/
structure Stored where
  typeName : String
  record : Record
  deriving DecidableEq

/-- A reader with records in memory. The latest record is the last one; the latest failure is the
first one. -/
structure Memory where
  space : String
  profiles : List String
  items : String
  links : String
  stored : List Stored
  failures : List (String × String)

namespace Memory

/-- A schema document that declares nothing. -/
def noSchema : String := "\x7b\x7d"

/-- A reader without records. -/
def empty (space : String) (profiles : List String) : Memory :=
  ⟨space, profiles, noSchema, noSchema, [], []⟩

/-- Gives the reader its schema documents. -/
def withSchemas (memory : Memory) (items links : String) : Memory :=
  { memory with items, links }

/-- The records stored under a profile and a type, in the order in which they came. -/
def shelf (memory : Memory) (typeName profile : String) : List Record :=
  (memory.stored.filter fun stored =>
    stored.typeName == typeName && stored.record.profile == profile).map (·.record)

/-- Stores a record. Its `id` is its identifier; without one its position on the shelf is. -/
def store (memory : Memory) (profile typeName : String) (properties : Properties) : Memory :=
  let position := toString (memory.shelf typeName profile).length
  let identifier := (properties.get? identifierAttr).getD position
  { memory with stored := memory.stored ++ [⟨typeName, ⟨profile, identifier, properties⟩⟩] }

/-- Makes every request for a type fail. -/
def failing (memory : Memory) (typeName message : String) : Memory :=
  { memory with failures := (typeName, message) :: memory.failures }

/-- The answer to a request: the shelves of its profiles in order, selected. -/
def fetch (memory : Memory) (request : Request) : Except Error (List Record) :=
  match memory.failures.lookup request.typeName with
  | some message => .error (.fetch request.typeName message)
  | none =>
    let held := request.profiles.flatMap (memory.shelf request.typeName)
    .ok (Record.select held request.attrs request.conditions)

/-- The reader that answers from memory. -/
def reader (memory : Memory) : Reader where
  space := memory.space
  profiles := memory.profiles
  documents := ⟨.inline memory.items, .inline memory.links⟩
  fetch request :=
    match memory.fetch request with
    | .ok records => .records records
    | .error error => .failed error

end Memory

end PathQuery.Reader
