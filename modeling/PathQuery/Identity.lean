/-
This file defines the identities of tasks and of the records they find. An
identity is the beginning of a digest of its components, each closed by a zero
byte, so that components never run into one another. Tasks and records are kept
apart by a leading word.
-/

import PathQuery.Digest.Tree

namespace PathQuery.Identity

/-- The bytes that are digested: every component in order, each followed by a zero byte. -/
def stream (components : List String) : List UInt8 :=
  components.flatMap fun component => component.toUTF8.toList ++ [0]

/-- The two hexadecimal digits of a byte. -/
def hexDigits (byte : UInt8) : List Char :=
  [Nat.digitChar (byte.toNat / 16), Nat.digitChar (byte.toNat % 16)]

/-- The number of bytes of a digest that an identity keeps. -/
def keptBytes : Nat := 8

/-- The identity of a list of components. -/
def ofComponents (components : List String) : String :=
  String.ofList (((Digest.digest (stream components)).take keptBytes).flatMap hexDigits)

/-- The identity of the root of a plan and of the task that fetches it. -/
def root : String := "ROOT"

/-- The components that identify the task which follows a link from an item to a plan node. -/
def taskComponents (item node : String) : List String :=
  ["task", item, node]

/-- The components that identify a record found in a group, under a profile, by its identifier. -/
def itemComponents (group profile identifier : String) : List String :=
  ["item", group, profile, identifier]

/-- The identity of the task which follows a link from an item to a plan node. -/
def task (item node : String) : String :=
  ofComponents (taskComponents item node)

/-- The identity of a record found in a group. -/
def item (group profile identifier : String) : String :=
  ofComponents (itemComponents group profile identifier)

end PathQuery.Identity
