/-
This file reads values and records from the tree of a document. A reader looks at one
node and says which place is at fault if the node is not what it should be. A record is
read entry by entry, so of several faults the first one is told; that the document
breaks off or goes on too long is told last.
-/

import PathQuery.Yaml.Fault
import PathQuery.Yaml.Node
import PathQuery.Yaml.Plain

namespace PathQuery.Yaml

/-! ### What stands at a node -/

/-- The node itself, or the one that an alias stands for. -/
def Node.target : Node → Node
  | .alias target => target.target
  | node => node

/-- What a scalar stands for. A tag of the common ones asks for a type, which is told if the scalar
is not of it; quoted scalars and those under foreign tags are texts. -/
def scalarFound (tag : Option String) (writing : Writing) (text : String) :
    Except String Document.Found :=
  let untagged := if writing = .plain then meaning text else .text text
  match tag with
  | none => .ok untagged
  | some "tag:yaml.org,2002:bool" => ((boolean? text).map .boolean).elim (.error "a boolean") .ok
  | some "tag:yaml.org,2002:int" => (integer? text.toList).elim (.error "an integer") .ok
  | some "tag:yaml.org,2002:float" => ((fraction? text).map .fraction).elim (.error "a float") .ok
  | some "tag:yaml.org,2002:null" => if isNull text then .ok .nothing else .error "null"
  | some tag => .ok (if tag.startsWith "!" then untagged else .text text)

/-- The fault of a node that is not what is expected at its place. -/
def Node.refuse (way : Way) (expected : String) : Node → Fault
  | .scalar tag writing text =>
    match scalarFound tag writing text with
    | .ok found => .wrongType way found expected
    | .error kind => .wrongValue way (.text text) kind
  | .list .. => .wrongType way .list expected
  | .map .. => .wrongType way .map expected
  | .alias target => target.refuse way expected
  | .cut => .malformed

/-- Whether a list or a map may be missing here, so that it is empty. -/
def isBlankScalar (writing : Writing) (text : String) : Bool :=
  writing == .plain && text.isEmpty

mutual

/-- Whether the document does not break off inside a node. -/
def Node.isWhole : Node → Bool
  | .scalar .. => true
  | .list _ items => areWhole items
  | .map _ entries => areWholeEntries entries
  | .alias _ => true
  | .cut => false

/-- Whether the document does not break off inside any of several nodes. -/
def areWhole : List Node → Bool
  | [] => true
  | node :: rest => node.isWhole && areWhole rest

/-- Whether the document does not break off inside any of several entries. -/
def areWholeEntries : List (Node × Node) → Bool
  | [] => true
  | (key, value) :: rest => key.isWhole && value.isWhole && areWholeEntries rest

end

/-! ### Readers of values -/

/-- Reads a value from the node at a place. -/
abbrev Reader (α : Type) := Way → Node → Except Fault α

variable {α : Type}

/-- Reads a text, which any scalar is. -/
def text : Reader String := fun way node =>
  match node.target with
  | .scalar _ _ text => .ok text
  | node => .error (node.refuse way "a string")

/-- Whether a scalar may be a whole number by the way it is written. -/
def mayBeNumber (tag : Option String) : Writing → Bool
  | .plain => true
  | .literal => tag == some "tag:yaml.org,2002:int"
  | _ => false

/-- Reads a number of a machine word. -/
def word : Reader Nat := fun way node =>
  let refused := Except.error (node.target.refuse way "usize")
  match node.target with
  | .scalar tag writing text =>
    match unsigned? text.toList with
    | some number =>
      if mayBeNumber tag writing && number < Nat.pow 2 64 then .ok number else refused
    | none => refused
  | _ => refused

/-- Reads the items of a list from one index on. -/
def items (read : Reader α) (way : Way) (index : Nat) : List Node → Except Fault (List α)
  | [] => .ok []
  | node :: rest => do
    let first ← read (way ++ [.item index]) node
    let others ← items read way (index + 1) rest
    .ok (first :: others)

/-- Reads a list. -/
def list (read : Reader α) : Reader (List α) := fun way node =>
  match node.target with
  | .list _ nodes => items read way 0 nodes
  | .scalar tag writing text =>
    if isBlankScalar writing text then .ok []
    else .error ((Node.scalar tag writing text).refuse way "a sequence")
  | node => .error (node.refuse way "a sequence")

/-- The name in the tag of a node, if it has one of its own. -/
def Node.ownTag? (node : Node) : Option String :=
  let tag :=
    match node with
    | .scalar tag _ _ => tag
    | .list tag _ => tag
    | .map tag _ => tag
    | _ => none
  tag.bind fun tag =>
    match tag.toList with
    | '!' :: letter :: rest => some (String.ofList (letter :: rest))
    | _ => none

/-- The fault of a node that should hold nothing, if it does hold something. -/
def Node.held? (way : Way) : Node → Option Fault
  | .scalar _ writing text =>
    if writing == .plain && (text.isEmpty || isNull text) then none
    else some (.wrongValue way (.text text) "null")
  | node => some (node.refuse way "unit")

/-- Finds a value by its name, or tells the names that there are. -/
def named (values : List (String × α)) (way : Way) (name : String) : Except Fault α :=
  match values.lookup name with
  | some value => .ok value
  | none => .error (.unknownVariant way name (values.map (·.1)))

/-- Reads one of several values by its name, which is a text or a tag with nothing after it. -/
def choice (values : List (String × α)) : Reader α := fun way node =>
  let node := node.target
  match node.ownTag?, node with
  | some name, node => do
    let value ← named values [] name
    match node.held? way with
    | some fault => .error fault
    | none => .ok value
  | none, .scalar _ _ text => named values way text
  | none, node => .error (node.refuse way "a YAML tag starting with '!'")

/-! ### Records -/

/-- A field of a record: what reading it does to the record. -/
structure Field (α : Type) where
  name : String
  required : Bool
  read : Reader (α → α)

/-- A field whose value is put into the record by a function. -/
def Field.of {β : Type} (name : String) (required : Bool) (read : Reader β) (put : β → α → α) :
    Field α :=
  ⟨name, required, fun way node => (read way node).map put⟩

/-- The form of a record: its name, whether fields of other names are passed over, the record whose
fields are still to be read, and its fields. -/
structure Form (α : Type) where
  name : String
  isOpen : Bool
  start : α
  fields : List (Field α)

/-- The step to the value of an entry. -/
def Node.step (name : String) : Node → Step
  | .alias _ => .unnamed
  | _ => .member name

namespace Form

/-- The fault for the first field that is required and missing, if there is one. -/
def missing? (form : Form α) (way : Way) (seen : List String) : Option Fault :=
  (form.fields.find? fun field => field.required && !seen.contains field.name).map fun field =>
    .missingField way field.name

/-- Reads the entries of a map that holds a record. -/
def readEntries (form : Form α) (way : Way) (seen : List String) (record : α) :
    List (Node × Node) → Except Fault α
  | [] =>
    match form.missing? way seen with
    | some fault => .error fault
    | none => .ok record
  | (key, value) :: rest =>
    match key.target with
    | .scalar _ _ name =>
      match form.fields.find? (·.name == name) with
      | some field => do
        if seen.contains name then .error (.duplicateField way name)
        let change ← field.read (way ++ [key.step name]) value
        form.readEntries way (name :: seen) (change record) rest
      | none =>
        if !form.isOpen then .error (.unknownField way name (form.fields.map (·.name)))
        else if !value.isWhole then .error .malformed
        else form.readEntries way seen record rest
    | key => .error (key.refuse way "field identifier")

/-- Reads a record. -/
def read (form : Form α) : Reader α := fun way node =>
  let expected := "struct " ++ form.name
  match node.target with
  | .map _ entries => form.readEntries way [] form.start entries
  | .scalar tag writing text =>
    if isBlankScalar writing text then form.readEntries way [] form.start []
    else .error ((Node.scalar tag writing text).refuse way expected)
  | node => .error (node.refuse way expected)

/-- Reads a record from a whole document. Without any document its fields are missing. -/
def document (form : Form α) (content : String) : Except Fault α := do
  let stream := stream content
  let record ←
    match stream.first with
    | some node => form.read [] node
    | none => form.readEntries [] [] form.start []
  if stream.endsWell then .ok record else .error .malformed

end Form

end PathQuery.Yaml
