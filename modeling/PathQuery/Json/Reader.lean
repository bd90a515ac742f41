/-
This file reads documents. A document is read from its front for what its place asks
for, and the first thing that is wrong from there is the one that is told. Lists and
objects may nest up to a fixed depth. A record is read from an object, whose other
members are passed over, or from a list of its fields in order.
-/

import PathQuery.Dict
import PathQuery.Json.Skip

namespace PathQuery.Json

open Text (Remaining)

variable {α : Type}

/-- A way to read what a place of a document asks for, where lists and objects may nest to the
given depth. -/
abbrev Reader (α : Type) := (depth : Nat) → Reading α

/-! ### Plain values -/

/-- Reads a value that does not nest. -/
def plain : Reading Value
  | [] => .error (Fault.ends .value).atEnd
  | letter :: input =>
    match wordOf? letter with
    | some (word, value) => do
      let rest ← afterWord word.toList input
      .ok (.ofRemaining value letter rest)
    | none =>
      if letter = '"' then do
        let taken ← quotedText input
        .ok ((taken.map .text).afterLetter letter)
      else if letter = '-' || letter.isDigit then do
        let taken ← numberValue (letter :: input)
        .ok (taken.map .number)
      else .error (Fault.noValue.past (letter :: input))

/-- The bracket at the front of a text. -/
def opening? (input : List Char) : Option Bracket :=
  input.head?.bind bracketOf?

/-- What a value is, for a message. -/
def Value.found : Value → Document.Found
  | .null => .nothing
  | .boolean value => .boolean value
  | .number (.integer value) => .integer value
  | .number (.double value) => .fraction value
  | .text value => .text value
  | .array _ => .list
  | .object _ => .map

/-- Where something else was expected than what the text goes on with. A list or an object is told
where it starts, and any other value where it ends. -/
def mismatch (expected : String) (input : List Char) : Stop :=
  match opening? input with
  | some .square => (Fault.wrongType .list expected).before input
  | some .curly => (Fault.wrongType .map expected).before input
  | none =>
    match plain input with
    | .error stop => stop
    | .ok taken => (Fault.wrongType taken.value.found expected).before taken.rest

/-- Reads a text. -/
def text : Reader String := fun _ input =>
  match spaced : afterSpace input with
  | '"' :: further => do
    let taken ← quotedText further
    .ok (taken.within (Nat.le_of_lt (length_lt_of_afterSpace spaced)))
  | further => .error (mismatch "a string" further)

/-- Reads a truth value. -/
def boolean : Reader Bool := fun _ input => do
  let further := afterSpace input
  match further.head?.bind wordOf?, plain further with
  | some (_, .boolean value), .ok taken =>
    .ok ((taken.map fun _ => value).within (length_afterSpace_le input))
  | _, _ => .error (mismatch "a boolean" further)

/-! ### Lists and objects -/

/-- Goes on to the next item of a list, from after the bracket or after an item. Tells whether
there is one; without one the list is closed. -/
def nextItem (isFirst : Bool) (input : List Char) : Except Stop (Bool × Remaining input) :=
  match spaced : afterSpace input with
  | [] => .error (Fault.ends .array).atEnd
  | ']' :: rest => .ok (false, afterSpaced ']' rest spaced)
  | letter :: rest =>
    if isFirst then .ok (true, .all input)
    else if letter = ',' then
      match afterSpace rest with
      | [] => .error (Fault.ends .value).atEnd
      | ']' :: after => .error (Fault.trailingComma.past (']' :: after))
      | _ => .ok (true, afterSpaced letter rest spaced)
    else .error (Fault.noCommaOrBracket.past (letter :: rest))

/-- Reads the items of a list up to its end. -/
def items (read : Reading α) (isFirst : Bool) (input : List Char) :
    Except Stop (List α × Remaining input) :=
  match nextItem isFirst input with
  | .error stop => .error stop
  | .ok (false, rest) => .ok ([], rest)
  | .ok (true, ⟨further, bound⟩) =>
    match read further with
    | .error stop => .error stop
    | .ok ⟨value, after, shorter⟩ =>
      match items read false after with
      | .error stop => .error stop
      | .ok (values, ⟨rest, fewer⟩) => .ok (value :: values, ⟨rest, by omega⟩)
termination_by input.length

/-- Goes on to the next member of an object and reads its name; without one the object is
closed. -/
def nextName (isFirst : Bool) (input : List Char) :
    Except Stop (Option String × Remaining input) :=
  match spaced : afterSpace input with
  | [] => .error (Fault.ends .object).atEnd
  | letter :: rest =>
    let further := afterSpaced letter rest spaced
    if letter = '\x7d' then .ok (none, further)
    else if isFirst then
      if letter = '"' then do
        let taken ← quotedText rest
        .ok (some taken.value, further.within taken.remaining)
      else .error (Fault.keyNotText.past (letter :: rest))
    else if letter = ',' then
      match quoted : afterSpace rest with
      | [] => .error (Fault.ends .value).atEnd
      | letter :: after =>
        if letter = '"' then do
          let taken ← quotedText after
          .ok (some taken.value,
            further.within ((afterSpaced letter after quoted).within taken.remaining))
        else if letter = '\x7d' then .error (Fault.trailingComma.past (letter :: after))
        else .error (Fault.keyNotText.past (letter :: after))
    else .error (Fault.noCommaOrBrace.past (letter :: rest))

/-- Reads the colon after the name of a member. -/
def colon (input : List Char) : Except Stop (Remaining input) :=
  match spaced : afterSpace input with
  | [] => .error (Fault.ends .object).atEnd
  | ':' :: rest => .ok (afterSpaced ':' rest spaced)
  | other => .error (Fault.noColon.past other)

/-- Reads the colon and the value of a member. -/
def memberValue (read : Reading α) : Reading α := fun input => do
  let ⟨further, bound⟩ ← colon input
  let taken ← read further
  .ok (taken.within bound)

/-- Reads the members of an object up to its end. -/
def members (read : Reading α) (isFirst : Bool) (input : List Char) :
    Except Stop (List (String × α) × Remaining input) :=
  match nextName isFirst input with
  | .error stop => .error stop
  | .ok (none, rest) => .ok ([], rest)
  | .ok (some name, ⟨further, bound⟩) =>
    match memberValue read further with
    | .error stop => .error stop
    | .ok ⟨value, after, shorter⟩ =>
      match members read false after with
      | .error stop => .error stop
      | .ok (others, ⟨rest, fewer⟩) => .ok ((name, value) :: others, ⟨rest, by omega⟩)
termination_by input.length

/-- Enters a list or an object: what it holds is read to one level less. -/
def entered (bracket : Bracket) (expected : String)
    (inside : (depth : Nat) → (input : List Char) → Except Stop (α × Remaining input)) :
    Reader α := fun depth input =>
  match spaced : afterSpace input with
  | [] => .error (Fault.ends .value).atEnd
  | letter :: further =>
    if bracketOf? letter = some bracket then
      match depth with
      | 0 => .error (Fault.tooDeep.past (letter :: further))
      | depth + 1 => do
        let (value, ⟨rest, fewer⟩) ← inside depth further
        .ok ⟨value, rest, Nat.lt_of_le_of_lt fewer (length_lt_of_afterSpace spaced)⟩
    else .error (mismatch expected (letter :: further))

/-- Reads a list. -/
def list (read : Reader α) : Reader (List α) :=
  entered .square "a sequence" fun depth => items (read depth) true

/-- Reads an object. Of two members of one name the later one counts. -/
def object (read : Reader α) : Reader (Dict α) :=
  entered .curly "a map" fun depth input => do
    let (pairs, rest) ← members (read depth) true input
    .ok (Dict.ofPairs pairs, rest)

/-! ### Any value -/

/-- Reads any value. -/
def value : Reader Value
  | 0, input =>
    let further := afterSpace input
    if (opening? further).isSome then .error (Fault.tooDeep.past further)
    else do
      let taken ← plain further
      .ok (taken.within (length_afterSpace_le input))
  | depth + 1, input =>
    match opening? (afterSpace input) with
    | some .square => do
      let taken ← list (fun _ => value depth) (depth + 1) input
      .ok (taken.map .array)
    | some .curly => do
      let taken ← object (fun _ => value depth) (depth + 1) input
      .ok (taken.map fun members => .object members.entries)
    | none => do
      let taken ← plain (afterSpace input)
      .ok (taken.within (length_afterSpace_le input))

/-! ### Records -/

/-- A field of a record: what reading it does to the record. -/
structure Field (α : Type) where
  name : String
  required : Bool
  read : Reader (α → α)

/-- A field whose value is put into the record by a function. -/
def Field.of {β : Type} (name : String) (required : Bool) (read : Reader β) (put : β → α → α) :
    Field α :=
  ⟨name, required, fun depth input => do
    let taken ← read depth input
    .ok (taken.map put)⟩

/-- The form of a record: its name, its fields in order, and the record whose fields are still to
be read. -/
structure Form (α : Type) where
  name : String
  start : α
  fields : List (Field α)

namespace Form

/-- The words for a record that is expected. -/
def expected (form : Form α) : String := "struct " ++ form.name

/-- The words for the number of fields that are expected. -/
def expectedLength (form : Form α) : String :=
  let count := form.fields.length
  form.expected ++ " with " ++ toString count ++ (if count = 1 then " element" else " elements")

/-- The fault for the first field that is required and missing, if there is one. -/
def missing? (form : Form α) (seen : List String) : Option Fault :=
  (form.fields.find? fun field => field.required && !seen.contains field.name).map fun field =>
    .missingField field.name

/-- Where a field is read for the second time: the object is closed if it ends with the name. -/
def duplicate (name : String) (input : List Char) : Stop :=
  match afterSpace input with
  | '\x7d' :: rest => (Fault.duplicateField name).before rest
  | rest => (Fault.duplicateField name).before rest

/-- Reads the members of an object that holds a record. -/
def readMembers (form : Form α) (depth : Nat) (seen : List String) (record : α) (isFirst : Bool)
    (input : List Char) : Except Stop (α × Remaining input) :=
  match nextName isFirst input with
  | .error stop => .error stop
  | .ok (none, rest) =>
    match form.missing? seen with
    | some fault => .error (fault.before rest.val)
    | none => .ok (record, rest)
  | .ok (some name, ⟨further, bound⟩) =>
    match form.fields.find? (·.name == name) with
    | none =>
      match memberValue skipValue further with
      | .error stop => .error stop
      | .ok ⟨_, after, shorter⟩ =>
        match form.readMembers depth seen record false after with
        | .error stop => .error stop
        | .ok (record, ⟨rest, fewer⟩) => .ok (record, ⟨rest, by omega⟩)
    | some field =>
      if seen.contains name then .error (duplicate name further)
      else
        match memberValue (field.read depth) further with
        | .error stop => .error stop
        | .ok ⟨change, after, shorter⟩ =>
          match form.readMembers depth (name :: seen) (change record) false after with
          | .error stop => .error stop
          | .ok (record, ⟨rest, fewer⟩) => .ok (record, ⟨rest, by omega⟩)
termination_by input.length

/-- Reads the end of a list that should hold nothing more. -/
def listEnd (input : List Char) : Except Stop (Remaining input) :=
  match spaced : afterSpace input with
  | [] => .error (Fault.ends .array).atEnd
  | ']' :: rest => .ok (afterSpaced ']' rest spaced)
  | ',' :: rest =>
    match afterSpace rest with
    | ']' :: after => .error (Fault.trailingComma.past (']' :: after))
    | other => .error (Fault.trailingText.past other)
  | other => .error (Fault.trailingText.past other)

/-- Reads the items of a list that holds the fields of a record in order. Fields that are not
required may be missing at the end. -/
def readItems (form : Form α) (depth : Nat) (record : α) (index : Nat) (fields : List (Field α))
    (input : List Char) : Except Stop (α × Remaining input) :=
  match fields with
  | [] => do
    let rest ← listEnd input
    .ok (record, rest)
  | field :: others => do
    let (isThere, ⟨further, bound⟩) ← nextItem (index == 0) input
    if isThere then
      let ⟨change, after, shorter⟩ ← field.read depth further
      let (record, ⟨rest, fewer⟩) ← form.readItems depth (change record) (index + 1) others after
      .ok (record, ⟨rest, by omega⟩)
    else
      match (fields.zipIdx index).find? (·.1.required) with
      | some (_, missing) =>
        .error ((Fault.wrongLength missing form.expectedLength).before further)
      | none => .ok (record, ⟨further, bound⟩)

/-- Reads a record. -/
def read (form : Form α) : Reader α := fun depth input =>
  match opening? (afterSpace input) with
  | some .square =>
    entered .square form.expected (fun depth => form.readItems depth form.start 0 form.fields)
      depth input
  | _ =>
    entered .curly form.expected (fun depth => form.readMembers depth [] form.start true)
      depth input

end Form

/-! ### Documents -/

/-- The number of levels to which the lists and objects of a document may nest. -/
def depthLimit : Nat := 127

/-- Reads a text to its end. -/
def toEnd (read : Reader α) (content : String) : Except Stop α := do
  let taken ← read depthLimit content.toList
  let rest := afterSpace taken.rest
  if rest.isEmpty then .ok taken.value else .error (Fault.trailingText.past rest)

/-- Reads a document. -/
def document (read : Reader α) (content : String) : Except Error α :=
  (toEnd read content).mapError (.ofStop content)

end PathQuery.Json
