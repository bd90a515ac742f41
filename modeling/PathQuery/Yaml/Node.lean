/-
This file puts the tokens of a document together to a tree of scalars, lists and maps. An
alias stands for the node that its anchor marks. Where the tokens end or do not fit, the
tree is cut off; whoever reads it from its front finds the cut where the document breaks.
-/

import PathQuery.Yaml.Tokens

namespace PathQuery.Yaml

/-- A part of a document. A tag says what a node stands for. -/
inductive Node where
  | scalar (tag : Option String) (writing : Writing) (text : String)
  | list (tag : Option String) (items : List Node)
  | map (tag : Option String) (entries : List (Node × Node))
  | alias (target : Node)
  | cut

namespace Node

/-- The node where nothing is written. -/
def nothing (tag : Option String) : Node := .scalar tag .plain ""

end Node

/-! ### Marks of a document -/

/-- The handles of tags and what they stand for, the latest first. -/
abbrev Handles := List (String × String)

/-- The handles that every document has. -/
def commonHandles : Handles := [("!", "!"), ("!!", "tag:yaml.org,2002:")]

/-- The nodes that are marked by anchors, the latest first. -/
abbrev Anchors := List (String × Node)

/-- What has been read: a part of the tree and the anchors so far, and the tokens that are left,
unless the document breaks off. -/
structure Built (α : Type) where
  value : α
  anchors : Anchors
  rest : Option (List Token)

namespace Built

variable {α β : Type}

/-- A part that breaks off. -/
def broken (value : α) (anchors : Anchors) : Built α := ⟨value, anchors, none⟩

/-- Changes the part that was read. -/
def map (change : α → β) (built : Built α) : Built β :=
  ⟨change built.value, built.anchors, built.rest⟩

end Built

/-- The properties of a node: an anchor and a tag, each at most once and in either order. -/
structure Marks where
  anchor : Option String
  tag : Option String

/-- The tag that a handle and a suffix make up. The tag of a single mark says nothing. -/
def tagName? (handles : Handles) (handle suffix : String) : Option (Option String) :=
  if handle.isEmpty then some (if suffix = "!" then none else some suffix)
  else (handles.lookup handle).map fun start => some (start ++ suffix)

/-- Reads the properties of a node. -/
def marks (handles : Handles) : List Token → Option (Marks × List Token)
  | .anchor name :: .tag handle suffix :: rest =>
    (tagName? handles handle suffix).map fun tag => (⟨some name, tag⟩, rest)
  | .anchor name :: rest => some (⟨some name, none⟩, rest)
  | .tag handle suffix :: .anchor name :: rest =>
    (tagName? handles handle suffix).map fun tag => (⟨some name, tag⟩, rest)
  | .tag handle suffix :: rest =>
    (tagName? handles handle suffix).map fun tag => (⟨none, tag⟩, rest)
  | rest => some (⟨none, none⟩, rest)

/-- Whether a node may stand before a token at all. -/
def isMark : List Token → Bool
  | .anchor _ :: _ => true
  | .tag .. :: _ => true
  | _ => false

/-- The places in which nodes stand. -/
inductive Place where
  /-- Inside brackets. -/
  | inBrackets
  /-- An entry of a block, or a whole document. -/
  | inBlock
  /-- A name or a value of a block map, where a list need not be indented. -/
  | inBlockMap
  deriving DecidableEq

/-- The tokens before which the node of an entry is missing. -/
def missingAt (stops : List Token) (tokens : List Token) : Bool :=
  tokens.head?.any stops.contains

/-- Notes the node that an anchor marks. -/
def noteAnchor (anchors : Anchors) (anchor : Option String) (node : Node) : Anchors :=
  match anchor with
  | some name => (name, node) :: anchors
  | none => anchors

/-! ### Nodes

The bound is on the number of nodes inside one another and one after the other; it is set by the
number of tokens and never reached. -/

mutual

/-- Reads a node. -/
def node (handles : Handles) : (bound : Nat) → Place → Anchors → List Token → Built Node
  | 0, _, anchors, _ => .broken .cut anchors
  | _ + 1, _, anchors, .alias name :: rest =>
    match anchors.lookup name with
    | some target => ⟨.alias target, anchors, some rest⟩
    | none => .broken .cut anchors
  | bound + 1, place, anchors, tokens =>
    match marks handles tokens with
    | none => .broken .cut anchors
    | some (marks, rest) =>
      let isBlock := place != .inBrackets
      let noted := noteAnchor anchors marks.anchor
      let listed (build : Anchors → Built (List Node)) : Built Node :=
        let built := (build (noted (.list marks.tag []))).map (Node.list marks.tag)
        { built with anchors := noteAnchor built.anchors marks.anchor built.value }
      let mapped (build : Anchors → Built (List (Node × Node))) : Built Node :=
        let built := (build (noted (.map marks.tag []))).map (Node.map marks.tag)
        { built with anchors := noteAnchor built.anchors marks.anchor built.value }
      match rest with
      | [] => .broken .cut anchors
      | .scalar writing text :: rest =>
        let scalar := Node.scalar marks.tag writing text
        ⟨scalar, noted scalar, some rest⟩
      | .openList :: rest => listed fun anchors => bracketItems handles bound true anchors rest
      | .openMap :: rest => mapped fun anchors => bracketEntries handles bound true anchors rest
      | token :: rest =>
        if token = .entry && place = .inBlockMap then
          listed fun anchors => flatItems handles bound anchors (token :: rest)
        else if token = .openBlockList && isBlock then
          listed fun anchors => blockItems handles bound anchors rest
        else if token = .openBlockMap && isBlock then
          mapped fun anchors => blockEntries handles bound anchors rest
        else if isMark tokens then
          let scalar := Node.nothing marks.tag
          ⟨scalar, noted scalar, some (token :: rest)⟩
        else .broken .cut anchors

/-- Reads a node, or nothing before one of some tokens. -/
def nodeUnless (handles : Handles) (stops : List Token) :
    (bound : Nat) → Place → Anchors → List Token → Built Node
  | 0, _, anchors, _ => .broken .cut anchors
  | bound + 1, place, anchors, tokens =>
    if missingAt stops tokens then ⟨.nothing none, anchors, some tokens⟩
    else node handles bound place anchors tokens

/-- Reads the items of a block list. -/
def blockItems (handles : Handles) :
    (bound : Nat) → Anchors → List Token → Built (List Node)
  | bound + 1, anchors, .entry :: rest =>
    let built := nodeUnless handles [.entry, .closeBlock] bound .inBlock anchors rest
    match built.rest with
    | none => .broken [built.value] built.anchors
    | some rest => (blockItems handles bound built.anchors rest).map (built.value :: ·)
  | _ + 1, anchors, .closeBlock :: rest => ⟨[], anchors, some rest⟩
  | _, anchors, _ => .broken [.cut] anchors

/-- Reads the items of a list that is not indented. -/
def flatItems (handles : Handles) :
    (bound : Nat) → Anchors → List Token → Built (List Node)
  | bound + 1, anchors, .entry :: rest =>
    let built :=
      nodeUnless handles [.entry, .key, .value, .closeBlock] bound .inBlock anchors rest
    match built.rest with
    | none => .broken [built.value] built.anchors
    | some rest => (flatItems handles bound built.anchors rest).map (built.value :: ·)
  | 0, anchors, _ => .broken [.cut] anchors
  | _, anchors, [] => .broken [.cut] anchors
  | _, anchors, rest => ⟨[], anchors, some rest⟩

/-- Reads the entries of a block map. -/
def blockEntries (handles : Handles) :
    (bound : Nat) → Anchors → List Token → Built (List (Node × Node))
  | bound + 1, anchors, .key :: rest =>
    let key := nodeUnless handles [.key, .value, .closeBlock] bound .inBlockMap anchors rest
    match key.rest with
    | none => .broken [(key.value, .cut)] key.anchors
    | some rest => blockValue handles bound key.value key.anchors rest
  | _ + 1, anchors, .closeBlock :: rest => ⟨[], anchors, some rest⟩
  | bound + 1, anchors, .value :: rest =>
    blockValue handles bound (.nothing none) anchors (.value :: rest)
  | _, anchors, _ => .broken [(.cut, .cut)] anchors

/-- Reads the value of an entry of a block map, and the entries after it. -/
def blockValue (handles : Handles) :
    (bound : Nat) → Node → Anchors → List Token → Built (List (Node × Node))
  | bound + 1, key, anchors, tokens =>
    let value :=
      match tokens with
      | .value :: rest =>
        nodeUnless handles [.key, .value, .closeBlock] bound .inBlockMap anchors rest
      | [] => .broken .cut anchors
      | tokens => ⟨.nothing none, anchors, some tokens⟩
    match value.rest with
    | none => .broken [(key, value.value)] value.anchors
    | some rest =>
      (blockEntries handles bound value.anchors rest).map ((key, value.value) :: ·)
  | 0, key, anchors, _ => .broken [(key, .cut)] anchors

/-- Reads the items of a list between brackets. An item may be a map of a single entry. -/
def bracketItems (handles : Handles) :
    (bound : Nat) → (isFirst : Bool) → Anchors → List Token → Built (List Node)
  | _ + 1, _, anchors, .closeList :: rest => ⟨[], anchors, some rest⟩
  | bound + 1, isFirst, anchors, tokens =>
    let further :=
      match isFirst, tokens with
      | false, .comma :: rest => some rest
      | false, _ => none
      | true, tokens => some tokens
    match further with
    | none => .broken [.cut] anchors
    | some [] => .broken [.cut] anchors
    | some (.closeList :: rest) => ⟨[], anchors, some rest⟩
    | some (.key :: rest) =>
      let pair := pairItem handles bound anchors rest
      match pair.rest with
      | none => .broken [pair.value] pair.anchors
      | some rest => (bracketItems handles bound false pair.anchors rest).map (pair.value :: ·)
    | some rest =>
      let item := node handles bound .inBrackets anchors rest
      match item.rest with
      | none => .broken [item.value] item.anchors
      | some rest => (bracketItems handles bound false item.anchors rest).map (item.value :: ·)
  | 0, _, anchors, _ => .broken [.cut] anchors

/-- Reads a map of a single entry inside a list, after its key mark. Without a key the token after
the mark is passed over. -/
def pairItem (handles : Handles) :
    (bound : Nat) → Anchors → List Token → Built Node
  | bound + 1, anchors, tokens =>
    let stops := [Token.value, .comma, .closeList]
    let key : Built Node :=
      if missingAt stops tokens then ⟨.nothing none, anchors, some tokens.tail⟩
      else node handles bound .inBrackets anchors tokens
    match key.rest with
    | none => .broken (.map none [(key.value, .cut)]) key.anchors
    | some [] => .broken (.map none [(key.value, .cut)]) key.anchors
    | some (.value :: rest) =>
      (nodeUnless handles [.comma, .closeList] bound .inBrackets key.anchors rest).map
        fun value => .map none [(key.value, value)]
    | some rest => ⟨.map none [(key.value, .nothing none)], key.anchors, some rest⟩
  | 0, anchors, _ => .broken .cut anchors

/-- Reads the entries of a map between brackets. -/
def bracketEntries (handles : Handles) :
    (bound : Nat) → (isFirst : Bool) → Anchors → List Token → Built (List (Node × Node))
  | _ + 1, _, anchors, .closeMap :: rest => ⟨[], anchors, some rest⟩
  | bound + 1, isFirst, anchors, tokens =>
    let further :=
      match isFirst, tokens with
      | false, .comma :: rest => some rest
      | false, _ => none
      | true, tokens => some tokens
    match further with
    | none => .broken [(.cut, .cut)] anchors
    | some [] => .broken [(.cut, .cut)] anchors
    | some (.closeMap :: rest) => ⟨[], anchors, some rest⟩
    | some (.key :: rest) =>
      let key := nodeUnless handles [.value, .comma, .closeMap] bound .inBrackets anchors rest
      match key.rest with
      | none => .broken [(key.value, .cut)] key.anchors
      | some rest => bracketValue handles bound key.value key.anchors rest
    | some rest =>
      let key := node handles bound .inBrackets anchors rest
      match key.rest with
      | none => .broken [(key.value, .cut)] key.anchors
      | some rest =>
        (bracketEntries handles bound false key.anchors rest).map ((key.value, .nothing none) :: ·)
  | 0, _, anchors, _ => .broken [(.cut, .cut)] anchors

/-- Reads the value of an entry between brackets, and the entries after it. -/
def bracketValue (handles : Handles) :
    (bound : Nat) → Node → Anchors → List Token → Built (List (Node × Node))
  | bound + 1, key, anchors, tokens =>
    let value :=
      match tokens with
      | .value :: rest => nodeUnless handles [.comma, .closeMap] bound .inBrackets anchors rest
      | [] => .broken .cut anchors
      | tokens => ⟨.nothing none, anchors, some tokens⟩
    match value.rest with
    | none => .broken [(key, value.value)] value.anchors
    | some rest =>
      (bracketEntries handles bound false value.anchors rest).map ((key, value.value) :: ·)
  | 0, key, anchors, _ => .broken [(key, .cut)] anchors

end

/-! ### Documents -/

/-- What a text holds: nothing, or a first document, with whether the text ends well after it. -/
structure Stream where
  first : Option Node
  endsWell : Bool

/-- The versions of the format that can be read. -/
def isKnownVersion (major minor : Nat) : Bool := major == 1 && (minor == 1 || minor == 2)

/-- Reads the directives before a document: the handles that they define, and what follows. A
version may be given once, and so may each handle. -/
def directives (hasVersion : Bool) (handles : Handles) : List Token → Option (Handles × List Token)
  | .version major minor :: rest =>
    if hasVersion || !isKnownVersion major minor then none else directives true handles rest
  | .tagHandle handle start :: rest =>
    if (handles.lookup handle).isSome then none
    else directives hasVersion ((handle, start) :: handles) rest
  | rest => some (handles, rest)

/-- Whether a token ends a document that holds nothing. -/
def endsDocument : Token → Bool
  | .version .. | .tagHandle .. | .documentStart | .documentEnd | .streamEnd => true
  | _ => false

/-- Whether nothing but marks for the end of a document is left. -/
def isOver : List Token → Bool
  | .documentEnd :: rest => isOver rest
  | [.streamEnd] => true
  | _ => false

/-- Reads the node of a document and tells whether nothing follows it. -/
def content (handles : Handles) (tokens : List Token) : Stream :=
  match tokens with
  | [] => ⟨some .cut, false⟩
  | token :: _ =>
    if endsDocument token then ⟨some (.nothing none), isOver tokens⟩
    else
      let built := node handles (8 * tokens.length + 8) .inBlock [] tokens
      ⟨some built.value, built.rest.any isOver⟩

/-- Reads the first document of a text. -/
def stream (text : String) : Stream :=
  match tokens text with
  | [.streamEnd] => ⟨none, true⟩
  | tokens =>
    match directives false [] tokens with
    | none => ⟨some .cut, false⟩
    | some (handles, .documentStart :: rest) => content (handles ++ commonHandles) rest
    | some (_, rest) =>
      if rest.length = tokens.length && !(rest.head?.any endsDocument) then
        content commonHandles rest
      else ⟨some .cut, false⟩

end PathQuery.Yaml
