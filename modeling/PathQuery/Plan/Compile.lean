/-
This file compiles queries to plans. Profiles are selected first, then every item of the
query is resolved to a node; the nodes are added in the order of the query, and then
each is connected with the next along the shortest path of the topology, with a node for
every type in between.
-/

import PathQuery.Plan.Basic
import PathQuery.Query.Basic
import PathQuery.Topology.Basic

namespace PathQuery

/-! ### Types -/

namespace TypeMention

/-- The type that a mention stands for, before it is looked up. A bare name needs a namespace of
its own. -/
def candidate (mention : TypeMention) (topology : Topology) : Except Plan.Error ResourceType :=
  match mention with
  | qualified space name =>
    if space.isEmpty || name.isEmpty then .error (.badMention mention.text)
    else .ok ⟨space, name⟩
  | bare name =>
    if name.isEmpty then .error (.badMention mention.text)
    else
      match topology.spacesOf name with
      | .error error => .error (.topology error)
      | .ok [space] => .ok ⟨space, name⟩
      | .ok spaces => .error (.ambiguousType name spaces)

/-- The registered type that a mention stands for. -/
def resolve (mention : TypeMention) (topology : Topology) : Except Plan.Error ResourceType := do
  let kind ← mention.candidate topology
  if topology.contains kind then .ok kind else .error (.topology (.unknownType kind))

end TypeMention

namespace Plan

/-! ### Profiles -/

/-- The profiles that readers advertise, in the order of the readers. -/
def advertised (readers : List Reader) : List String :=
  readers.flatMap (·.profiles)

/-- The profiles that are advertised more than once, in order. -/
def shared (profiles : List String) : List String :=
  (NameSet.ofList (profiles.filter fun profile => 1 < profiles.count profile)).keys

/-- The profiles that are on offer, in order. No profile may be advertised twice. -/
def offered (readers : List Reader) : Except Error (List String) :=
  let profiles := advertised readers
  match shared profiles with
  | [] => .ok (NameSet.ofList profiles).keys
  | repeated => .error (.sharedProfiles repeated)

/-- The profiles that a query reads under, out of those on offer. A list without names chooses all
of them. -/
def selected (choice : ProfileChoice) (offered : List String) : Except Error (List String) :=
  match choice with
  | .all | .only [] => .ok offered
  | .only names =>
    match names.find? fun name => !offered.contains name with
    | some name => .error (.unknownProfile name)
    | none => .ok names.eraseDups

/-! ### Items -/

/-- What the modifiers of an item have asked for so far. -/
structure Asked where
  attrs : List String
  conditions : List Condition
  deriving DecidableEq

namespace Asked

/-- Adds attributes; those asked for before keep their place. -/
def withAttrs (asked : Asked) (attrs : List String) : Asked :=
  { asked with attrs := (asked.attrs ++ attrs).eraseDups }

/-- Adds what a modifier asks of a type. -/
def add (topology : Topology) (kind : ResourceType) (asked : Asked) (modifier : Modifier) :
    Except Error Asked :=
  match modifier with
  | .show .all => .ok (asked.withAttrs ((topology.attrs? kind).getD []))
  | .show (.named names) =>
    match names.find? fun name => !topology.supports kind name with
    | some name => .error (.unsupportedAttr kind name)
    | none => .ok (asked.withAttrs names)
  | .search condition =>
    if topology.supports kind condition.attr then
      .ok { asked with conditions := asked.conditions ++ [condition] }
    else .error (.unsupportedCondition kind condition.attr)

end Asked

/-- The reader of a type. -/
def readerFor (readers : List Reader) (kind : ResourceType) : Except Error Reader :=
  match Reader.ofSpace? readers kind.space with
  | some reader => .ok reader
  | none => .error (.noReader kind.space)

/-- The node that an item of a query asks for. -/
def specOf (topology : Topology) (readers : List Reader) (profiles : List String)
    (item : QueryItem) : Except Error Spec := do
  let kind ← item.mention.resolve topology
  let asked ← item.modifiers.foldlM (Asked.add topology kind) ⟨[], []⟩
  let reader ← readerFor readers kind
  .ok ⟨kind, profiles, asked.attrs, asked.conditions, reader⟩

/-- The node for a type between two items: whole records, under no condition. -/
def hopSpec (readers : List Reader) (profiles : List String) (kind : ResourceType) :
    Except Error Spec := do
  let reader ← readerFor readers kind
  .ok ⟨kind, profiles, [], [], reader⟩

/-! ### Connections -/

/-- A node of a plan by its identity and its type. -/
structure Place where
  id : String
  kind : ResourceType
  deriving DecidableEq

/-- Adds the nodes of a query in order. -/
def place : (specs : List Spec) → Plan → Except Error (Plan × List Place)
  | [], plan => .ok (plan, [])
  | spec :: rest, plan => do
    let (plan, id) ← if plan.nodes.isEmpty then plan.setRoot spec else plan.addNode spec
    let (plan, places) ← place rest plan
    .ok (plan, ⟨id, spec.kind⟩ :: places)

/-- The mapping of the link from one type to another, for a plan. -/
def mappingFor (topology : Topology) (source target : ResourceType) : Except Error Mapping :=
  match topology.mapping source target with
  | .ok mapping => .ok mapping
  | .error error => .error (.topology error)

/-- Links a node along the types that follow it, the last of which is that of a node already
there; a node is added for every other. -/
def connectAlong (topology : Topology) (readers : List Reader) (profiles : List String)
    (goal : Place) : (current : Place) → (path : List ResourceType) → Plan → Except Error Plan
  | _, [], plan => .ok plan
  | current, [kind], plan => do
    let mapping ← mappingFor topology current.kind kind
    plan.addLink current.id goal.id mapping
  | current, kind :: rest, plan => do
    let spec ← hopSpec readers profiles kind
    let (plan, id) ← plan.addNode spec
    let mapping ← mappingFor topology current.kind kind
    let plan ← plan.addLink current.id id mapping
    connectAlong topology readers profiles goal ⟨id, kind⟩ rest plan

/-- Connects a node with another: by the link of their type to itself where the types are equal,
and along the shortest path otherwise. -/
def connect (topology : Topology) (readers : List Reader) (profiles : List String)
    (source target : Place) (plan : Plan) : Except Error Plan :=
  if source.kind = target.kind then
    match topology.mapping? source.kind target.kind with
    | some mapping => plan.addLink source.id target.id mapping
    | none => .error (.topology (.noPath source.kind target.kind))
  else
    match topology.shortestPath source.kind target.kind with
    | .error error => .error (.topology error)
    | .ok path => connectAlong topology readers profiles target source path.tail plan

/-- Connects every node of a list with the next one. -/
def connectAll (topology : Topology) (readers : List Reader) (profiles : List String) :
    (places : List Place) → Plan → Except Error Plan
  | first :: second :: rest, plan => do
    let plan ← connect topology readers profiles first second plan
    connectAll topology readers profiles (second :: rest) plan
  | _, plan => .ok plan

/-- Compiles a query to a plan. -/
def compile (query : Query) (topology : Topology) (readers : List Reader) :
    Except Error Plan := do
  let offered ← offered readers
  let profiles ← selected query.profiles offered
  let specs ← query.items.mapM (specOf topology readers profiles)
  let (plan, places) ← place specs empty
  connectAll topology readers profiles places plan

end Plan

end PathQuery
