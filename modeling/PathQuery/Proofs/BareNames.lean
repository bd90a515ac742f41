/-
This file proves that the index of names stays in step with the types of a topology. Whatever is
added, refused additions among them, the tables of a topology answer every question as the topology
does, and what is refused leaves them as they were. A bare name therefore stands for a type exactly
where one registered type has it, and otherwise it is told whether none or several have it.
-/

import Mathlib.Data.List.Sort
import PathQuery.Proofs.Building
import PathQuery.Proofs.Steps
import PathQuery.Topology.Tables

namespace PathQuery.Topology

/-! ### Links under their types -/

namespace LinkTable

variable {table : LinkTable} {source : ResourceType}

theorem lookup_append_single (table : LinkTable) (source other : ResourceType) :
    (table ++ [(source, [])]).lookup other =
      (table.lookup other).or (if other = source then some [] else none) := by
  rw [List.lookup_append, List.lookup_cons, List.lookup_nil]
  by_cases same : other = source
  · rw [if_pos same, beq_iff_eq.mpr same]
  · rw [if_neg same, beq_eq_false_iff_ne.mpr same]

/-- An empty place holds no link. -/
theorem linksFrom_reserve (table : LinkTable) (source other : ResourceType) :
    (table.reserve source).linksFrom other = table.linksFrom other := by
  rw [reserve]
  split
  · rfl
  · rw [linksFrom, linksFrom, lookup_append_single]
    cases table.lookup other with
    | some held => rfl
    | none =>
      rw [Option.none_or]
      split
      · rfl
      · rfl

theorem flatMap_reserve (table : LinkTable) (source : ResourceType) :
    (table.reserve source).flatMap (·.2) = table.flatMap (·.2) := by
  rw [reserve]
  split
  · rfl
  · rw [List.flatMap_append]
    exact List.append_nil _

theorem lookup_reserve_isSome (table : LinkTable) (source : ResourceType) :
    ((table.reserve source).lookup source).isSome = true := by
  rw [reserve]
  split
  · next held => exact held
  · rw [lookup_append_single, if_pos rfl, Option.isSome_or, Option.isSome_some, Bool.or_true]

/-- Where a type has links there is a place for them, and reserving one changes nothing. -/
theorem reserve_of_linksFrom (held : table.linksFrom source ≠ []) :
    table.reserve source = table := by
  rw [reserve]
  split
  · rfl
  · next none =>
    rw [Option.not_isSome_iff_eq_none] at none
    rw [linksFrom, none] at held
    exact absurd rfl held

/-- A link goes to the end of those of its own type. -/
theorem linksFrom_put (held : (table.lookup source).isSome = true) (target : ResourceType)
    (mapping : Mapping) (other : ResourceType) :
    (put source target mapping table).linksFrom other =
      table.linksFrom other ++ if other = source then [(target, mapping)] else [] := by
  induction table with
  | nil => cases held
  | cons entry rest inductionHypothesis =>
    obtain ⟨key, links⟩ := entry
    rw [put]
    by_cases here : key = source
    · subst here
      rw [if_pos rfl, linksFrom, linksFrom, List.lookup_cons, List.lookup_cons]
      by_cases same : other = key
      · rw [if_pos same, beq_iff_eq.mpr same]
        rfl
      · rw [if_neg same, beq_eq_false_iff_ne.mpr same, List.append_nil]
    · rw [List.lookup_cons, beq_eq_false_iff_ne.mpr (Ne.symm here)] at held
      have later := inductionHypothesis held
      rw [if_neg here, linksFrom, linksFrom, List.lookup_cons, List.lookup_cons]
      by_cases same : other = key
      · have apart : other ≠ source := fun equal => here (same.symm.trans equal)
        rw [if_neg apart, beq_iff_eq.mpr same, List.append_nil]
      · rw [beq_eq_false_iff_ne.mpr same]
        exact later

theorem length_put (held : (table.lookup source).isSome = true) (target : ResourceType)
    (mapping : Mapping) :
    ((put source target mapping table).flatMap (·.2)).length =
      (table.flatMap (·.2)).length + 1 := by
  induction table with
  | nil => cases held
  | cons entry rest inductionHypothesis =>
    obtain ⟨key, links⟩ := entry
    rw [put]
    by_cases here : key = source
    · rw [if_pos here]
      simp only [List.flatMap_cons, List.length_append, List.length_singleton]
      omega
    · rw [List.lookup_cons, beq_eq_false_iff_ne.mpr (Ne.symm here)] at held
      rw [if_neg here]
      simp only [List.flatMap_cons, List.length_append, inductionHypothesis held]
      omega

end LinkTable

namespace Tables

variable {tables : Tables} {topology : Topology} {kinds : List ResourceType} {name : String}

/-! ### What single changes leave behind -/

theorem after_bind {α β : Type} (tables : Tables) (first : Change α) (rest : α → Change β) :
    tables.after (first >>= rest) =
      onward (fun value next => next.after (rest value)) (tables.after first) :=
  run_bind first rest tables

/-- A type goes into the index and among the types. -/
def withType (tables : Tables) (kind : ResourceType) (attrs : List String) : Tables where
  types := tables.types.insert kind.text ⟨kind, attrs⟩
  links := tables.links
  index := tables.index.insert kind.name
    (((tables.index.get? kind.name).getD .empty).insert kind.space ())

/-- A link goes to the place that is reserved for it. -/
def withLink (tables : Tables) (source target : ResourceType) (mapping : Mapping) : Tables :=
  { tables with links := (tables.links.reserve source).put source target mapping }

theorem after_addType (tables : Tables) (kind : ResourceType) (attrs : List String) :
    tables.after (addType kind attrs) =
      if kind.space.isEmpty || kind.name.isEmpty then (.error (.emptyIdentity kind.text), tables)
      else if tables.contains kind then (.error (.repeatedType kind), tables)
      else (.ok (), tables.withType kind attrs.eraseDups) := by
  rw [addType]
  cases kind.space.isEmpty || kind.name.isEmpty with
  | true => rfl
  | false =>
    rw [if_neg Bool.false_ne_true]
    show tables.after (get >>= _) = _
    rw [after_bind]
    show Tables.after _ _ = _
    cases tables.contains kind with
    | true => rfl
    | false => rfl

theorem after_require (tables : Tables) (kind : ResourceType) : tables.after (require kind) =
    (if tables.contains kind then .ok () else .error (.unknownType kind), tables) := by
  rw [require, after_bind]
  show Tables.after _ _ = _
  cases tables.contains kind with
  | true => rfl
  | false => rfl

/-- A link that is refused as a repetition finds its place reserved already. -/
theorem after_addLink (tables : Tables) (source target : ResourceType) (mapping : Mapping) :
    tables.after (addLink source target mapping) =
      if !tables.contains source then (.error (.unknownType source), tables)
      else if !tables.contains target then (.error (.unknownType target), tables)
      else if ((tables.linksFrom source).lookup target).isSome then
        (.error (.repeatedLink source target), tables)
      else (.ok (), tables.withLink source target mapping) := by
  rw [addLink, after_bind, after_require]
  cases tables.contains source with
  | false => rfl
  | true =>
    rw [if_pos rfl, if_neg (by decide), onward_ok, after_bind, after_require]
    cases tables.contains target with
    | false => rfl
    | true =>
      rw [if_pos rfl, if_neg (by decide), onward_ok, after_bind]
      show Tables.after { tables with links := tables.links.reserve source } _ = _
      rw [after_bind]
      show Tables.after { tables with links := tables.links.reserve source } _ = _
      have same : linksFrom { tables with links := tables.links.reserve source } source =
          tables.linksFrom source := tables.links.linksFrom_reserve source source
      rw [same]
      cases linked : ((tables.linksFrom source).lookup target).isSome with
      | true =>
        have held : tables.links.linksFrom source ≠ [] := by
          intro none
          rw [linksFrom, none] at linked
          cases linked
        rw [LinkTable.reserve_of_linksFrom held]
        rfl
      | false => rfl

/-! ### Tables in step with a topology -/

/-- Tables answer every question as a topology does. Whether a type is there, its attributes and
the number of types are told by the types, a mapping by the links of a type. -/
structure Mirrors (tables : Tables) (topology : Topology) : Prop where
  types : tables.types = topology.types
  linksFrom : ∀ source, tables.linksFrom source =
    (topology.linksFrom source).map fun link => (link.target, link.mapping)
  linkCount : tables.linkCount = topology.links.length
  spacesOf : ∀ name, tables.spacesOf name = topology.spacesOf name

/-- The index has the names of types, and under each of them its namespaces. -/
structure Indexes (tables : Tables) (kinds : List ResourceType) : Prop where
  inhabited : ∀ {name spaces}, tables.index.get? name = some spaces → spaces.keys ≠ []
  listed : ∀ {space name}, (∃ spaces, tables.index.get? name = some spaces ∧ space ∈ spaces.keys) ↔
    ⟨space, name⟩ ∈ kinds

theorem Mirrors.contains (mirrors : tables.Mirrors topology) (kind : ResourceType) :
    tables.contains kind = topology.contains kind := by
  rw [Tables.contains, mirrors.types]
  rfl

theorem Mirrors.lookup (mirrors : tables.Mirrors topology) (source target : ResourceType) :
    (tables.linksFrom source).lookup target = topology.mapping? source target := by
  rw [mirrors.linksFrom, mapping?]
  induction topology.linksFrom source with
  | nil => rfl
  | cons link rest inductionHypothesis =>
    rw [List.map_cons, List.lookup_cons, List.find?_cons, inductionHypothesis]
    by_cases same : target = link.target
    · rw [beq_iff_eq.mpr same, beq_iff_eq.mpr same.symm]
      rfl
    · rw [beq_eq_false_iff_ne.mpr same, beq_eq_false_iff_ne.mpr (Ne.symm same)]

/-- A name is answered by the index as by the types that have it. -/
theorem Indexes.spacesOf_cases (indexes : tables.Indexes kinds) (name : String) :
    ((∀ kind ∈ kinds, kind.name ≠ name) ∧ tables.spacesOf name = .error (.unknownName name)) ∨
      ∃ spaces, spaces ≠ [] ∧ spaces.Pairwise (· < ·) ∧
        (∀ space, space ∈ spaces ↔ ⟨space, name⟩ ∈ kinds) ∧
        tables.spacesOf name = .ok spaces := by
  rw [spacesOf]
  cases found : tables.index.get? name with
  | none =>
    refine .inl ⟨fun kind member same => ?_, rfl⟩
    subst same
    obtain ⟨spaces, held, -⟩ := indexes.listed.mpr member
    cases found.symm.trans held
  | some spaces =>
    refine .inr ⟨_, indexes.inhabited found, spaces.keys_ascending, fun space => ?_, rfl⟩
    rw [← indexes.listed, found]
    simp only [Option.some.injEq, exists_eq_left']

/-- Where the index has the names of the types of a topology, both tell the same namespaces. -/
theorem Indexes.spacesOf_eq {held : List TopologyType} (files : topology.Files held)
    (indexes : tables.Indexes (held.map (·.kind))) (name : String) :
    tables.spacesOf name = topology.spacesOf name := by
  have among : ∀ space, space ∈ topology.spaces name ↔ ⟨space, name⟩ ∈ held.map (·.kind) := by
    intro space
    rw [mem_spaces, List.mem_map]
    simp only [files.mem_values_iff]
  rw [Topology.spacesOf]
  rcases indexes.spacesOf_cases name with ⟨none, told⟩ | ⟨spaces, some, ascending, listed, told⟩
  · have nothing : topology.spaces name = [] :=
      List.eq_nil_iff_forall_not_mem.mpr fun space member => none _ ((among space).mp member) rfl
    rw [told, nothing]
  · have same : topology.spaces name = spaces :=
      (Dict.keys_ascending _).eq_of_mem_iff ascending fun space =>
        (among space).trans (listed space).symm
    rw [told, same]
    cases spaces with
    | nil => exact absurd rfl some
    | cons first rest => rfl

/-- A new type brings its name into the index, or its namespace under that name. -/
theorem Indexes.withType (indexes : tables.Indexes kinds) (kind : ResourceType)
    (attrs : List String) : (tables.withType kind attrs).Indexes (kinds ++ [kind]) where
  inhabited {name spaces} found := by
    rw [Tables.withType, Dict.get?_insert] at found
    split at found
    · obtain rfl := Option.some.inj found
      exact List.ne_nil_of_mem (Dict.mem_keys_insert.mpr (.inl rfl))
    · exact indexes.inhabited found
  listed {space name} := by
    rw [Tables.withType, Dict.get?_insert, List.mem_append, List.mem_singleton, ← indexes.listed]
    by_cases here : name = kind.name
    · subst here
      have own : (⟨space, kind.name⟩ : ResourceType) = kind ↔ space = kind.space := by
        rw [ResourceType.mk.injEq, and_iff_left rfl]
      rw [if_pos rfl, own, or_comm]
      simp only [Option.some.injEq, exists_eq_left', Dict.mem_keys_insert]
      refine or_congr_right ?_
      cases tables.index.get? kind.name with
      | none => exact iff_of_false List.not_mem_nil nofun
      | some spaces => simp only [Option.getD_some, Option.some.injEq, exists_eq_left']
    · have other : (⟨space, name⟩ : ResourceType) ≠ kind := fun same => here (same ▸ rfl)
      rw [if_neg here, or_iff_left other]

theorem linksFrom_withLink (tables : Tables) (source target : ResourceType) (mapping : Mapping)
    (other : ResourceType) : (tables.withLink source target mapping).linksFrom other =
      tables.linksFrom other ++ if other = source then [(target, mapping)] else [] := by
  rw [linksFrom, withLink,
    LinkTable.linksFrom_put (tables.links.lookup_reserve_isSome source) target mapping other,
    LinkTable.linksFrom_reserve]
  rfl

theorem linkCount_withLink (tables : Tables) (source target : ResourceType) (mapping : Mapping) :
    (tables.withLink source target mapping).linkCount = tables.linkCount + 1 := by
  rw [linkCount, withLink,
    LinkTable.length_put (tables.links.lookup_reserve_isSome source) target mapping,
    LinkTable.flatMap_reserve]
  rfl

/-! ### All sequences of additions -/

/-- Makes an addition to tables. -/
def add : Addition → Change Unit
  | .type kind attrs => addType kind attrs
  | .link source target mapping => addLink source target mapping

/-- What additions leave behind, one after the other. -/
def ofAdditions (additions : List Addition) : Tables :=
  additions.foldl (fun tables addition => (tables.after (add addition)).2) empty

/-- Tables are in step with a topology in which types were registered. -/
structure InStep (tables : Tables) (history : History) : Prop where
  files : history.topology.Files history.registered
  indexes : tables.Indexes history.kinds
  types : tables.types = history.topology.types
  linksFrom : ∀ source, tables.linksFrom source =
    (history.topology.linksFrom source).map fun link => (link.target, link.mapping)
  linkCount : tables.linkCount = history.topology.links.length

theorem InStep.mirrors {history : History} (inStep : tables.InStep history) :
    tables.Mirrors history.topology where
  types := inStep.types
  linksFrom := inStep.linksFrom
  linkCount := inStep.linkCount
  spacesOf := inStep.indexes.spacesOf_eq inStep.files

theorem inStep_empty : empty.InStep ⟨[], .empty⟩ where
  files := files_empty
  indexes := ⟨nofun, ⟨nofun, nofun⟩⟩
  types := rfl
  linksFrom _ := rfl
  linkCount := rfl

/-- A type that is added to both keeps them in step. -/
theorem InStep.withType {history : History} (inStep : tables.InStep history) {kind : ResourceType}
    (new : history.topology.contains kind = false) (attrs : List String) :
    (tables.withType kind attrs).InStep ⟨history.registered ++ [⟨kind, attrs⟩],
      { history.topology with
        types := history.topology.types.insert kind.text ⟨kind, attrs⟩ }⟩ where
  files := inStep.files.insert new
  indexes := by
    rw [History.kinds, List.map_append]
    exact inStep.indexes.withType kind attrs
  types := by rw [Tables.withType, inStep.types]
  linksFrom := inStep.linksFrom
  linkCount := inStep.linkCount

/-- A link that is added to both keeps them in step. -/
theorem InStep.withLink {history : History} (inStep : tables.InStep history)
    (source target : ResourceType) (mapping : Mapping) :
    (tables.withLink source target mapping).InStep ⟨history.registered,
      { history.topology with
        links := history.topology.links ++ [⟨source, target, mapping⟩] }⟩ where
  files := inStep.files.withLinks _
  indexes := ⟨inStep.indexes.inhabited, inStep.indexes.listed⟩
  types := inStep.types
  linksFrom other := by
    rw [linksFrom_withLink, inStep.linksFrom, Topology.linksFrom, Topology.linksFrom,
      List.filter_append, List.map_append, List.filter_singleton]
    dsimp only
    by_cases same : other = source
    · rw [if_pos same, beq_iff_eq.mpr same.symm]
      rfl
    · rw [if_neg same, beq_eq_false_iff_ne.mpr (Ne.symm same)]
      rfl
  linkCount := by
    rw [linkCount_withLink, inStep.linkCount]
    exact (@List.length_append _ _ [_]).symm

/-- An addition is answered alike by tables and topology. One that is refused leaves the tables as
they were, any other keeps both in step. -/
theorem InStep.add_cases {history : History} (inStep : tables.InStep history)
    (addition : Addition) :
    (∃ error, tables.after (add addition) = (.error error, tables) ∧
        history.topology.add addition = .error error) ∨
      ∃ next topology, tables.after (add addition) = (.ok (), next) ∧
        history.topology.add addition = .ok topology ∧ next.InStep (history.add addition) := by
  have mirrors := inStep.mirrors
  cases addition with
  | type kind attrs =>
    rw [add, after_addType, mirrors.contains]
    rcases addType_cases history.topology kind attrs with
      ⟨empty, refused⟩ | ⟨spaced, named, known, refused⟩ | ⟨spaced, named, new, added⟩
    · rw [← String.isEmpty_iff, ← String.isEmpty_iff, ← Bool.or_eq_true] at empty
      exact .inl ⟨_, if_pos empty, refused⟩
    all_goals
      have full : ¬ (kind.space.isEmpty || kind.name.isEmpty) = true := by
        rw [Bool.or_eq_true, String.isEmpty_iff, String.isEmpty_iff, not_or]
        exact ⟨spaced, named⟩
      rw [if_neg full]
    · exact .inl ⟨_, if_pos known, refused⟩
    · refine .inr ⟨_, _, if_neg (Bool.eq_false_iff.mp new), added, ?_⟩
      simpa only [History.add, Topology.add, added] using inStep.withType new attrs.eraseDups
  | link source target mapping =>
    rw [add, after_addLink, mirrors.contains, mirrors.contains, mirrors.lookup]
    rcases addLink_cases history.topology source target mapping with ⟨unknown, refused⟩ |
      ⟨known, unknown, refused⟩ | ⟨known, knownToo, linked, refused⟩ |
      ⟨known, knownToo, unlinked, added⟩
    · rw [unknown]
      exact .inl ⟨_, rfl, refused⟩
    · rw [known, unknown]
      exact .inl ⟨_, rfl, refused⟩
    · rw [known, knownToo, if_neg (by decide), if_neg (by decide)]
      exact .inl ⟨_, if_pos (linked_iff_isSome.mp linked), refused⟩
    · rw [known, knownToo, if_neg (by decide), if_neg (by decide)]
      refine .inr ⟨_, _, if_neg fun linked => unlinked (linked_iff_isSome.mpr linked), added, ?_⟩
      simpa only [History.add, Topology.add, added] using inStep.withLink source target mapping

/-- Tables and topology are in step after any additions. -/
theorem inStep_ofAdditions (additions : List Addition) :
    (ofAdditions additions).InStep (History.ofAdditions additions) := by
  induction additions using List.reverseRecOn with
  | nil => exact inStep_empty
  | append_singleton earlier addition inductionHypothesis =>
    rw [ofAdditions, List.foldl_append, History.ofAdditions, List.foldl_append]
    show InStep (Tables.after _ _).2 (History.add _ _)
    rcases inductionHypothesis.add_cases addition with
      ⟨error, refused, same⟩ | ⟨next, topology, answered, -, inStep⟩
    · have unchanged : (History.ofAdditions earlier).add addition =
          History.ofAdditions earlier := by
        simp only [History.add, same]
      rw [← ofAdditions, ← History.ofAdditions, refused, unchanged]
      exact inductionHypothesis
    · rw [← ofAdditions, ← History.ofAdditions, answered]
      exact inStep

/-! ### What a bare name stands for -/

/-- A bare name stands for a type exactly where this is the only one of it. It is unknown exactly
where no type has it, and ambiguous between its namespaces, in order, where several have it. -/
structure Resolves (tables : Tables) (kinds : List ResourceType) (name : String) : Prop where
  single : ∀ kind, tables.resolve name = .ok kind ↔
    kinds.filter (fun other => other.name = name) = [kind]
  unknown : tables.resolve name = .error (.topology (.unknownName name)) ↔
    ∀ kind ∈ kinds, kind.name ≠ name
  ambiguous : ∀ spaces, tables.resolve name = .error (.ambiguousType name spaces) ↔
    1 < (kinds.filter fun other => other.name = name).length ∧ spaces.Pairwise (· < ·) ∧
      ∀ space, space ∈ spaces ↔ ⟨space, name⟩ ∈ kinds

/-- The types of a name are those of its namespaces. -/
theorem perm_spaces {spaces : List String} (distinct : kinds.Nodup)
    (ascending : spaces.Pairwise (· < ·))
    (listed : ∀ space, space ∈ spaces ↔ ⟨space, name⟩ ∈ kinds) :
    (kinds.filter fun kind => kind.name = name).Perm (spaces.map (⟨·, name⟩)) := by
  have apart : spaces.Nodup := ascending.imp fun less => less.ne
  have separate : Function.Injective fun space => (⟨space, name⟩ : ResourceType) :=
    fun _ _ same => (ResourceType.mk.inj same).1
  refine (List.perm_ext_iff_of_nodup (distinct.filter _) (apart.map separate)).mpr fun kind => ?_
  rw [List.mem_filter, decide_eq_true_eq, List.mem_map]
  constructor
  · rintro ⟨member, rfl⟩
    exact ⟨kind.space, (listed _).mpr member, rfl⟩
  · rintro ⟨space, member, rfl⟩
    exact ⟨(listed space).mp member, rfl⟩

/-- None, one or several types have a name, and this is what it is answered with. -/
theorem InStep.resolve_cases {history : History} (inStep : tables.InStep history)
    (named : name ≠ "") :
    (history.kinds.filter (fun kind => kind.name = name) = [] ∧
        tables.resolve name = .error (.topology (.unknownName name))) ∨
      (∃ kind, history.kinds.filter (fun kind => kind.name = name) = [kind] ∧
        tables.resolve name = .ok kind) ∨
      ∃ spaces, 1 < (history.kinds.filter fun kind => kind.name = name).length ∧
        spaces.Pairwise (· < ·) ∧ (∀ space, space ∈ spaces ↔ ⟨space, name⟩ ∈ history.kinds) ∧
        tables.resolve name = .error (.ambiguousType name spaces) := by
  have distinct : history.kinds.Nodup := by
    refine List.Nodup.of_map ResourceType.text ?_
    rw [History.kinds, List.map_map]
    exact inStep.files.distinct
  rw [resolve, if_neg fun empty => named (String.isEmpty_iff.mp empty)]
  rcases inStep.indexes.spacesOf_cases name with
    ⟨none, told⟩ | ⟨spaces, some, ascending, listed, told⟩
  · rw [told]
    refine .inl ⟨List.filter_eq_nil_iff.mpr fun kind member => ?_, rfl⟩
    rw [decide_eq_true_eq]
    exact none kind member
  · rw [told]
    have perm := perm_spaces distinct ascending listed
    match spaces, some with
    | [space], _ =>
      have known : tables.contains ⟨space, name⟩ = true := by
        rw [inStep.mirrors.contains, inStep.files.contains_iff]
        obtain ⟨type, member, same⟩ :=
          List.mem_map.mp ((listed space).mp (List.mem_singleton_self space))
        exact ⟨type, member, congrArg ResourceType.text same⟩
      exact .inr (.inl ⟨⟨space, name⟩, List.perm_singleton.mp perm, if_pos known⟩)
    | first :: second :: rest, _ =>
      refine .inr (.inr ⟨_, ?_, ascending, listed, rfl⟩)
      rw [perm.length_eq]
      exact Nat.succ_lt_succ (Nat.succ_pos _)

theorem InStep.resolves {history : History} (inStep : tables.InStep history) (named : name ≠ "") :
    tables.Resolves history.kinds name := by
  have unknown_iff : (∀ kind ∈ history.kinds, kind.name ≠ name) ↔
      history.kinds.filter (fun kind => kind.name = name) = [] := by
    simp only [List.filter_eq_nil_iff, decide_eq_true_eq, ne_eq]
  rcases inStep.resolve_cases named with
    ⟨none, told⟩ | ⟨kind, one, told⟩ | ⟨spaces, several, ascending, listed, told⟩
  · refine ⟨fun kind => ?_, ?_, fun spaces => ?_⟩
    · rw [told, none]
      exact iff_of_false nofun nofun
    · rw [unknown_iff]
      exact iff_of_true told none
    · rw [told, none]
      exact iff_of_false nofun nofun
  · refine ⟨fun other => ?_, ?_, fun spaces => ?_⟩
    · rw [told, one, Except.ok.injEq, List.cons.injEq, and_iff_left rfl]
    · rw [told, unknown_iff, one]
      exact iff_of_false nofun nofun
    · rw [told, one]
      exact iff_of_false nofun fun more => Nat.lt_irrefl _ more.1
  · refine ⟨fun kind => ?_, ?_, fun others => ?_⟩
    · rw [told]
      refine iff_of_false nofun fun one => ?_
      rw [one] at several
      exact Nat.lt_irrefl _ several
    · rw [told, unknown_iff]
      refine iff_of_false nofun fun none => ?_
      rw [none] at several
      exact Nat.not_lt_zero _ several
    · rw [told]
      constructor
      · rintro ⟨⟩
        exact ⟨several, ascending, listed⟩
      · rintro ⟨-, ascendingToo, listedToo⟩
        rw [ascending.eq_of_mem_iff ascendingToo fun space =>
          (listed space).trans (listedToo space).symm]

/-- A bare name stands for the same type in tables as in the topology that they mirror. -/
theorem Mirrors.resolve (mirrors : tables.Mirrors topology) (name : String) :
    tables.resolve name = TypeMention.resolve (.bare name) topology := by
  rw [Tables.resolve, TypeMention.resolve, TypeMention.candidate, mirrors.spacesOf]
  split
  · rfl
  · cases topology.spacesOf name with
    | error error => rfl
    | ok spaces =>
      rcases spaces with _ | ⟨space, _ | ⟨second, rest⟩⟩
      · rfl
      · dsimp only
        rw [mirrors.contains]
        rfl
      · rfl

/-- The index of names stays in step with the types. After any additions, refused ones among them,
the tables answer every question as the topology does, and so does a bare name: it stands for the
only registered type that has it, is unknown where none has it, and ambiguous between the sorted
namespaces of all that have it. One more addition is answered alike by both, and if it is refused,
the tables are left as they were. -/
theorem bareNames_resolve (additions : List Addition) :
    (ofAdditions additions).Mirrors (History.ofAdditions additions).topology ∧
    (∀ name, name ≠ "" →
      (ofAdditions additions).Resolves (History.ofAdditions additions).kinds name ∧
      (ofAdditions additions).resolve name =
        TypeMention.resolve (.bare name) (History.ofAdditions additions).topology) ∧
    ∀ addition,
      (∃ error, (ofAdditions additions).after (add addition) =
          (.error error, ofAdditions additions) ∧
        (History.ofAdditions additions).topology.add addition = .error error) ∨
      ∃ next topology, (ofAdditions additions).after (add addition) = (.ok (), next) ∧
        (History.ofAdditions additions).topology.add addition = .ok topology := by
  have inStep := inStep_ofAdditions additions
  refine ⟨inStep.mirrors, fun name named => ⟨inStep.resolves named, inStep.mirrors.resolve name⟩,
    fun addition => (inStep.add_cases addition).imp_right ?_⟩
  rintro ⟨next, topology, answered, added, -⟩
  exact ⟨next, topology, answered, added⟩

/-- Two namespaces have a type of one name. One type is given twice and one link is given twice. -/
def sharedName : List Addition :=
  [.type ⟨"b", "t"⟩ [], .type ⟨"a", "t"⟩ ["id"], .type ⟨"a", "u"⟩ ["id"], .type ⟨"a", "t"⟩ [],
    .link ⟨"a", "u"⟩ ⟨"a", "t"⟩ ⟨"id", "id"⟩, .link ⟨"a", "u"⟩ ⟨"a", "t"⟩ ⟨"id", "x"⟩]

theorem bareNames_resolve_sharedName :
    (History.ofAdditions sharedName).kinds = [⟨"b", "t"⟩, ⟨"a", "t"⟩, ⟨"a", "u"⟩] ∧
    (ofAdditions sharedName).resolve "t" = .error (.ambiguousType "t" ["a", "b"]) ∧
    (ofAdditions sharedName).resolve "u" = .ok ⟨"a", "u"⟩ ∧
    (ofAdditions sharedName).resolve "v" = .error (.topology (.unknownName "v")) ∧
    ((ofAdditions sharedName).after (add (.link ⟨"a", "u"⟩ ⟨"a", "t"⟩ ⟨"id", "x"⟩))).2 =
      ofAdditions sharedName := by
  have kinds : (History.ofAdditions sharedName).kinds =
      [⟨"b", "t"⟩, ⟨"a", "t"⟩, ⟨"a", "u"⟩] := by decide
  obtain ⟨-, resolves, further⟩ := bareNames_resolve sharedName
  rw [kinds] at resolves
  refine ⟨kinds, ?_, ?_, ?_, ?_⟩
  · refine ((resolves "t" (by decide)).1.ambiguous _).mpr ⟨by decide, by decide, fun space => ?_⟩
    simp [or_comm]
  · exact ((resolves "u" (by decide)).1.single _).mpr (by decide)
  · exact (resolves "v" (by decide)).1.unknown.mpr (by decide)
  · rcases further (.link ⟨"a", "u"⟩ ⟨"a", "t"⟩ ⟨"id", "x"⟩) with
      ⟨error, refused, -⟩ | ⟨next, topology, -, added⟩
    · rw [refused]
    · have repeated : (History.ofAdditions sharedName).topology.add
          (.link ⟨"a", "u"⟩ ⟨"a", "t"⟩ ⟨"id", "x"⟩) =
            .error (.repeatedLink ⟨"a", "u"⟩ ⟨"a", "t"⟩) := by decide
      cases repeated.symm.trans added

end Tables

end PathQuery.Topology
