/-
This file defines dictionaries: values under names, kept in the order of the
names, each name at most once. Two dictionaries that give the same value to every
name are the same dictionary.
-/

namespace PathQuery

/-- Values under names, in strictly ascending order of the names. -/
structure Dict (α : Type) where
  entries : List (String × α)
  ascending : entries.Pairwise fun first second => first.1 < second.1

namespace Dict

variable {α : Type}

instance [DecidableEq α] : DecidableEq (Dict α) := fun first second =>
  if same : first.entries = second.entries then
    isTrue (by cases first; cases second; cases same; rfl)
  else isFalse fun equal => same (congrArg entries equal)

/-- The dictionary without entries. -/
def empty : Dict α := ⟨[], .nil⟩

/-- The names of a dictionary, in ascending order. -/
def keys (dict : Dict α) : List String := dict.entries.map (·.1)

/-- The values of a dictionary, in the order of their names. -/
def values (dict : Dict α) : List α := dict.entries.map (·.2)

/-- The number of entries. -/
def size (dict : Dict α) : Nat := dict.entries.length

/-- The value under a name. -/
def get? (dict : Dict α) (name : String) : Option α := dict.entries.lookup name

/-- Whether there is a value under a name. -/
def contains (dict : Dict α) (name : String) : Bool := (dict.get? name).isSome

/-! ### Giving a value to a name -/

/-- Puts an entry in its place among ascending entries; it replaces one of the same name. -/
def insertEntry (name : String) (value : α) : List (String × α) → List (String × α)
  | [] => [(name, value)]
  | entry :: rest =>
    if name < entry.1 then (name, value) :: entry :: rest
    else if entry.1 < name then entry :: insertEntry name value rest
    else (name, value) :: rest

/-- The names after an insertion are the new one and those from before. -/
theorem mem_insertEntry {name : String} {value : α} {entries : List (String × α)}
    {entry : String × α} (member : entry ∈ insertEntry name value entries) :
    entry.1 = name ∨ entry ∈ entries := by
  induction entries with
  | nil => simp_all [insertEntry]
  | cons first rest inductionHypothesis =>
    unfold insertEntry at member
    split at member
    · rcases List.mem_cons.mp member with rfl | older
      · exact .inl rfl
      · exact .inr older
    · split at member
      · rcases List.mem_cons.mp member with rfl | later
        · exact .inr List.mem_cons_self
        · exact (inductionHypothesis later).imp id (List.mem_cons_of_mem _)
      · rcases List.mem_cons.mp member with rfl | older
        · exact .inl rfl
        · exact .inr (List.mem_cons_of_mem _ older)

/-- An insertion keeps the names in strictly ascending order. -/
theorem ascending_insertEntry {name : String} {value : α} {entries : List (String × α)}
    (ascending : entries.Pairwise fun first second => first.1 < second.1) :
    (insertEntry name value entries).Pairwise fun first second => first.1 < second.1 := by
  induction entries with
  | nil => simp [insertEntry]
  | cons first rest inductionHypothesis =>
    have below := (List.pairwise_cons.mp ascending).1
    have tail := (List.pairwise_cons.mp ascending).2
    unfold insertEntry
    split
    · rename_i smaller
      refine List.pairwise_cons.mpr ⟨fun entry member => ?_, ascending⟩
      rcases List.mem_cons.mp member with rfl | later
      · exact smaller
      · exact String.lt_trans smaller (below entry later)
    · split
      · rename_i larger
        refine List.pairwise_cons.mpr ⟨fun entry member => ?_, inductionHypothesis tail⟩
        rcases mem_insertEntry member with same | later
        · exact same ▸ larger
        · exact below entry later
      · rename_i notSmaller notLarger
        have same : name = first.1 :=
          String.le_antisymm (String.not_lt.mp notLarger) (String.not_lt.mp notSmaller)
        refine List.pairwise_cons.mpr ⟨fun entry member => ?_, tail⟩
        exact same ▸ below entry member

/-- Gives a value to a name, in place of the one it had. -/
def insert (dict : Dict α) (name : String) (value : α) : Dict α :=
  ⟨insertEntry name value dict.entries, ascending_insertEntry dict.ascending⟩

/-- The dictionary that a list of pairs gives, from first to last: of two values for one name the
later one stays. -/
def ofPairs (pairs : List (String × α)) : Dict α :=
  pairs.foldl (fun dict pair => dict.insert pair.1 pair.2) empty

/-! ### The values after an insertion -/

/-- The value of a name in a list of entries is that of the first entry, if it has the name. -/
theorem lookup_cons (name key : String) (value : α) (rest : List (String × α)) :
    ((key, value) :: rest).lookup name = if name = key then some value else rest.lookup name := by
  by_cases same : name = key
  · simp [same]
  · simp [List.lookup_cons, beq_eq_false_iff_ne.mpr same, same]

/-- Changing the values of entries changes the value of every name. -/
theorem lookup_map {β : Type} (change : α → β) (entries : List (String × α)) (name : String) :
    (entries.map fun entry => (entry.1, change entry.2)).lookup name =
      (entries.lookup name).map change := by
  induction entries with
  | nil => rfl
  | cons entry rest inductionHypothesis =>
    rw [List.map_cons, lookup_cons, lookup_cons, inductionHypothesis]
    split <;> rfl

/-- Among entries whose names all follow a name, that name has no value. -/
theorem lookup_eq_none_of_below {name : String} {entries : List (String × α)}
    (below : ∀ entry ∈ entries, name < entry.1) : entries.lookup name = none := by
  induction entries with
  | nil => rfl
  | cons first rest inductionHypothesis =>
    obtain ⟨key, value⟩ := first
    have less : name < key := below (key, value) List.mem_cons_self
    have different : name ≠ key := fun same => String.lt_irrefl key (same ▸ less)
    rw [lookup_cons, if_neg different]
    exact inductionHypothesis fun entry member => below entry (List.mem_cons_of_mem _ member)

/-- An insertion among entries gives the value to the name and leaves every other name alone. -/
theorem lookup_insertEntry (name other : String) (value : α) (entries : List (String × α)) :
    (insertEntry name value entries).lookup other =
      if other = name then some value else entries.lookup other := by
  induction entries with
  | nil => rw [insertEntry, lookup_cons]
  | cons first rest inductionHypothesis =>
    obtain ⟨key, held⟩ := first
    unfold insertEntry
    split
    · rw [lookup_cons]
    · split
      · rename_i larger
        have different : key ≠ name := fun same => String.lt_irrefl key (same ▸ larger)
        rw [lookup_cons, lookup_cons, inductionHypothesis]
        by_cases here : other = key
        · rw [if_pos here, if_pos here, if_neg (here ▸ different)]
        · rw [if_neg here, if_neg here]
      · rename_i notSmaller notLarger
        have same : name = key :=
          String.le_antisymm (String.not_lt.mp notLarger) (String.not_lt.mp notSmaller)
        rw [lookup_cons, lookup_cons, same]
        by_cases here : other = key
        · rw [if_pos here, if_pos here]
        · rw [if_neg here, if_neg here, if_neg here]

/-- The empty dictionary gives no value to any name. -/
@[simp] theorem get?_empty (name : String) : (empty : Dict α).get? name = none := rfl

/-- After an insertion the name has the value, and every other name has what it had. -/
@[simp] theorem get?_insert (dict : Dict α) (name other : String) (value : α) :
    (dict.insert name value).get? other = if other = name then some value else dict.get? other :=
  lookup_insertEntry name other value dict.entries

/-! ### A dictionary is the values it gives -/

/-- Ascending entries that give the same value to every name are the same entries. -/
theorem entries_ext {first second : List (String × α)}
    (firstAscending : first.Pairwise fun one other => one.1 < other.1)
    (secondAscending : second.Pairwise fun one other => one.1 < other.1)
    (same : ∀ name, first.lookup name = second.lookup name) : first = second := by
  induction first generalizing second with
  | nil =>
    cases second with
    | nil => rfl
    | cons entry rest =>
      have found := same entry.1
      rw [lookup_cons entry.1 entry.1, if_pos rfl] at found
      exact nomatch found
  | cons entry rest inductionHypothesis =>
    obtain ⟨key, value⟩ := entry
    cases second with
    | nil =>
      have found := same key
      rw [lookup_cons, if_pos rfl] at found
      exact nomatch found
    | cons other others =>
      obtain ⟨otherKey, otherValue⟩ := other
      have below := (List.pairwise_cons.mp firstAscending).1
      have otherBelow := (List.pairwise_cons.mp secondAscending).1
      have notAbove : ¬ otherKey < key := fun less => by
        have absent : ((key, value) :: rest).lookup otherKey = none := by
          refine lookup_eq_none_of_below fun entry member => ?_
          rcases List.mem_cons.mp member with rfl | later
          · exact less
          · exact String.lt_trans less (below entry later)
        have found := same otherKey
        rw [absent, lookup_cons, if_pos rfl] at found
        exact nomatch found
      have notBelow : ¬ key < otherKey := fun less => by
        have absent : ((otherKey, otherValue) :: others).lookup key = none := by
          refine lookup_eq_none_of_below fun entry member => ?_
          rcases List.mem_cons.mp member with rfl | later
          · exact less
          · exact String.lt_trans less (otherBelow entry later)
        have found := same key
        rw [absent, lookup_cons, if_pos rfl] at found
        exact nomatch found
      have equalKeys : key = otherKey :=
        String.le_antisymm (String.not_lt.mp notAbove) (String.not_lt.mp notBelow)
      subst equalKeys
      have found := same key
      rw [lookup_cons, lookup_cons, if_pos rfl, if_pos rfl] at found
      cases found
      congr 1
      refine inductionHypothesis (List.pairwise_cons.mp firstAscending).2
        (List.pairwise_cons.mp secondAscending).2 fun name => ?_
      by_cases here : name = key
      · rw [here, lookup_eq_none_of_below below, lookup_eq_none_of_below otherBelow]
      · have later := same name
        rwa [lookup_cons, lookup_cons, if_neg here, if_neg here] at later

/-- Two dictionaries that give the same value to every name are equal. -/
theorem ext_get? {first second : Dict α} (same : ∀ name, first.get? name = second.get? name) :
    first = second := by
  obtain ⟨entries, ascending⟩ := first
  obtain ⟨others, otherAscending⟩ := second
  have equal : entries = others := entries_ext ascending otherAscending same
  subst equal
  rfl

end Dict

/-- A set of names: the dictionary that gives nothing but presence. -/
abbrev NameSet := Dict Unit

namespace NameSet

/-- The set of the names in a list. -/
def ofList (names : List String) : NameSet :=
  Dict.ofPairs (names.map fun name => (name, ()))

end NameSet

end PathQuery
