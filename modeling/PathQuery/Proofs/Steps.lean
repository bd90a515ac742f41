/-
This file says how steps that may fail are taken one after the other: what it means for steps in a
row to succeed or to fail, where a state goes through them, and for one step to be taken for every
element of a list.
-/

import Mathlib.Data.List.Forall2

namespace PathQuery

/-! ### Steps in a row -/

theorem bind_eq_ok {ε α β : Type} {first : Except ε α} {next : α → Except ε β} {result : β} :
    (first >>= next) = .ok result ↔ ∃ value, first = .ok value ∧ next value = .ok result := by
  cases first with
  | error error =>
    constructor
    · intro same
      cases same
    · rintro ⟨_, same, -⟩
      cases same
  | ok value =>
    refine ⟨fun ended => ⟨value, rfl, ended⟩, ?_⟩
    rintro ⟨other, same, ended⟩
    cases same
    exact ended

theorem bind_eq_error {ε α β : Type} {first : Except ε α} {next : α → Except ε β} {error : ε} :
    (first >>= next) = .error error ↔
      first = .error error ∨ ∃ value, first = .ok value ∧ next value = .error error := by
  cases first with
  | error other =>
    constructor
    · intro same
      cases same
      exact .inl rfl
    · rintro (same | ⟨_, same, -⟩)
      · cases same
        rfl
      · cases same
  | ok value =>
    constructor
    · exact fun ended => .inr ⟨value, rfl, ended⟩
    · rintro (same | ⟨other, same, ended⟩)
      · cases same
      · cases same
        exact ended

theorem map_eq_ok {ε α β : Type} {change : α → β} {outcome : Except ε α} {result : β}
    (changed : outcome.map change = .ok result) : ∃ value, outcome = .ok value ∧
      change value = result := by
  cases outcome with
  | error error => cases changed
  | ok value => exact ⟨value, rfl, Except.ok.inj changed⟩

theorem ok_of_toOption {ε α : Type} {outcome : Except ε α} {value : α}
    (found : outcome.toOption = some value) : outcome = .ok value := by
  cases outcome with
  | error error => cases found
  | ok other =>
    cases found
    rfl

/-- Goes on from an answer and the state that came with it. An error is the answer to all that
follows, and leaves the state as it is. -/
def onward {ε σ α β : Type} (rest : α → σ → Except ε β × σ) :
    Except ε α × σ → Except ε β × σ
  | (.ok value, state) => rest value state
  | (.error error, state) => (.error error, state)

@[simp] theorem onward_ok {ε σ α β : Type} (rest : α → σ → Except ε β × σ) (value : α) (state : σ) :
    onward rest (.ok value, state) = rest value state := rfl

/-- Of two changes in a row the second one starts from what the first one leaves behind, unless that
is refused. -/
theorem run_bind {ε σ α β : Type} (first : ExceptT ε (StateM σ) α)
    (rest : α → ExceptT ε (StateM σ) β) (state : σ) :
    (first >>= rest).run.run state =
      onward (fun value next => (rest value).run.run next) (first.run.run state) := by
  rw [ExceptT.run_bind, StateT.run_bind]
  change (match first.run.run state with | (answer, next) => _) = _
  rcases first.run.run state with ⟨_ | _, next⟩
  · rfl
  · rfl

/-! ### A step for every element -/

/-- The results of a step for every element of a list are those of the steps. -/
theorem mapM_eq_ok_iff {ε α β : Type} {step : α → Except ε β} {list : List α} {results : List β} :
    list.mapM step = .ok results ↔
      List.Forall₂ (fun element result => step element = .ok result) list results := by
  induction list generalizing results with
  | nil =>
    rw [List.forall₂_nil_left_iff]
    exact ⟨fun done => (Except.ok.inj done).symm, fun none => none ▸ rfl⟩
  | cons element rest inductionHypothesis =>
    rw [List.mapM_cons, List.forall₂_cons_left_iff, bind_eq_ok]
    constructor
    · rintro ⟨first, begun, done⟩
      obtain ⟨others, continued, same⟩ := bind_eq_ok.mp done
      cases same
      exact ⟨first, others, begun, inductionHypothesis.mp continued, rfl⟩
    · rintro ⟨first, others, begun, continued, rfl⟩
      exact ⟨first, begun, bind_eq_ok.mpr ⟨others, inductionHypothesis.mpr continued, rfl⟩⟩

/-- There are matches for a list exactly where there is one for each of its elements. -/
theorem exists_forall₂_iff {α β : Type} {matching : α → β → Prop} {first : List α} :
    (∃ second, List.Forall₂ matching first second) ↔
      ∀ element ∈ first, ∃ matched, matching element matched := by
  induction first with
  | nil => exact ⟨fun _ _ none => absurd none List.not_mem_nil, fun _ => ⟨[], .nil⟩⟩
  | cons element rest inductionHypothesis =>
    rw [List.forall_mem_cons, ← inductionHypothesis]
    constructor
    · rintro ⟨second, all⟩
      obtain ⟨matched, others, one, more, -⟩ := List.forall₂_cons_left_iff.mp all
      exact ⟨⟨matched, one⟩, others, more⟩
    · rintro ⟨⟨matched, one⟩, others, more⟩
      exact ⟨matched :: others, .cons one more⟩

/-- A step for every element of a list succeeds exactly where it does for each of them. -/
theorem mapM_ok_iff {ε α β : Type} {step : α → Except ε β} {list : List α} :
    (∃ results, list.mapM step = .ok results) ↔
      ∀ element ∈ list, ∃ result, step element = .ok result := by
  simp only [mapM_eq_ok_iff, exists_forall₂_iff]

/-- Every element of a list that matches another has its match there. -/
theorem exists_of_forall₂_of_mem {α β : Type} {matching : α → β → Prop} {first : List α}
    {second : List β} (all : List.Forall₂ matching first second) {element : β}
    (member : element ∈ second) : ∃ matched ∈ first, matching matched element := by
  induction all with
  | nil => exact absurd member List.not_mem_nil
  | cons matched _ inductionHypothesis =>
    rcases List.mem_cons.mp member with rfl | later
    · exact ⟨_, List.mem_cons_self, matched⟩
    · obtain ⟨other, given, matched⟩ := inductionHypothesis later
      exact ⟨other, List.mem_cons_of_mem _ given, matched⟩

/-- A step for every element of a list ends with the error of one of them, where one fails. -/
theorem mapM_outcome {ε α β : Type} (step : α → Except ε β) (list : List α) :
    (∃ results, list.mapM step = .ok results) ∨
      ∃ element ∈ list, ∃ error, step element = .error error ∧ list.mapM step = .error error := by
  induction list with
  | nil => exact .inl ⟨[], rfl⟩
  | cons element rest inductionHypothesis =>
    rw [List.mapM_cons]
    cases begun : step element with
    | error error => exact .inr ⟨element, List.mem_cons_self, error, begun, rfl⟩
    | ok result =>
      rcases inductionHypothesis with ⟨results, done⟩ | ⟨other, among, error, failed, stopped⟩
      · exact .inl ⟨result :: results, bind_eq_ok.mpr ⟨result, rfl, bind_eq_ok.mpr
          ⟨results, done, rfl⟩⟩⟩
      · exact .inr ⟨other, List.mem_cons_of_mem _ among, error, failed, bind_eq_error.mpr
          (.inr ⟨result, rfl, bind_eq_error.mpr (.inl stopped)⟩)⟩

/-- A list is gone through to its end, or up to an element that is refused after those before it. -/
theorem foldlM_outcome {ε α β : Type} {step : β → α → Except ε β} {holds : List α → β → Prop}
    {refused : List α → α → ε → Prop}
    (one : ∀ earlier state element, holds earlier state →
      (∃ next, step state element = .ok next ∧ holds (earlier ++ [element]) next) ∨
        ∃ error, refused earlier element error ∧ step state element = .error error)
    (list : List α) : ∀ {earlier : List α} {state : β}, holds earlier state →
      (∃ last, list.foldlM step state = .ok last ∧ holds (earlier ++ list) last) ∨
        ∃ before element after error reached, list = before ++ element :: after ∧
          holds (earlier ++ before) reached ∧ refused (earlier ++ before) element error ∧
          list.foldlM step state = .error error := by
  induction list with
  | nil =>
    intro earlier state held
    exact .inl ⟨state, rfl, by rwa [List.append_nil]⟩
  | cons element rest inductionHypothesis =>
    intro earlier state held
    rw [List.foldlM_cons]
    rcases one earlier state element held with ⟨next, taken, kept⟩ | ⟨error, refusal, stopped⟩
    · rw [taken]
      rcases inductionHypothesis kept with
        ⟨last, done, all⟩ | ⟨before, other, after, error, reached, rfl, some, refusal, stopped⟩
      · exact .inl ⟨last, done, by rwa [List.append_assoc] at all⟩
      · rw [List.append_assoc] at some refusal
        exact .inr ⟨element :: before, other, after, error, reached, rfl, some, refusal, stopped⟩
    · rw [stopped]
      exact .inr ⟨[], element, rest, error, state, rfl, by rwa [List.append_nil],
        by rwa [List.append_nil], rfl⟩

end PathQuery
