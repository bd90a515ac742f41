/-
This file defines the runs of a plan by the order in which tasks are completed, and compares runs of
two plans in the same order. Such an order names the outstanding task to complete next by its
position, so it makes sense for tasks of any identity. Every run has an order, and first in, first
out always names the task in front. Where matching tasks spawn matching tasks, two runs in the same
order complete matching tasks, step by step.
-/

import Mathlib.Data.List.Forall2
import Mathlib.Data.Option.Basic
import PathQuery.Proofs.Histories

namespace PathQuery

namespace Run

/-- A run under way: the tasks that are outstanding and those that are done, in order. -/
structure Progress where
  outstanding : List Task
  done : List Task

/-- Completes the outstanding task at a position, if there is one. -/
def Progress.advance (plan : Plan) (progress : Progress) (position : Nat) : Option Progress :=
  (progress.outstanding[position]?).map fun task =>
    ⟨progress.outstanding.eraseIdx position ++ task.further plan, progress.done ++ [task]⟩

end Run

namespace Plan

open Run

/-- The tasks of a run that completes the outstanding tasks in an order. The order has to be one
that leads from the root task to where no task is outstanding. -/
def tasksIn (plan : Plan) (order : List Nat) : Option (List Task) :=
  match plan.root with
  | .error _ => none
  | .ok root =>
    match order.foldlM (Progress.advance plan) ⟨[Task.ofRoot root], []⟩ with
    | some ⟨[], done⟩ => some done
    | _ => none

/-- The result of a run that completes the outstanding tasks in an order. -/
def runIn (plan : Plan) (order : List Nat) : Option Result :=
  (plan.tasksIn order).map fun done => Result.ofGroups (done.map (Task.group plan))

end Plan

namespace Run

variable {plan : Plan} {root : Plan.Node} {machine : Machine} {size : Nat}

/-- Completing a task takes it out of those that are outstanding, and adds its further tasks there
and itself to those that are done. -/
theorem advance_eq_some_iff {progress next : Progress} {position : Nat} :
    progress.advance plan position = some next ↔
      ∃ before task after, progress.outstanding = before ++ task :: after ∧
        before.length = position ∧
        next = ⟨before ++ after ++ task.further plan, progress.done ++ [task]⟩ := by
  rw [Progress.advance, Option.map_eq_some_iff]
  constructor
  · rintro ⟨task, found, rfl⟩
    obtain ⟨bound, rfl⟩ := List.getElem?_eq_some_iff.mp found
    refine ⟨progress.outstanding.take position, progress.outstanding[position],
      progress.outstanding.drop (position + 1), ?_, List.length_take_of_le (Nat.le_of_lt bound), ?_⟩
    · rw [← List.drop_eq_getElem_cons bound, List.take_append_drop]
    · rw [List.eraseIdx_eq_take_drop_succ]
  · rintro ⟨before, task, after, split, rfl, rfl⟩
    refine ⟨task, ?_, ?_⟩
    · rw [split, List.getElem?_append_right (Nat.le_refl _), Nat.sub_self, List.getElem?_cons_zero]
    · rw [split, List.eraseIdx_append_of_length_le (Nat.le_refl _), Nat.sub_self,
        List.eraseIdx_cons_zero]

/-! ### Every run has an order -/

/-- Completing tasks in an order goes on with a history. -/
theorem history_of_foldlM {order : List Nat} : ∀ {progress last : Progress},
    History plan root progress.outstanding progress.done →
    order.foldlM (Progress.advance plan) progress = some last →
    History plan root last.outstanding last.done := by
  induction order with
  | nil =>
    rintro progress last history ⟨⟩
    exact history
  | cons position order inductionHypothesis =>
    intro progress last history folded
    rw [List.foldlM_cons, Option.bind_eq_bind, Option.bind_eq_some_iff] at folded
    obtain ⟨next, advanced, folded⟩ := folded
    obtain ⟨before, task, after, split, -, rfl⟩ := advance_eq_some_iff.mp advanced
    rw [split] at history
    exact inductionHypothesis (.step history) folded

theorem exists_order_of_history {outstanding done : List Task}
    (history : History plan root outstanding done) :
    ∃ order : List Nat, order.foldlM (Progress.advance plan) ⟨[Task.ofRoot root], []⟩ =
      some ⟨outstanding, done⟩ := by
  induction history with
  | start => exact ⟨[], rfl⟩
  | @step before after done task history inductionHypothesis =>
    obtain ⟨order, folded⟩ := inductionHypothesis
    have advanced : Progress.advance plan ⟨before ++ task :: after, done⟩ before.length =
        some ⟨before ++ after ++ task.further plan, done ++ [task]⟩ :=
      advance_eq_some_iff.mpr ⟨before, task, after, rfl, rfl, rfl⟩
    refine ⟨order ++ [before.length], ?_⟩
    rw [List.foldlM_append, folded, Option.bind_eq_bind, Option.bind_some, List.foldlM_cons,
      advanced]
    rfl

theorem tasksIn_eq_some_iff {order : List Nat} {done : List Task} :
    plan.tasksIn order = some done ↔ ∃ root, plan.root = .ok root ∧
      order.foldlM (Progress.advance plan) ⟨[Task.ofRoot root], []⟩ = some ⟨[], done⟩ := by
  rw [Plan.tasksIn]
  cases plan.root with
  | error error =>
    constructor
    · exact nofun
    · rintro ⟨_, same, -⟩
      cases same
  | ok root =>
    simp only [Except.ok.injEq, exists_eq_left']
    split
    · next found => rw [found, Option.some.injEq, Option.some.injEq, Progress.mk.injEq]; simp
    · next other =>
      constructor
      · exact nofun
      · exact fun found => absurd found (other _)

/-- A result is that of a run exactly where a run in some order has it. -/
theorem completes_iff_runIn {result : Result} :
    Completes plan result ↔ ∃ order, plan.runIn order = some result := by
  constructor
  · intro completes
    obtain ⟨root, done, set, history, rfl⟩ := history_of_completes completes
    obtain ⟨order, folded⟩ := exists_order_of_history history
    refine ⟨order, ?_⟩
    rw [Plan.runIn, tasksIn_eq_some_iff.mpr ⟨root, set, folded⟩, Option.map_some]
  · rintro ⟨order, ran⟩
    obtain ⟨done, completed, rfl⟩ := Option.map_eq_some_iff.mp ran
    obtain ⟨root, set, folded⟩ := tasksIn_eq_some_iff.mp completed
    exact ⟨root, set, steps_of_history (history_of_foldlM .start folded)⟩

/-! ### First in, first out -/

/-- Tasks in front are completed one after the other. -/
theorem foldlM_front (plan : Plan) (tasks : List Task) : ∀ behind done : List Task,
    (List.replicate tasks.length 0).foldlM (Progress.advance plan) ⟨tasks ++ behind, done⟩ =
      some ⟨behind ++ tasks.flatMap (Task.further plan), done ++ tasks⟩ := by
  induction tasks with
  | nil => intro behind done; simp
  | cons task rest inductionHypothesis =>
    intro behind done
    rw [List.length_cons, List.replicate_succ, List.foldlM_cons]
    have advanced : Progress.advance plan ⟨task :: rest ++ behind, done⟩ 0 =
        some ⟨rest ++ (behind ++ task.further plan), done ++ [task]⟩ :=
      advance_eq_some_iff.mpr ⟨[], task, rest ++ behind, rfl, rfl, by simp⟩
    rw [advanced, Option.bind_eq_bind, Option.bind_some, inductionHypothesis]
    simp

/-- Level after level, tasks are completed first in, first out. -/
theorem foldlM_levels (formed : plan.WellFormed) (levels : Nat) : ∀ tasks done : List Task,
    Enough plan levels tasks → ∃ count,
      (List.replicate count 0).foldlM (Progress.advance plan) ⟨tasks, done⟩ =
        some ⟨[], done ++ plan.tasksOfLevels levels tasks⟩ := by
  induction levels with
  | zero =>
    intro tasks done enough
    rw [enough.eq_nil formed, Plan.tasksOfLevels_nil, List.append_nil]
    exact ⟨0, rfl⟩
  | succ levels inductionHypothesis =>
    intro tasks done enough
    obtain ⟨count, folded⟩ := inductionHypothesis (tasks.flatMap (Task.further plan))
      (done ++ tasks) enough.further
    have level := foldlM_front plan tasks [] done
    rw [List.append_nil, List.nil_append] at level
    refine ⟨tasks.length + count, ?_⟩
    rw [List.replicate_add, List.foldlM_append, level, Option.bind_eq_bind, Option.bind_some,
      folded, Plan.tasksOfLevels, List.append_assoc]

/-- Running a plan first in, first out completes the task in front again and again. -/
theorem runIn_of_run (formed : plan.WellFormed) {result : Result}
    (ran : plan.run machine size = .ok result) :
    ∃ count, plan.runIn (List.replicate count 0) = some result := by
  obtain ⟨root, set, -, rfl⟩ := run_eq_ok_iff.mp ran
  obtain ⟨count, folded⟩ :=
    foldlM_levels formed plan.nodes.length [Task.ofRoot root] [] (.start set)
  refine ⟨count, ?_⟩
  rw [Plan.runIn, tasksIn_eq_some_iff.mpr ⟨root, set, folded⟩, Option.map_some]
  rfl

/-- Completing the task in front again and again ends in one way only. -/
theorem runIn_replicate_unique {count other : Nat} {result otherResult : Result}
    (ran : plan.runIn (List.replicate count 0) = some result)
    (ranToo : plan.runIn (List.replicate other 0) = some otherResult) : result = otherResult := by
  obtain ⟨done, completed, rfl⟩ := Option.map_eq_some_iff.mp ran
  obtain ⟨all, completedToo, rfl⟩ := Option.map_eq_some_iff.mp ranToo
  obtain ⟨root, set, folded⟩ := tasksIn_eq_some_iff.mp completed
  obtain ⟨goal, setToo, foldedToo⟩ := tasksIn_eq_some_iff.mp completedToo
  cases set.symm.trans setToo
  -- Where nothing is outstanding there is no task in front.
  have stops : ∀ {first second : Nat} {one another : List Task}, first ≤ second →
      (List.replicate first 0).foldlM (Progress.advance plan) ⟨[Task.ofRoot root], []⟩ =
        some ⟨[], one⟩ →
      (List.replicate second 0).foldlM (Progress.advance plan) ⟨[Task.ofRoot root], []⟩ =
        some ⟨[], another⟩ → one = another := by
    intro first second one another less ends endsToo
    obtain ⟨more, rfl⟩ := Nat.exists_eq_add_of_le less
    rw [List.replicate_add, List.foldlM_append, ends, Option.bind_eq_bind, Option.bind_some]
      at endsToo
    cases more with
    | zero => cases endsToo; rfl
    | succ more => cases endsToo
  rcases Nat.le_total count other with less | more
  · rw [stops less folded foldedToo]
  · rw [stops more foldedToo folded]

/-- Where two plans have runs in the same orders, and they look alike in a view of their results,
then so do their runs first in, first out. -/
theorem run_alike {α : Type} {other : Plan} (formed : plan.WellFormed)
    (formedToo : other.WellFormed) {view : Result → α}
    (alike : ∀ order, (plan.runIn order).map view = (other.runIn order).map view)
    {result otherResult : Result} (ran : plan.run machine size = .ok result)
    (ranToo : other.run machine size = .ok otherResult) : view result = view otherResult := by
  obtain ⟨count, completes⟩ := runIn_of_run formed ran
  obtain ⟨times, completesToo⟩ := runIn_of_run formedToo ranToo
  have seen := alike (List.replicate count 0)
  rw [completes, Option.map_some] at seen
  obtain ⟨twin, ended, same⟩ := Option.map_eq_some_iff.mp seen.symm
  rw [← same, runIn_replicate_unique ended completesToo]

/-! ### Two runs in the same order -/

variable {other : Plan} {matching : Task → Task → Prop}

theorem forall₂_getElem? {first second : List Task} (all : List.Forall₂ matching first second) :
    ∀ position : Nat, Option.Rel matching first[position]? second[position]? := by
  induction all with
  | nil => exact fun _ => .none
  | cons matches' _ inductionHypothesis =>
    intro position
    cases position with
    | zero => exact .some matches'
    | succ position => exact inductionHypothesis position

/-- The progress of two runs matches task by task. -/
structure Matched (matching : Task → Task → Prop) (first second : Progress) : Prop where
  outstanding : List.Forall₂ matching first.outstanding second.outstanding
  done : List.Forall₂ matching first.done second.done

/-- Completing tasks at the same position keeps the progress of two runs matched. -/
theorem Matched.advance (spawn : ∀ task twin, matching task twin →
      List.Forall₂ matching (task.further plan) (twin.further other))
    {first second : Progress} (matched : Matched matching first second) (position : Nat) :
    Option.Rel (Matched matching) (first.advance plan position)
      (second.advance other position) := by
  rw [Progress.advance, Progress.advance]
  have found := forall₂_getElem? matched.outstanding position
  generalize first.outstanding[position]? = task at found
  generalize second.outstanding[position]? = twin at found
  cases found with
  | none => exact .none
  | some same =>
    refine .some ⟨?_, List.rel_append matched.done (.cons same .nil)⟩
    rw [List.eraseIdx_eq_take_drop_succ, List.eraseIdx_eq_take_drop_succ]
    exact List.rel_append (List.rel_append (List.forall₂_take _ matched.outstanding)
      (List.forall₂_drop _ matched.outstanding)) (spawn _ _ same)

theorem Matched.foldlM (spawn : ∀ task twin, matching task twin →
      List.Forall₂ matching (task.further plan) (twin.further other)) (order : List Nat) :
    ∀ {first second : Progress}, Matched matching first second →
      Option.Rel (Matched matching) (order.foldlM (Progress.advance plan) first)
        (order.foldlM (Progress.advance other) second) := by
  induction order with
  | nil => exact fun matched => .some matched
  | cons position order inductionHypothesis =>
    intro first second matched
    rw [List.foldlM_cons, List.foldlM_cons]
    have advanced := matched.advance spawn position
    generalize first.advance plan position = next at advanced
    generalize second.advance other position = nextToo at advanced
    cases advanced with
    | none => exact .none
    | some same => exact inductionHypothesis same

/-- Where the root tasks match, and matching tasks spawn matching tasks, two runs in the same order
complete matching tasks, or neither can be completed in that order. -/
theorem tasksIn_matched {otherRoot : Plan.Node} (set : plan.root = .ok root)
    (setToo : other.root = .ok otherRoot)
    (roots : matching (Task.ofRoot root) (Task.ofRoot otherRoot))
    (spawn : ∀ task twin, matching task twin →
      List.Forall₂ matching (task.further plan) (twin.further other)) (order : List Nat) :
    Option.Rel (List.Forall₂ matching) (plan.tasksIn order) (other.tasksIn order) := by
  have start : Matched matching ⟨[Task.ofRoot root], []⟩ ⟨[Task.ofRoot otherRoot], []⟩ :=
    ⟨.cons roots .nil, .nil⟩
  have matched := start.foldlM spawn order
  simp only [Plan.tasksIn, set, setToo]
  generalize order.foldlM (Progress.advance plan) ⟨[Task.ofRoot root], []⟩ = progress at matched ⊢
  generalize order.foldlM (Progress.advance other) ⟨[Task.ofRoot otherRoot], []⟩ = progressToo
    at matched ⊢
  cases matched with
  | none => exact .none
  | @some first second matched =>
    obtain ⟨outstanding, done⟩ := first
    obtain ⟨waiting, all⟩ := second
    obtain ⟨outstandingMatch, doneMatch⟩ := matched
    cases outstandingMatch with
    | nil => exact .some doneMatch
    | cons => exact .none

end Run

end PathQuery
