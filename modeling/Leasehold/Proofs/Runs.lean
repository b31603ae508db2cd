import Mathlib.Data.List.Induction

set_option autoImplicit false

/-!
Induction along the run of a machine that takes one event after another or refuses it, and what its
steps give out on the way.
-/

namespace Leasehold.Runs

variable {State Event : Type} {step : State → Event → Option State} {first last : State}

theorem foldlM_concat (events : List Event) (event : Event) :
    (events ++ [event]).foldlM step first = (events.foldlM step first).bind (step · event) := by
  rw [List.foldlM_append]
  cases events.foldlM step first with
  | none => rfl
  | some reached =>
      rw [Option.bind_some, Option.bind_eq_bind, Option.bind_some, List.foldlM_cons]
      cases stepped : step reached event <;> rfl

/-- What holds at first and is kept by every step holds along every run. -/
theorem induct {motive : List Event → State → Prop} (opened : motive [] first)
    (stepped : ∀ events state event next, events.foldlM step first = some state →
      motive events state → step state event = some next → motive (events ++ [event]) next)
    (events : List Event) (run : events.foldlM step first = some last) : motive events last := by
  induction events using List.reverseRecOn generalizing last with
  | nil =>
      cases run
      exact opened
  | append_singleton events event ih =>
      rw [foldlM_concat, Option.bind_eq_some_iff] at run
      obtain ⟨before, ran, acted⟩ := run
      exact stepped events before event last ran (ih ran) acted

def collect {Out : Type} (step : State → Event → Option State) (emit : State → Event → List Out)
    (first : State) : List Event → List Out
  | [] => []
  | event :: rest =>
      emit first event ++ ((step first event).map fun next => collect step emit next rest).getD []

theorem collect_append {Out : Type} {emit : State → Event → List Out} {done : List Event}
    (ran : done.foldlM step first = some last) (rest : List Event) :
    collect step emit first (done ++ rest) =
      collect step emit first done ++ collect step emit last rest := by
  induction done generalizing first with
  | nil =>
      cases ran
      rfl
  | cons event done ih =>
      rw [List.foldlM_cons, Option.bind_eq_bind, Option.bind_eq_some_iff] at ran
      obtain ⟨next, stepped, ran⟩ := ran
      simp only [List.cons_append, collect, stepped, Option.map_some, Option.getD_some, ih ran,
        List.append_assoc]

theorem collect_concat {Out : Type} {emit : State → Event → List Out} {done : List Event}
    (ran : done.foldlM step first = some last) (event : Event) :
    collect step emit first (done ++ [event]) = collect step emit first done ++ emit last event := by
  rw [collect_append ran, collect]
  cases step last event <;> exact congrArg _ (List.append_nil _)

/-- A run that gives out something gives it out for the first time at one of its events. -/
theorem first_of_collect {Out : Type} {emit : State → Event → List Out} {events : List Event}
    (run : events.foldlM step first = some last) (some : collect step emit first events ≠ []) :
    ∃ early event late middle, events = early ++ event :: late ∧
      early.foldlM step first = .some middle ∧ collect step emit first early = [] ∧
      emit middle event ≠ [] := by
  induction events generalizing first with
  | nil => exact absurd rfl some
  | cons event rest ih =>
      rw [List.foldlM_cons, Option.bind_eq_bind, Option.bind_eq_some_iff] at run
      obtain ⟨next, stepped, ran⟩ := run
      by_cases silent : emit first event = []
      · simp only [collect, stepped, silent, Option.map_some, Option.getD_some,
          List.nil_append] at some
        obtain ⟨early, emitting, late, middle, whole, reached, none, emits⟩ := ih ran some
        refine ⟨event :: early, emitting, late, middle, congrArg (event :: ·) whole, ?_, ?_, emits⟩
        · rw [List.foldlM_cons, stepped]
          exact reached
        · simp only [collect, stepped, silent, none, Option.map_some, Option.getD_some,
            List.nil_append]
      · exact ⟨[], event, rest, first, rfl, rfl, rfl, silent⟩

end Leasehold.Runs
