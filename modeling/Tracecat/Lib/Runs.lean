import Mathlib.Logic.Relation

/-!
# Runs of a step relation

The runs of a system that takes labelled steps, with the list of their labels,
newest first, and the induction rule that carries an invariant along a run.
The invariant may speak about the labels so far.
-/

namespace Tracecat

variable {State Event : Type*}

/-- The states that a run can reach from `start`, with the events of the run,
newest first. -/
inductive Run (step : State → Event → State → Prop) (start : State) :
    List Event → State → Prop
  | nil : Run step start [] start
  | cons {events : List Event} {state next : State} (event : Event)
      (hRun : Run step start events state) (hStep : step state event next) :
      Run step start (event :: events) next

namespace Run

variable {step other : State → Event → State → Prop} {start state next : State}
  {events : List Event}

/-- An invariant that the start has and every step keeps holds along every run. -/
theorem invariant (Inv : List Event → State → Prop) (hStart : Inv [] start)
    (hStep : ∀ {events state next} (event), Inv events state → step state event next →
      Inv (event :: events) next)
    (hRun : Run step start events state) : Inv events state := by
  induction hRun with
  | nil => exact hStart
  | cons event _ hTaken ih => exact hStep event ih hTaken

theorem append {later : List Event} (hRun : Run step start events state)
    (hLater : Run step state later next) : Run step start (later ++ events) next := by
  induction hLater with
  | nil => exact hRun
  | cons event _ hTaken ih => exact .cons event ih hTaken

theorem relabel {Label : Type*} {labelled : State → Label → State → Prop} (label : Event → Label)
    (hRun : Run (fun state event next => labelled state (label event) next) start events state) :
    Run labelled start (events.map label) state := by
  induction hRun with
  | nil => exact .nil
  | cons event _ hTaken ih => exact .cons (label event) ih hTaken

/-- The run of a step function on a list of events, whose steps are steps of
the relation. -/
theorem of_foldlM {take : State → Event → Option State} {events : List Event}
    (hTake : ∀ event ∈ events, ∀ state next, take state event = some next →
      step state event next)
    (hFold : events.foldlM take start = some state) : Run step start events.reverse state := by
  induction events generalizing start with
  | nil =>
      cases hFold
      exact .nil
  | cons event events ih =>
      rw [List.foldlM_cons] at hFold
      obtain ⟨middle, hFirst, hRest⟩ := Option.bind_eq_some_iff.mp hFold
      have hLater := ih (fun event hMem => hTake event (List.mem_cons_of_mem _ hMem)) hRest
      rw [List.reverse_cons]
      exact append (.cons event .nil (hTake event List.mem_cons_self _ _ hFirst)) hLater

end Run

end Tracecat
