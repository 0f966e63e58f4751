import Tracecat.Scheduler.StepEffect

/-!
# Contained runs

A step is contained when the branches that leave the wrong stream behind are
not taken: no gather raises, no scatter raises where its out-edges are then
marked in its own stream, and no gather runs in the skip stream of a scatter
that was force-skipped.  A contained step moves the control state by a spawn
or by an effect.
-/

namespace Tracecat

def Segment.raises : Segment → Bool
  | raise _ _ _ => true
  | _ => false

/-- A coroutine that goes on: its index, its statement and its segment. -/
structure Resumption where
  index : Nat
  coroutine : Coroutine
  stmt : ActionStatement
  segment : Segment

namespace DSLScheduler

variable (scheduler : DSLScheduler)

def resumed? (state : State) : Event → Option Resumption
  | .spawn => none
  | .resume index outcome => do
      let coroutine ← state.pending[index]?
      let stmt ← scheduler.dsl.stmt? coroutine.task.ref
      let segment ← scheduler.resume state coroutine stmt coroutine.pc outcome
      return ⟨index, coroutine, stmt, segment⟩

/-- No gather raises in the step. -/
def GatherContained (state : State) (event : Event) : Prop :=
  ∀ resumption, scheduler.resumed? state event = some resumption →
    resumption.stmt.action = .transformGather → resumption.segment.raises = false

/-- A scatter that raises in the step is in the root stream and has no error
edge. -/
def ScatterContained (state : State) (event : Event) : Prop :=
  ∀ resumption, scheduler.resumed? state event = some resumption →
    resumption.stmt.action = .transformScatter → resumption.segment.raises = true →
    resumption.coroutine.task.stream = rootStream ∧
      scheduler.hasErrorEdge resumption.coroutine.task.ref = false

/-- A gather that is handled in a skip stream in the step closes a scatter that
has been observed. -/
def GatherObserved (state : State) (event : Event) : Prop :=
  ∀ resumption, scheduler.resumed? state event = some resumption →
    resumption.stmt.action = .transformGather → resumption.coroutine.pc.isEarly →
    ObservedSkip state resumption.coroutine.task

/-- The step is contained. -/
structure Contained (state : State) (event : Event) : Prop where
  gather : scheduler.GatherContained state event
  scatter : scheduler.ScatterContained state event
  observed : scheduler.GatherObserved state event

/-- The states of the runs in which every step is allowed. -/
inductive ReachableWith (context : ExecutionContext) (allowed : State → Event → Prop) :
    State → Prop
  | init : ReachableWith context allowed (State.init scheduler context)
  | step {state next : State} (event : Event) (hReach : ReachableWith context allowed state)
      (hAllowed : allowed state event) (hStep : scheduler.step state event = some next) :
      ReachableWith context allowed next

theorem ReachableWith.mono {context : ExecutionContext} {allowed other : State → Event → Prop}
    {state : State} (hReach : scheduler.ReachableWith context allowed state)
    (hMono : ∀ state event, allowed state event → other state event) :
    scheduler.ReachableWith context other state := by
  induction hReach with
  | init => exact .init
  | step event _ hAllowed hStep ih => exact .step event ih (hMono _ _ hAllowed) hStep

theorem ReachableWith.reachable {context : ExecutionContext} {allowed : State → Event → Prop}
    {state : State} (hReach : scheduler.ReachableWith context allowed state) :
    scheduler.Reachable context state := by
  induction hReach with
  | init => exact .init
  | step event _ _ hStep ih => exact .step event ih hStep

end DSLScheduler

/-- A move of the control state, labelled with the coroutine that it resumes. -/
inductive Move (scheduler : DSLScheduler) (control : Control) :
    Option Coroutine → Control → Prop
  /-- the head of the queue becomes a coroutine -/
  | spawn {next : DelayedTask} {rest : List DelayedTask} (hLive : ¬ control.halted)
      (hQueue : control.queue = next :: rest) :
      Move scheduler control none
        { control with
          queue := rest
          pending := control.pending ++ [⟨next.task, next.delay, .start⟩] }
  /-- a coroutine goes on -/
  | resume {index : Nat} {coroutine : Coroutine} {stmt : ActionStatement} {after : Control}
      {pc : Option PC} (hPending : control.pending[index]? = some coroutine)
      (hStmt : scheduler.dsl.stmt? coroutine.task.ref = some stmt)
      (hFits : coroutine.pc.fits stmt.action)
      (hEffect : Effect scheduler control coroutine stmt after pc) :
      Move scheduler control (some coroutine) (after.settle index coroutine pc)

/-- Every pending coroutine is suspended at a point of its action. -/
def Control.Fitted (scheduler : DSLScheduler) (control : Control) : Prop :=
  ∀ coroutine ∈ control.pending, ∀ stmt,
    scheduler.dsl.stmt? coroutine.task.ref = some stmt → coroutine.pc.fits stmt.action

section Effects

variable {scheduler : DSLScheduler} {control after : Control} {coroutine : Coroutine}
  {stmt : ActionStatement} {pc : Option PC}

theorem Effect.pending_eq (hEffect : Effect scheduler control coroutine stmt after pc) :
    after.pending = control.pending := by
  cases hEffect <;> rfl

theorem Effect.fits {pc : PC}
    (hEffect : Effect scheduler control coroutine stmt after (some pc)) :
    pc.fits stmt.action := by
  cases hEffect <;> first | assumption | simp_all [PC.fits]

theorem Move.fitted {next : Control} {label : Option Coroutine}
    (hMove : Move scheduler control label next)
    (hFitted : control.Fitted scheduler) : next.Fitted scheduler := by
  cases hMove with
  | spawn hLive hQueue =>
      intro coroutine hMem stmt _
      rcases List.mem_append.mp hMem with hMem | hMem
      · exact hFitted coroutine hMem stmt ‹_›
      · rw [List.mem_singleton.mp hMem]
        rfl
  | @resume index coroutine stmt after pc hPending hStmt hFits hEffect =>
      intro other hMem otherStmt hOther
      cases pc with
      | none =>
          simp only [Control.settle, hEffect.pending_eq] at hMem
          exact hFitted other (List.mem_of_mem_eraseIdx hMem) otherStmt hOther
      | some pc =>
          simp only [Control.settle, hEffect.pending_eq] at hMem
          rcases List.mem_or_eq_of_mem_set hMem with hMem | rfl
          · exact hFitted other hMem otherStmt hOther
          · rw [hStmt] at hOther
            cases hOther
            exact hEffect.fits

end Effects

namespace DSLScheduler

variable (scheduler : DSLScheduler) {state next : State} {event : Event}

theorem step_eq_some {event : Event} :
    scheduler.step state event = some next ↔
      (event = .spawn ∧ scheduler.step state .spawn = some next) ∨
        ∃ resumption, scheduler.resumed? state event = some resumption ∧
          next = scheduler.settle resumption.index resumption.coroutine resumption.segment := by
  cases event with
  | spawn => simp [resumed?]
  | resume index outcome =>
      simp only [step, resumed?, reduceCtorEq, false_and, false_or]
      cases hPending : state.pending[index]? with
      | none => simp
      | some coroutine =>
          cases hStmt : scheduler.dsl.stmt? coroutine.task.ref with
          | none => simp [hStmt]
          | some stmt =>
              cases hSegment : scheduler.resume state coroutine stmt coroutine.pc outcome with
              | none => simp [hStmt, hSegment]
              | some segment => simp [hStmt, hSegment, eq_comm]

theorem resumed?_eq_some {resumption : Resumption}
    (hResumed : scheduler.resumed? state event = some resumption) :
    ∃ outcome, event = .resume resumption.index outcome ∧
      state.pending[resumption.index]? = some resumption.coroutine ∧
      scheduler.dsl.stmt? resumption.coroutine.task.ref = some resumption.stmt ∧
      scheduler.resume state resumption.coroutine resumption.stmt resumption.coroutine.pc
        outcome = some resumption.segment := by
  cases event with
  | spawn => simp [resumed?] at hResumed
  | resume index outcome =>
      unfold resumed? at hResumed
      cases hPending : state.pending[index]? with
      | none => simp [hPending] at hResumed
      | some coroutine =>
          cases hStmt : scheduler.dsl.stmt? coroutine.task.ref with
          | none => simp [hPending, hStmt] at hResumed
          | some stmt =>
              cases hSegment : scheduler.resume state coroutine stmt coroutine.pc outcome with
              | none => simp [hPending, hStmt, hSegment] at hResumed
              | some segment =>
                  simp only [hPending, hStmt, hSegment, Option.bind_eq_bind,
                    Option.bind_some, Option.pure_def, Option.some.injEq] at hResumed
                  subst hResumed
                  exact ⟨outcome, rfl, hPending, hStmt, hSegment⟩

theorem control_handleErrorPath_halt (state : State) {task : DelayedTask} (exc : Exn)
    {platform : Bool}
    (hMarks : (scheduler.hasErrorEdge task.task.ref && !platform) = false)
    (hHalts : task.task.stream = rootStream ∨ platform) :
    (scheduler.handleErrorPath state task exc platform).control scheduler =
      { state.control scheduler with halted := True } := by
  unfold handleErrorPath
  simp only [hMarks, Bool.false_eq_true, if_false, hHalts, if_true]
  unfold State.control
  rw [Control.mk.injEq]
  refine ⟨rfl, rfl, rfl, rfl, ?_, rfl, rfl, rfl⟩
  refine eq_true fun hNil => ?_
  have hEntry := (Dict.mem_entries_iff _ _ _).mpr
    (AList.lookup_insert (a := task.task.ref)
      (b := (⟨exc, errorDetails task.task exc⟩ : TaskExceptionInfo)) state.taskExceptions)
  exact List.ne_nil_of_mem hEntry hNil

theorem control_handleErrorPath_emit (state : State) {task : DelayedTask} (exc : Exn)
    {platform : Bool}
    (hMarks : (scheduler.hasErrorEdge task.task.ref && !platform) = true ∨
      ¬ (task.task.stream = rootStream ∨ platform)) :
    ∃ keep, (scheduler.handleErrorPath state task exc platform).control scheduler =
      (state.control scheduler).emit scheduler.dsl task.task.ref task.task.stream task.delay
        keep := by
  unfold handleErrorPath
  by_cases hError : (scheduler.hasErrorEdge task.task.ref && !platform) = true
  · refine ⟨(· = .error), ?_⟩
    simp only [hError, if_true]
    refine scheduler.control_queueTasks _ task _ _ fun edge hSrc hStream hNext => ?_
    rw [mem_outEdges]
    simp [hSrc, hStream, hNext]
  · refine ⟨fun _ => false, ?_⟩
    have hStays := hMarks.resolve_left hError
    simp only [hError, Bool.false_eq_true, if_false, hStays, control_queueSkipped]
    rfl

/-- A raise that leaves the control state alone is an effect: the error path
marks the out-edges, or it stops the workflow. -/
theorem settle_raise (index : Nat) {coroutine : Coroutine} {stmt : ActionStatement}
    {after : State} {exc : Exn} {platform : Bool}
    (hYields : (Segment.raise after exc platform).Yields scheduler (state.control scheduler)
      coroutine stmt)
    (hGather : stmt.action ≠ .transformGather)
    (hScatter : stmt.action = .transformScatter → coroutine.task.stream = rootStream ∧
      scheduler.hasErrorEdge coroutine.task.ref = false) :
    ∃ control, Effect scheduler (state.control scheduler) coroutine stmt control none ∧
      (scheduler.settle index coroutine (.raise after exc platform)).control scheduler =
        control.settle index coroutine none := by
  have hSettle : (scheduler.settle index coroutine (.raise after exc platform)).control
      scheduler =
      { (scheduler.handleErrorPath after coroutine.delayed exc platform).control scheduler with
        pending := (scheduler.handleErrorPath after coroutine.delayed exc
          platform).pending.eraseIdx index } := rfl
  by_cases hMarks : (scheduler.hasErrorEdge coroutine.delayed.task.ref && !platform) = true ∨
      ¬ (coroutine.delayed.task.stream = rootStream ∨ platform)
  · -- the error path marks edges, so the action is no scatter
    have hNotScatter : stmt.action ≠ .transformScatter := by
      intro hAction
      obtain ⟨hRoot, hNoError⟩ := hScatter hAction
      simp [hRoot, hNoError] at hMarks
    have hSame : after.control scheduler = state.control scheduler := by
      rcases hYields with hKind | hSame | ⟨hKind, -⟩
      · exact absurd hKind hGather
      · exact hSame
      · exact absurd hKind hNotScatter
    obtain ⟨keep, hEmit⟩ := scheduler.control_handleErrorPath_emit after exc hMarks
    refine ⟨(state.control scheduler).emit scheduler.dsl coroutine.task.ref
      coroutine.task.stream coroutine.delayed.delay keep, .emit hNotScatter hGather, ?_⟩
    have hPending : (scheduler.handleErrorPath after coroutine.delayed exc platform).pending =
        state.pending := by
      have hEq := congrArg Control.pending hEmit
      rw [hSame] at hEq
      exact hEq
    rw [hSettle, hEmit, hSame, hPending]
    rfl
  · rw [not_or, not_not] at hMarks
    have hHalt := scheduler.control_handleErrorPath_halt after exc
      (Bool.not_eq_true _ ▸ hMarks.1) hMarks.2
    have hPending : (scheduler.handleErrorPath after coroutine.delayed exc platform).pending =
        after.pending := congrArg Control.pending hHalt
    rcases hYields with hKind | hSame | ⟨hKind, hPc, hSame⟩
    · exact absurd hKind hGather
    · refine ⟨_, Effect.halt hGather, ?_⟩
      have hAfter : after.pending = state.pending := congrArg Control.pending hSame
      rw [hSettle, hHalt, hSame, hPending, hAfter]
      rfl
    · refine ⟨_, Effect.haltScatter hKind hPc, ?_⟩
      have hAfter : after.pending = state.pending := congrArg Control.pending hSame
      rw [hSettle, hHalt, hSame, hPending, hAfter]
      rfl

theorem step_move (hFitted : (state.control scheduler).Fitted scheduler)
    (hContained : scheduler.Contained state event)
    (hStep : scheduler.step state event = some next) :
    Move scheduler (state.control scheduler)
      ((scheduler.resumed? state event).map Resumption.coroutine) (next.control scheduler) := by
  rcases scheduler.step_eq_some.mp hStep with ⟨rfl, hSpawn⟩ | ⟨resumption, hResumed, rfl⟩
  · obtain ⟨head, rest, hQueue, hLive, -, rfl⟩ := step_spawn_eq_some hSpawn
    exact .spawn (by simp [State.control, hLive]) (by simp [State.control, hQueue])
  · rw [hResumed, Option.map_some]
    obtain ⟨outcome, -, hPending, hStmt, hSegment⟩ := scheduler.resumed?_eq_some hResumed
    have hFits := hFitted resumption.coroutine (List.mem_of_getElem? hPending) _ hStmt
    have hYields := scheduler.resume_yields hFits
      (fun hAction hEarly => hContained.observed resumption hResumed hAction hEarly) hSegment
    cases hKind : resumption.segment with
    | finish after =>
        rw [hKind] at hYields
        have hMove := Move.resume hPending hStmt hFits hYields
        exact hMove
    | suspend after pc =>
        rw [hKind] at hYields
        have hMove := Move.resume hPending hStmt hFits hYields
        exact hMove
    | raise after exc platform =>
        rw [hKind] at hYields
        have hGather : resumption.stmt.action ≠ .transformGather := by
          intro hAction
          have hQuiet := hContained.gather resumption hResumed hAction
          simp [hKind, Segment.raises] at hQuiet
        have hScatter := fun hAction => hContained.scatter resumption hResumed hAction
          (by simp [hKind, Segment.raises])
        obtain ⟨control, hEffect, hControl⟩ :=
          scheduler.settle_raise resumption.index hYields hGather hScatter
        rw [hControl]
        exact .resume hPending hStmt hFits hEffect

end DSLScheduler

/-! ## Scenarios

A scenario is one run of one definition, given by its events.  Whether it can
happen, and what it leaves behind, is computed, so that a statement about all
runs can be instantiated or refuted at it.
-/

/-- A definition, the context of the workflow and the events of a run. -/
structure Scenario where
  dsl : DSLInput
  maxPendingTasks : Nat := 8
  context : ExecutionContext := {}
  events : List Event

namespace DSLScheduler

/-- The state after a list of events, all of them allowed. -/
def runWhile (scheduler : DSLScheduler) (allowed : State → Event → Bool) (state : State) :
    List Event → Option State
  | [] => some state
  | event :: rest =>
      if allowed state event then
        (scheduler.step state event).bind fun next => runWhile scheduler allowed next rest
      else none

theorem reachableWith_of_runWhile {scheduler : DSLScheduler} {context : ExecutionContext}
    {allowed : State → Event → Bool} {events : List Event} {state final : State}
    (hReach : scheduler.ReachableWith context (fun state event => allowed state event) state)
    (hRun : scheduler.runWhile allowed state events = some final) :
    scheduler.ReachableWith context (fun state event => allowed state event) final := by
  induction events generalizing state with
  | nil =>
      cases hRun
      exact hReach
  | cons event rest ih =>
      unfold runWhile at hRun
      split at hRun
      · rename_i hAllowed
        obtain ⟨next, hStep, hRest⟩ := Option.bind_eq_some_iff.mp hRun
        exact ih (.step event hReach hAllowed hStep) hRest
      · cases hRun

end DSLScheduler

namespace Scenario

/-- The definition is accepted, every event is possible and allowed, and the
final state passes the check. -/
def reaches (scenario : Scenario) (allowed : DSLScheduler → State → Event → Bool)
    (check : DSLScheduler → State → Bool) : Bool :=
  match DSLScheduler.new scenario.dsl scenario.maxPendingTasks fun _ => none with
  | .error _ => false
  | .ok scheduler =>
      match scheduler.runWhile (allowed scheduler) (State.init scheduler scenario.context)
          scenario.events with
      | none => false
      | some state => decide scenario.dsl.Accepted && check scheduler state

theorem exists_of_reaches {scenario : Scenario}
    {allowed : DSLScheduler → State → Event → Bool} {check : DSLScheduler → State → Bool}
    (hReaches : scenario.reaches allowed check = true) :
    scenario.dsl.Accepted ∧ ∃ scheduler state,
      DSLScheduler.new scenario.dsl scenario.maxPendingTasks (fun _ => none) = .ok scheduler ∧
      scheduler.ReachableWith scenario.context
        (fun state event => allowed scheduler state event) state ∧
      check scheduler state = true := by
  unfold reaches at hReaches
  split at hReaches
  · cases hReaches
  · rename_i scheduler hNew
    split at hReaches
    · cases hReaches
    · rename_i state hRun
      rw [Bool.and_eq_true, decide_eq_true_eq] at hReaches
      exact ⟨hReaches.1, scheduler, state, hNew,
        DSLScheduler.reachableWith_of_runWhile .init hRun, hReaches.2⟩

end Scenario
end Tracecat
