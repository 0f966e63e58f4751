import Tracecat.Scheduler.SkipStreams

/-!
# Executions in the log

The log entries that say that an action is executed, and those that say that a
gather has been finalized.  A step adds an execution of its own task where the
handler of the action starts, or one of a finalized gather in the parent
stream.
-/

namespace Tracecat

/-- The entry reports an execution or a finalized gather. -/
def LogEntry.isExecution : LogEntry → Bool
  | executing _ | gathered _ => true
  | _ => false

def LogEntry.executes (task : Task) : LogEntry → Bool
  | .executing other => other = task
  | _ => false

theorem any_executes {log : List LogEntry} {task : Task} :
    log.any (LogEntry.executes task) = true ↔ .executing task ∈ log := by
  rw [List.any_eq_true]
  constructor
  · rintro ⟨entry, hMem, hEntry⟩
    cases entry <;> simp only [LogEntry.executes, decide_eq_true_eq, Bool.false_eq_true] at hEntry
    exact hEntry ▸ hMem
  · exact fun hMem => ⟨_, hMem, by simp [LogEntry.executes]⟩

/-- The executions and finalized gathers of the log, newest first. -/
def State.executions (state : State) : List LogEntry :=
  state.log.filter LogEntry.isExecution

/-- The executions that a step of `coroutine` adds to the log. -/
inductive AddsExecutions (state : State) (coroutine : Coroutine) (stmt : ActionStatement) :
    List LogEntry → Prop
  | none : AddsExecutions state coroutine stmt []
  | dispatch (hPc : coroutine.pc.isEarly)
      (hReachable : coroutine.pc = .sleeping ∨
        DSLScheduler.isReachable state coroutine.task stmt) :
      AddsExecutions state coroutine stmt [.executing coroutine.task]
  | gather {parent : StreamID} (hPc : coroutine.pc.parent? = some parent)
      (hAction : stmt.action = .transformGather) :
      AddsExecutions state coroutine stmt
        [.executing ⟨coroutine.task.ref, parent⟩, .gathered ⟨coroutine.task.ref, parent⟩]
  | emptyGather {parent : StreamID} (hPc : coroutine.pc.parent? = some parent)
      (hAction : stmt.action = .transformGather) :
      AddsExecutions state coroutine stmt [.gathered ⟨coroutine.task.ref, parent⟩]

namespace State

variable (state : State)

@[simp] theorem executions_record (entry : LogEntry) :
    (state.record entry).executions =
      if entry.isExecution then entry :: state.executions else state.executions := by
  unfold executions record
  rw [List.filter_cons]

@[simp] theorem executions_writeAction (writer : Task) (stream : StreamID) (ref : Ref)
    (result : TaskResult) :
    (state.writeAction writer stream ref result).executions = state.executions := by
  unfold writeAction
  split
  · rfl
  · simp [executions, LogEntry.isExecution]

@[simp] theorem executions_openStream (writer : Task) (stream parent : StreamID)
    (actions : Dict Ref TaskResult) :
    (state.openStream writer stream parent actions).executions = state.executions := by
  simp [executions, openStream, LogEntry.isExecution]

end State

namespace DSLScheduler

variable (scheduler : DSLScheduler) (state : State)

@[simp] theorem executions_queueTasks (task : DelayedTask) (unreachable : List DSLEdge) :
    (scheduler.queueTasks state task unreachable).executions = state.executions := by
  rw [queueTasks_frame]
  simp [State.executions, LogEntry.isExecution]

@[simp] theorem executions_handleSuccessPath (task : DelayedTask) :
    (scheduler.handleSuccessPath state task).executions = state.executions := by
  simp [handleSuccessPath, LogEntry.isExecution]

@[simp] theorem executions_queueSkipped (task : DelayedTask) :
    (scheduler.queueSkipped state task).executions = state.executions := by
  simp [queueSkipped]

@[simp] theorem executions_handleErrorPath (task : DelayedTask) (exc : Exn)
    (failWorkflow : Bool) :
    (scheduler.handleErrorPath state task exc failWorkflow).executions = state.executions := by
  unfold handleErrorPath
  simp only
  split
  · simp [LogEntry.isExecution]
  · split
    · simp [State.executions, State.record, LogEntry.isExecution]
    · rw [executions_queueSkipped]
      simp [State.executions, State.record, LogEntry.isExecution]

@[simp] theorem executions_resetLoopIterationState (region : LoopRegion) (stream : StreamID) :
    (scheduler.resetLoopIterationState state region stream).executions = state.executions := by
  have hCleanup : (state.cleanupLoopDescendantStreams region stream).executions =
      state.executions := by
    unfold State.cleanupLoopDescendantStreams
    split
    · rfl
    · simp [State.executions, LogEntry.isExecution]
  rw [← hCleanup]
  simp [resetLoopIterationState, State.executions, LogEntry.isExecution]

@[simp] theorem executions_scatterItem (task : Task) (interval : Option Int)
    (collection : StoredObject Json) (streams : List StreamID) :
    (scheduler.scatterItem state task interval collection streams).executions =
      state.executions := by
  simp only [scatterItem, executions_queueTasks]
  simp [State.executions, State.openStream, LogEntry.isExecution]

@[simp] theorem executions_handleScatterSkipStream (task : Task) :
    (scheduler.handleScatterSkipStream state task).executions = state.executions := by
  simp [handleScatterSkipStream]

end DSLScheduler

def Segment.state : Segment → State
  | finish state | suspend state _ => state
  | raise state _ _ => state

namespace DSLScheduler

variable {scheduler : DSLScheduler} {state : State} {coroutine : Coroutine}
  {stmt : ActionStatement}

theorem executions_handleLoopStart (task : DelayedTask) (isSkipping : Bool) :
    (scheduler.handleLoopStart state task isSkipping).state.executions = state.executions := by
  unfold handleLoopStart
  cases isSkipping with
  | true =>
      simp only [if_true, Segment.state, executions_queueSkipped]
      rfl
  | false =>
      simp only [Bool.false_eq_true, if_false]
      split
      · rfl
      · simp only [Segment.state, State.executions_writeAction]
        rfl

theorem executions_handleLoopEnd (task : DelayedTask) (isSkipping : Bool) :
    (scheduler.handleLoopEnd state task stmt isSkipping).state.executions =
      state.executions := by
  unfold handleLoopEnd
  split
  · rfl
  · rename_i region _
    split
    · rfl
    · cases isSkipping with
      | false => rfl
      | true =>
          simp only [if_true]
          by_cases hSkipped : (region.startRef, task.task.stream) ∈ state.loopStartSkips
          · simp only [hSkipped, decide_true, if_true]
            split
            · rfl
            · simp only [Segment.state, executions_queueSkipped]
              exact State.executions_writeAction _ _ _ _ _
          · simp only [hSkipped, decide_false, Bool.false_eq_true, if_false]
            split
            · rfl
            · simp only [Segment.state, executions_handleSuccessPath]
              exact State.executions_writeAction _ _ _ _ _

theorem executions_decideLoopEnd (task : Task) (currentIndex : Nat) (shouldContinue : Bool) :
    (decideLoopEnd state task currentIndex shouldContinue).state.executions =
      state.executions := by
  unfold decideLoopEnd
  split
  · rfl
  · simp [Segment.state]

theorem executions_finishLoopEnd (task : DelayedTask) (currentIndex : Nat)
    (shouldContinue : Bool) :
    (scheduler.finishLoopEnd state task stmt currentIndex
      shouldContinue).state.executions = state.executions := by
  unfold finishLoopEnd
  split
  · cases shouldContinue with
    | false =>
        simp only [Bool.false_eq_true, if_false, Segment.state, executions_handleSuccessPath]
        rfl
    | true =>
        simp only [if_true]
        split
        · rfl
        · exact executions_resetLoopIterationState scheduler state _ _
  · rfl
  · rfl

theorem executions_handleScatter (task : Task) (isSkipping : Bool) :
    (scheduler.handleScatter state task stmt isSkipping).state.executions =
      state.executions := by
  unfold handleScatter
  cases isSkipping with
  | true => simp [Segment.state]
  | false =>
      simp only [Bool.false_eq_true, if_false]
      split
      · rfl
      · split <;> rfl

theorem executions_scatterNext (task : Task) (collection : StoredObject Json) (size : Nat)
    (streams : List StreamID) :
    (scheduler.scatterNext state task stmt collection size streams).state.executions =
      state.executions := by
  unfold scatterNext
  split
  · simp [Segment.state]
  · rfl

theorem executions_beginScatter (task : Task) (collection : StoredObject Json) :
    (scheduler.beginScatter state task stmt collection).state.executions =
      state.executions := by
  unfold beginScatter
  simp only
  split
  · rfl
  · simp only [Segment.state, executions_handleScatterSkipStream]
    rfl
  · rw [executions_scatterNext]
    rfl

theorem executions_gathers {task : Task} {parent : StreamID} {segment : Segment}
    (hGathers : segment.Gathers task parent state) :
    segment.state.executions = state.executions := by
  have hSame {after : State} (hAfter : Gathers task parent state after) :
      after.executions = state.executions := by
    induction hAfter with
    | refl => rfl
    | write result _ ih => exact (State.executions_writeAction ..).trans ih
    | _ => assumption
  cases hGathers <;> exact hSame ‹_›

theorem executions_beginsGather {task : DelayedTask} {segment : Segment}
    (hBegins : BeginsGather scheduler state task segment) :
    segment.state.executions = state.executions := by
  cases hBegins with
  | skip => exact executions_queueSkipped ..
  | close _ hGathers => exact executions_gathers hGathers
  | _ => rfl

/-! ## The executions of a step -/

theorem executions_handles {task : DelayedTask} {isSkipping : Bool} {segment : Segment}
    (hHandles : Handles scheduler stmt state task isSkipping segment) :
    segment.state.executions = state.executions := by
  cases hHandles with
  | loopStart => exact executions_handleLoopStart ..
  | loopEnd => exact executions_handleLoopEnd ..
  | scatter => exact executions_handleScatter ..
  | gather => exact executions_beginsGather (beginsGather ..)
  | skip => exact executions_queueSkipped ..
  | execute => rfl

theorem executions_handleSkipPath (task : DelayedTask) :
    (scheduler.handleSkipPath state task stmt).state.executions = state.executions :=
  (executions_handles (handles_handleSkipPath : Handles scheduler stmt _ task true _)).trans rfl

variable (state) in
theorem executions_checkReachable (before : State) (hPc : coroutine.pc.isEarly)
    (hSame : state.executions = before.executions)
    (hReach : isReachable state coroutine.task stmt = isReachable before coroutine.task stmt)
    (runIfError : Option Exn) :
    ∃ added, AddsExecutions before coroutine stmt added ∧
      (scheduler.checkReachable state coroutine stmt runIfError).state.executions =
        added ++ before.executions := by
  unfold checkReachable
  split
  · exact ⟨[], .none, hSame⟩
  · rename_i hReachable
    split
    · exact ⟨[], .none, hSame⟩
    · split
      · exact ⟨[], .none, hSame⟩
      · refine ⟨_, .dispatch hPc (Or.inr (by simpa [hReach] using hReachable)), ?_⟩
        exact (executions_handles handles_dispatch).trans (congrArg _ hSame)

theorem resume_executions {outcome : Outcome} {segment : Segment}
    (hFits : coroutine.pc.fits stmt.action)
    (hResume : scheduler.resume state coroutine stmt coroutine.pc outcome = some segment) :
    ∃ added, AddsExecutions state coroutine stmt added ∧
      segment.state.executions = added ++ state.executions := by
  have hNone {segment : Segment} (hSame : segment.state.executions = state.executions) :
      ∃ added, AddsExecutions state coroutine stmt added ∧
        segment.state.executions = added ++ state.executions :=
    ⟨[], .none, hSame⟩
  have hResumes := resumes_of_resume hResume
  generalize hPc : coroutine.pc = pc at hFits hResumes
  cases hResumes with
  | starts =>
      unfold scheduleTask
      simp only
      split
      · exact hNone (executions_handleSkipPath _)
      · split
        · exact hNone rfl
        · have hEarly : coroutine.pc.isEarly := by simp [hPc, PC.isEarly]
          exact executions_checkReachable (state.record (.scheduling coroutine.task))
            state hEarly rfl rfl none
  | skips => exact hNone (executions_handleSkipPath _)
  | runs | runIfRaises =>
      have hEarly : coroutine.pc.isEarly := by simp [hPc, PC.isEarly]
      exact executions_checkReachable state state hEarly rfl rfl _
  | wakes =>
      exact ⟨_, .dispatch (by simp [hPc, PC.isEarly]) (Or.inl hPc),
        executions_handles handles_dispatch⟩
  | returns result =>
      refine hNone ?_
      unfold finishExecute
      split
      · rfl
      · simp only
        split <;> simp [Segment.state]
  | fails written exc platform =>
      refine hNone ?_
      unfold failExecute
      split
      · rfl
      · split
        · rfl
        · simp [Segment.state]
  | succeeds | loopStarts => exact hNone (executions_handleSuccessPath _ _ _)
  | retries result => exact hNone rfl
  | loopDecides currentIndex value => exact hNone (executions_decideLoopEnd _ _ _)
  | loopEnds currentIndex shouldContinue => exact hNone (executions_finishLoopEnd _ _ _)
  | scatters stored => exact hNone (executions_beginScatter _ _)
  | scattersNext collection size streams => exact hNone (executions_scatterNext _ _ _ _)
  | gathers parent stored => exact hNone (executions_gathers (gathers_storeGatherItem _))
  | finalizes parent taskResult items result errors =>
      unfold finishGatherResult
      simp only
      split
      · exact hNone rfl
      · have hParent : coroutine.pc.parent? = some parent := by simp [hPc, PC.parent?]
        refine ⟨_, .gather hParent (by simpa [PC.fits] using hFits), ?_⟩
        simp [Segment.state, LogEntry.isExecution]
  | finalizesEmpty parent result errors =>
      have hParent : coroutine.pc.parent? = some parent := by simp [hPc, PC.parent?]
      refine ⟨_, .emptyGather hParent (by simpa [PC.fits] using hFits), ?_⟩
      simp [finishEmptyGather, Segment.state, LogEntry.isExecution]
  | gathered parent => exact hNone (by simp [finishGather, Segment.state])
  | raises hError => exact hNone rfl

theorem executions_settle (index : Nat) (segment : Segment) :
    (scheduler.settle index coroutine segment).executions = segment.state.executions := by
  cases segment with
  | finish after => rfl
  | suspend after pc => rfl
  | raise after exc platform => exact executions_handleErrorPath _ _ _ _ _

end DSLScheduler

end Tracecat
