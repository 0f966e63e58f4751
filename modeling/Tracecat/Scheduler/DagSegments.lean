import Tracecat.Dsl.DagSemantics
import Tracecat.Scheduler.History

/-!
# Steps of a plain action

What a step of an action that is neither scatter, gather nor loop does in the
root stream, in terms of the equations of the action: it waits, it ends with
its verdict and marks its out-edges, or it fails.  The notes of a task are its
entries in the log.
-/

namespace Tracecat

/-! ## Notes -/

/-- What the log says about a task. -/
inductive Note
  | scheduling
  | skipping
  | executing
  | succeeded
  | failing (className : String)
  deriving DecidableEq, Repr

/-- The task that a log entry is a note about, and the note. -/
def LogEntry.noted : LogEntry → Option (Task × Note)
  | scheduling task => some (task, .scheduling)
  | skipping task => some (task, .skipping)
  | executing task => some (task, .executing)
  | succeeded task => some (task, .succeeded)
  | failing task exc => some (task, .failing exc.className)
  | _ => none

namespace State

variable (state : State)

def notes (task : Task) : List Note :=
  (state.log.filterMap LogEntry.noted).filterMap fun item =>
    if item.1 = task then some item.2 else none

theorem notes_record_some {entry : LogEntry} {task : Task} {note : Note}
    (hNoted : entry.noted = some (task, note)) :
    (state.record entry).notes =
      Function.update state.notes task (note :: state.notes task) := by
  funext other
  rw [Function.update_apply]
  unfold notes record
  rw [List.filterMap_cons_some hNoted, List.filterMap_cons]
  by_cases hOther : other = task
  · simp [hOther]
  · have hNe : task ≠ other := fun h => hOther h.symm
    simp [hOther, hNe]

@[simp] theorem notes_writeAction (writer : Task) (stream : StreamID) (ref : Ref)
    (result : TaskResult) :
    (state.writeAction writer stream ref result).notes = state.notes := by
  unfold writeAction
  split
  · rfl
  · funext other
    unfold notes
    rw [List.filterMap_cons_none rfl]

end State

namespace DSLScheduler

variable (scheduler : DSLScheduler) (state : State)

@[simp] theorem notes_queueTasks (task : DelayedTask) (unreachable : List DSLEdge) :
    (scheduler.queueTasks state task unreachable).notes = state.notes := by
  funext other
  rw [queueTasks_frame]
  unfold State.notes
  rw [List.filterMap_cons_none rfl]

@[simp] theorem notes_queueSkipped (task : DelayedTask) :
    (scheduler.queueSkipped state task).notes = state.notes := by
  simp [queueSkipped]

theorem notes_handleSuccessPath (task : DelayedTask) :
    (scheduler.handleSuccessPath state task).notes =
      Function.update state.notes task.task (.succeeded :: state.notes task.task) := by
  unfold handleSuccessPath
  rw [notes_queueTasks]
  exact state.notes_record_some rfl

theorem notes_handleErrorPath (task : DelayedTask) (exc : Exn) (failWorkflow : Bool) :
    (scheduler.handleErrorPath state task exc failWorkflow).notes =
      Function.update state.notes task.task
        (.failing exc.className :: state.notes task.task) := by
  have hNoted : (LogEntry.failing task.task exc).noted =
      some (task.task, .failing exc.className) := rfl
  have hRecord := state.notes_record_some hNoted
  unfold handleErrorPath
  simp only
  split
  · rw [notes_queueTasks, hRecord]
  · split
    · exact hRecord
    · rw [notes_queueSkipped]
      exact hRecord

end DSLScheduler

/-- The notes about a task whose coroutine is suspended. -/
def PC.notes : PC → List Note
  | runIf | sleeping => [.scheduling]
  | executing | retryUntil _ => [.executing, .scheduling]
  | _ => []

/-- How often a plain action is resumed from here on, unless it is attempted again. -/
def PC.left : PC → Nat
  | start => 5
  | runIf => 4
  | sleeping => 3
  | executing => 2
  | retryUntil _ => 1
  | _ => 0

/-- The notes about a task that has ended with a verdict. -/
def Verdict.Ends : Verdict → List Note → Prop
  | skipped, notes => notes = [.skipping, .scheduling]
  | unreachable, notes => notes = [.failing "TaskUnreachable", .scheduling]
  | failed, notes => ∃ className, notes = [.failing className, .executing, .scheduling]
  | succeeded, notes => notes = [.succeeded, .executing, .scheduling]

/-! ## The equations in a state -/

def Control.marking (control : Control) (stream : StreamID) : Marking :=
  fun src next => control.marker ⟨src, next.1, next.2, stream⟩

section Tests

variable {scheduler : DSLScheduler} {state : State} {stmt : ActionStatement}
  {stream : StreamID}

theorem skipShouldPropagate_eq :
    DSLScheduler.skipShouldPropagate state ⟨stmt.ref, stream⟩ stmt =
      stmt.allSkipped ((state.control scheduler).marking stream) := by
  unfold DSLScheduler.skipShouldPropagate ActionStatement.allSkipped
  split
  · rename_i hDeps
    simp [hDeps]
  · rename_i hDeps
    have hSome : stmt.deps.isEmpty = false := by
      cases hList : stmt.deps with
      | nil => exact absurd hList hDeps
      | cons first rest => rfl
    rw [hSome, Bool.not_false, Bool.true_and]
    rfl

theorem isReachable_eq :
    DSLScheduler.isReachable state ⟨stmt.ref, stream⟩ stmt =
      stmt.joins ((state.control scheduler).marking stream) := by
  have hMarker (dep : AdjDst) :
      DSLScheduler.edgeHasMarker state dep stmt.ref .visited stream =
        decide (stmt.inMarker ((state.control scheduler).marking stream) dep = .visited) := rfl
  unfold DSLScheduler.isReachable ActionStatement.joins
  cases hDeps : stmt.deps with
  | nil => rfl
  | cons first rest =>
      cases rest with
      | nil => exact hMarker first
      | cons second rest =>
          simp only
          cases stmt.joinStrategy with
          | any =>
              simp only [hMarker]
              rw [Bool.eq_iff_iff, decide_eq_true_eq, List.length_filter_pos_iff,
                List.any_eq_true]
          | all =>
              simp only [hMarker]
              rw [Bool.eq_iff_iff, decide_eq_true_eq, List.length_filter_eq_length_iff,
                List.all_eq_true]

end Tests

/-- A suspended action has passed the tests before its suspension point. -/
def PC.Guards (stmt : ActionStatement) (marking : Marking) (oracle : Oracle) : PC → Prop
  | start => True
  | runIf => stmt.allSkipped marking = false ∧ stmt.runIf.isSome
  | sleeping | executing | retryUntil _ =>
      stmt.allSkipped marking = false ∧ stmt.selfSkips oracle = false ∧
        stmt.joins marking = true
  | _ => False

theorem PC.Guards.congr {stmt : ActionStatement} {marking other : Marking} {oracle : Oracle}
    {pc : PC} (hGuards : pc.Guards stmt marking oracle)
    (hSkipped : stmt.allSkipped marking = stmt.allSkipped other)
    (hJoins : stmt.joins marking = stmt.joins other) : pc.Guards stmt other oracle := by
  cases pc <;> simp only [PC.Guards] at hGuards ⊢ <;> simp_all

/-- The outcomes that an oracle allows: `run_if` has its value and raises
nothing, and the executor, its attempts together, succeeds or fails as fixed. -/
def Oracle.allows (oracle : Oracle) (stmt : ActionStatement) : PC → Outcome → Prop
  | .runIf, .truthy value => value = oracle.runIf stmt.ref
  | .runIf, .raised _ => False
  | .executing, .returned _ => stmt.retryUntil = none → oracle.succeeds stmt.ref = true
  | .executing, .executorRaised _ _ _ => oracle.succeeds stmt.ref = false
  | .retryUntil _, .truthy true => oracle.succeeds stmt.ref = true
  | .retryUntil _, .raised _ => oracle.succeeds stmt.ref = false
  | _, _ => True

/-- What a step of a plain action does, from the given control state and
notes. -/
inductive DagSegment (scheduler : DSLScheduler) (oracle : Oracle) (control : Control)
    (notes : Task → List Note) (coroutine : Coroutine) (stmt : ActionStatement) :
    Segment → Prop
  /-- the action waits -/
  | wait {after : State} {pc : PC} (hControl : after.control scheduler = control)
      (hNotes : after.notes = Function.update notes coroutine.task pc.notes)
      (hStarted : pc ≠ .start)
      (hGuards : pc.Guards stmt (control.marking coroutine.task.stream) oracle) :
      DagSegment scheduler oracle control notes coroutine stmt (.suspend after pc)
  /-- the action is skipped or succeeds, and marks its out-edges -/
  | finish {after : State} {verdict : Verdict} {final : List Note}
      (hFailure : verdict.isFailure = false)
      (hVerdict : stmt.verdict (control.marking coroutine.task.stream) oracle = verdict)
      (hControl : after.control scheduler = control.emit scheduler.dsl coroutine.task.ref
        coroutine.task.stream coroutine.delayed.delay verdict.visits)
      (hNotes : after.notes = Function.update notes coroutine.task final)
      (hEnds : verdict.Ends final) :
      DagSegment scheduler oracle control notes coroutine stmt (.finish after)
  /-- the action fails -/
  | raise {after : State} {exc : Exn} {platform : Bool} {verdict : Verdict}
      {final : List Note} (hFailure : verdict.isFailure = true)
      (hVerdict : stmt.verdict (control.marking coroutine.task.stream) oracle = verdict)
      (hControl : after.control scheduler = control)
      (hNotes : Function.update after.notes coroutine.task
          (.failing exc.className :: after.notes coroutine.task) =
        Function.update notes coroutine.task final)
      (hEnds : verdict.Ends final) :
      DagSegment scheduler oracle control notes coroutine stmt (.raise after exc platform)

section Segments

variable {scheduler : DSLScheduler} {oracle : Oracle} {state : State} {coroutine : Coroutine}
  {stmt : ActionStatement}

theorem DagSegment.of_update {control : Control} {notes : Task → List Note}
    (first : List Note) {segment : Segment}
    (hSegment : DagSegment scheduler oracle control
      (Function.update notes coroutine.task first) coroutine stmt segment) :
    DagSegment scheduler oracle control notes coroutine stmt segment := by
  cases hSegment with
  | wait hControl hNotes hStarted hGuards =>
      rw [Function.update_idem] at hNotes
      exact .wait hControl hNotes hStarted hGuards
  | finish hFailure hVerdict hControl hNotes hEnds =>
      rw [Function.update_idem] at hNotes
      exact .finish hFailure hVerdict hControl hNotes hEnds
  | raise hFailure hVerdict hControl hNotes hEnds =>
      rw [Function.update_idem] at hNotes
      exact .raise hFailure hVerdict hControl hNotes hEnds

namespace DSLScheduler

section

variable (hPlain : stmt.action.isPlain)
include hPlain

theorem handleSkipPath_plain :
    scheduler.handleSkipPath state coroutine.delayed stmt =
      .finish (scheduler.queueSkipped (state.record (.skipping coroutine.task))
        coroutine.delayed) := by
  unfold handleSkipPath
  cases hAction : stmt.action <;>
    simp_all [ActionType.isPlain, ActionType.isOpener, ActionType.isCloser]

theorem dispatch_plain :
    scheduler.dispatch state coroutine.delayed stmt =
      .suspend (state.record (.executing coroutine.task)) .executing := by
  unfold dispatch
  cases hAction : stmt.action <;>
    simp_all [ActionType.isPlain, ActionType.isOpener, ActionType.isCloser]

theorem handleSkipPath_dag
    (hVerdict : stmt.verdict
      ((state.control scheduler).marking coroutine.task.stream) oracle = .skipped)
    (hNotes : state.notes coroutine.task = [.scheduling]) :
    DagSegment scheduler oracle (state.control scheduler) state.notes coroutine stmt
      (scheduler.handleSkipPath state coroutine.delayed stmt) := by
  rw [handleSkipPath_plain hPlain]
  have hFailure : Verdict.skipped.isFailure = false := rfl
  have hEnds : Verdict.skipped.Ends [.skipping, .scheduling] := rfl
  refine .finish hFailure hVerdict ?_ ?_ hEnds
  · rw [control_queueSkipped, State.control_record]
    rfl
  · rw [notes_queueSkipped, State.notes_record_some state rfl, hNotes]

theorem dispatch_dag
    (hGuards : PC.executing.Guards stmt
      ((state.control scheduler).marking coroutine.task.stream) oracle)
    (hNotes : state.notes coroutine.task = [.scheduling]) :
    DagSegment scheduler oracle (state.control scheduler) state.notes coroutine stmt
      (scheduler.dispatch state coroutine.delayed stmt) := by
  rw [dispatch_plain hPlain]
  refine .wait rfl ?_ (by simp) hGuards
  rw [State.notes_record_some state rfl, hNotes]
  rfl

/-- A plain action that is not skipped: it is unreachable, or it goes on. -/
theorem checkReachable_dag (hRef : coroutine.task.ref = stmt.ref)
    (hSkipped : stmt.allSkipped ((state.control scheduler).marking coroutine.task.stream) = false)
    (hSelf : stmt.selfSkips oracle = false) (hNotes : state.notes coroutine.task = [.scheduling]) :
    DagSegment scheduler oracle (state.control scheduler) state.notes coroutine stmt
      (scheduler.checkReachable state coroutine stmt none) := by
  have hJoins : isReachable state coroutine.task stmt =
      stmt.joins ((state.control scheduler).marking coroutine.task.stream) := by
    have hTask : coroutine.task = ⟨stmt.ref, coroutine.task.stream⟩ := by rw [← hRef]
    rw [hTask]
    exact isReachable_eq
  unfold checkReachable
  rw [hJoins]
  cases hReachable : stmt.joins ((state.control scheduler).marking coroutine.task.stream) with
  | false =>
      have hVerdict : stmt.verdict
          ((state.control scheduler).marking coroutine.task.stream) oracle = .unreachable := by
        simp [ActionStatement.verdict, hSkipped, hSelf, hReachable]
      have hFailure : Verdict.unreachable.isFailure = true := rfl
      have hEnds : Verdict.unreachable.Ends [.failing "TaskUnreachable", .scheduling] := rfl
      refine .raise hFailure hVerdict rfl ?_ hEnds
      rw [hNotes]
      rfl
  | true =>
      have hGuards : PC.executing.Guards stmt
          ((state.control scheduler).marking coroutine.task.stream) oracle :=
        ⟨hSkipped, hSelf, hReachable⟩
      simp only [Bool.not_true, Bool.false_eq_true, if_false]
      split
      · refine .wait rfl ?_ (by simp) hGuards
        have hSame : PC.sleeping.notes = state.notes coroutine.task := hNotes.symm
        rw [hSame]
        exact (Function.update_eq_self _ _).symm
      · exact dispatch_dag hPlain hGuards hNotes

theorem scheduleTask_dag (hRef : coroutine.task.ref = stmt.ref)
    (hNotes : state.notes coroutine.task = []) :
    DagSegment scheduler oracle (state.control scheduler) state.notes coroutine stmt
      (scheduler.scheduleTask state coroutine stmt) := by
  have hRecord : (state.record (.scheduling coroutine.task)).notes =
      Function.update state.notes coroutine.task [.scheduling] := by
    rw [State.notes_record_some state rfl, hNotes]
  have hScheduled : (state.record (.scheduling coroutine.task)).notes coroutine.task =
      [.scheduling] := by
    rw [hRecord, Function.update_self]
  have hSkips : skipShouldPropagate (state.record (.scheduling coroutine.task)) coroutine.task
      stmt = stmt.allSkipped ((state.control scheduler).marking coroutine.task.stream) := by
    have hTask : coroutine.task = ⟨stmt.ref, coroutine.task.stream⟩ := by rw [← hRef]
    rw [hTask]
    exact skipShouldPropagate_eq
  refine DagSegment.of_update [.scheduling] ?_
  rw [← hRecord, ← State.control_record scheduler state (.scheduling coroutine.task)]
  unfold scheduleTask
  simp only [hSkips]
  cases hSkipped : stmt.allSkipped
      ((state.control scheduler).marking coroutine.task.stream) with
  | true =>
      refine handleSkipPath_dag hPlain ?_ hScheduled
      rw [State.control_record, ActionStatement.verdict, if_pos hSkipped]
  | false =>
      simp only [Bool.false_eq_true, if_false]
      cases hRunIf : stmt.runIf with
      | some template =>
          refine .wait rfl ?_ (by simp) ⟨hSkipped, by simp [hRunIf]⟩
          have hSame : PC.runIf.notes =
              (state.record (.scheduling coroutine.task)).notes coroutine.task :=
            hScheduled.symm
          rw [hSame]
          exact (Function.update_eq_self _ _).symm
      | none =>
          exact checkReachable_dag hPlain hRef hSkipped
            (by simp [ActionStatement.selfSkips, hRunIf]) hScheduled

end

theorem verdict_of_guards {marking : Marking}
    (hGuards : PC.executing.Guards stmt marking oracle) :
    stmt.verdict marking oracle =
      if oracle.succeeds stmt.ref then .succeeded else .failed := by
  obtain ⟨hSkipped, hSelf, hJoins⟩ := hGuards
  simp [ActionStatement.verdict, hSkipped, hSelf, hJoins]

theorem handleSuccessPath_dag {before : State}
    (hGuards : PC.executing.Guards stmt
      ((state.control scheduler).marking coroutine.task.stream) oracle)
    (hSucceeds : oracle.succeeds stmt.ref = true)
    (hNotes : state.notes coroutine.task = [.executing, .scheduling])
    (hControl : before.control scheduler = state.control scheduler)
    (hSame : before.notes = state.notes) :
    DagSegment scheduler oracle (state.control scheduler) state.notes coroutine stmt
      (.finish (scheduler.handleSuccessPath before coroutine.delayed)) := by
  have hVerdict : stmt.verdict
      ((state.control scheduler).marking coroutine.task.stream) oracle = .succeeded := by
    rw [verdict_of_guards hGuards, if_pos hSucceeds]
  have hFailure : Verdict.succeeded.isFailure = false := rfl
  have hEnds : Verdict.succeeded.Ends [.succeeded, .executing, .scheduling] := rfl
  refine .finish hFailure hVerdict ?_ ?_ hEnds
  · rw [control_handleSuccessPath, hControl]
    rfl
  · rw [notes_handleSuccessPath, hSame, Coroutine.delayed_task, hNotes]

theorem raise_dag {after : State} (exc : Exn) (platform : Bool)
    (hGuards : PC.executing.Guards stmt
      ((state.control scheduler).marking coroutine.task.stream) oracle)
    (hFails : oracle.succeeds stmt.ref = false)
    (hNotes : state.notes coroutine.task = [.executing, .scheduling])
    (hControl : after.control scheduler = state.control scheduler)
    (hSame : after.notes = state.notes) :
    DagSegment scheduler oracle (state.control scheduler) state.notes coroutine stmt
      (.raise after exc platform) := by
  have hVerdict : stmt.verdict
      ((state.control scheduler).marking coroutine.task.stream) oracle = .failed := by
    rw [verdict_of_guards hGuards, hFails]
    rfl
  have hFailure : Verdict.failed.isFailure = true := rfl
  have hEnds : Verdict.failed.Ends [.failing exc.className, .executing, .scheduling] :=
    ⟨_, rfl⟩
  refine .raise hFailure hVerdict hControl ?_ hEnds
  rw [hSame, hNotes]

/-- A step of a plain action whose outcome the oracle allows. -/
theorem resume_dag {outcome : Outcome} {segment : Segment} (hPlain : stmt.action.isPlain)
    (hRef : coroutine.task.ref = stmt.ref)
    (hContext : state.streams.lookup coroutine.task.stream ≠ none)
    (hNotes : state.notes coroutine.task = coroutine.pc.notes)
    (hGuards : coroutine.pc.Guards stmt
      ((state.control scheduler).marking coroutine.task.stream) oracle)
    (hAllows : oracle.allows stmt coroutine.pc outcome)
    (hResume : scheduler.resume state coroutine stmt coroutine.pc outcome = some segment) :
    DagSegment scheduler oracle (state.control scheduler) state.notes coroutine stmt
      segment := by
  obtain ⟨context, hLookup⟩ := Option.ne_none_iff_exists'.mp hContext
  have hResumes := resumes_of_resume hResume
  generalize coroutine.pc = pc at hNotes hGuards hAllows hResumes
  cases hResumes with
  | starts => exact scheduleTask_dag hPlain hRef hNotes
  | runs =>
      have hValue : true = oracle.runIf stmt.ref := hAllows
      exact checkReachable_dag hPlain hRef hGuards.1
        (by simp [ActionStatement.selfSkips, ← hValue]) hNotes
  | skips =>
      have hValue : false = oracle.runIf stmt.ref := hAllows
      refine handleSkipPath_dag hPlain ?_ hNotes
      simp [ActionStatement.verdict, hGuards.1, ActionStatement.selfSkips, hGuards.2, ← hValue]
  | runIfRaises exc => exact absurd hAllows id
  | wakes => exact dispatch_dag hPlain hGuards hNotes
  | returns result =>
      have hAllowed : stmt.retryUntil = none → oracle.succeeds stmt.ref = true := hAllows
      unfold finishExecute
      simp only [Coroutine.delayed_task, hLookup]
      cases hRetry : stmt.retryUntil with
      | none => exact handleSuccessPath_dag hGuards (hAllowed hRetry) hNotes (by simp) (by simp)
      | some condition =>
          refine .wait (by simp) ?_ (by simp) hGuards
          have hSame : (PC.retryUntil result).notes = state.notes coroutine.task := hNotes.symm
          rw [hSame, Function.update_eq_self]
          simp
  | fails written exc platform =>
      unfold failExecute
      cases written with
      | none => exact raise_dag exc platform hGuards hAllows hNotes rfl rfl
      | some result =>
          simp only [hLookup]
          exact raise_dag exc platform hGuards hAllows hNotes (by simp) (by simp)
  | succeeds result => exact handleSuccessPath_dag hGuards hAllows hNotes rfl rfl
  | retries result =>
      refine .wait rfl ?_ (by simp) hGuards
      have hSame : PC.executing.notes = state.notes coroutine.task := hNotes.symm
      rw [hSame, Function.update_eq_self]
  | @raises pc exc error hError =>
      cases pc with
      | retryUntil result => exact raise_dag error false hGuards hAllows hNotes rfl rfl
      | start | runIf | sleeping | executing => cases hError
      | _ => exact absurd hGuards id
  | _ => exact absurd hGuards id

/-- A plain action that waits again is further on, unless its `retry_until` is false. -/
theorem left_of_suspend {marking : Marking} {outcome : Outcome} {after : State} {pc : PC}
    (hPlain : stmt.action.isPlain) (hGuards : coroutine.pc.Guards stmt marking oracle)
    (hResume : scheduler.resume state coroutine stmt coroutine.pc outcome =
      some (.suspend after pc)) :
    pc.left < coroutine.pc.left ∨ outcome = .truthy false ∧ pc.left ≤ coroutine.pc.left + 1 := by
  have hReachable {middle : State} {runIfError : Option Exn}
      (hSegment : scheduler.checkReachable middle coroutine stmt runIfError = .suspend after pc) :
      pc.left < 4 := by
    unfold checkReachable at hSegment
    rw [dispatch_plain hPlain] at hSegment
    repeat' split at hSegment
    all_goals cases hSegment
    all_goals decide
  have hResumes := resumes_of_resume hResume
  generalize coroutine.pc = now at hGuards hResumes ⊢
  generalize hSegment : Segment.suspend after pc = segment at hResumes
  cases hResumes with
  | starts =>
      left
      unfold scheduleTask at hSegment
      simp only at hSegment
      split at hSegment
      · cases hSegment.trans (handleSkipPath_plain hPlain)
      split at hSegment
      · cases hSegment
        decide
      · exact (hReachable hSegment.symm).trans (by decide)
  | skips => cases hSegment.trans (handleSkipPath_plain hPlain)
  | runs | runIfRaises => exact Or.inl (hReachable hSegment.symm)
  | wakes =>
      cases hSegment.trans (dispatch_plain hPlain)
      exact Or.inl (by decide)
  | returns result =>
      left
      unfold finishExecute at hSegment
      repeat' split at hSegment
      all_goals cases hSegment
      exact Nat.lt_succ_self 1
  | fails written error platform =>
      unfold failExecute at hSegment
      repeat' split at hSegment
      all_goals cases hSegment
  | retries =>
      cases hSegment
      exact Or.inr ⟨rfl, le_refl _⟩
  | succeeds | raises => cases hSegment
  | _ => exact absurd hGuards id

/-- A plain action raises what fails the workflow only when its executor does. -/
theorem platform_of_raise {marking : Marking} {outcome : Outcome} {after : State} {exc : Exn}
    (hPlain : stmt.action.isPlain) (hGuards : coroutine.pc.Guards stmt marking oracle)
    (hResume : scheduler.resume state coroutine stmt coroutine.pc outcome =
      some (.raise after exc true)) :
    ∃ written error, outcome = .executorRaised written error true := by
  have hReachable (middle : State) (runIfError : Option Exn) :
      scheduler.checkReachable middle coroutine stmt runIfError ≠ .raise after exc true := by
    unfold checkReachable
    repeat' split
    all_goals simp [dispatch_plain hPlain]
  have hResumes := resumes_of_resume hResume
  generalize coroutine.pc = pc at hGuards hResumes
  generalize hSegment : Segment.raise after exc true = segment at hResumes
  cases hResumes with
  | starts =>
      unfold scheduleTask at hSegment
      simp only at hSegment
      split at hSegment
      · cases hSegment.trans (handleSkipPath_plain hPlain)
      split at hSegment
      · cases hSegment
      · exact absurd hSegment.symm (hReachable _ _)
  | skips => cases hSegment.trans (handleSkipPath_plain hPlain)
  | runs | runIfRaises => exact absurd hSegment.symm (hReachable _ _)
  | wakes => cases hSegment.trans (dispatch_plain hPlain)
  | returns result =>
      unfold finishExecute at hSegment
      repeat' split at hSegment
      all_goals cases hSegment
  | fails written error platform =>
      unfold failExecute at hSegment
      repeat' split at hSegment
      all_goals cases hSegment
      all_goals exact ⟨_, _, rfl⟩
  | succeeds | retries | raises => cases hSegment
  | _ => exact absurd hGuards id

end DSLScheduler

end Segments

end Tracecat
