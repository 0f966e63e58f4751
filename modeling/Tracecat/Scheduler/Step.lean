import Tracecat.Scheduler.Loop
import Tracecat.Scheduler.ScatterGather

/-!
# Steps and runs of the scheduler

`_schedule_task` cut at its await points, the loop of `start()`, and the runs
they generate.  An `Event` is one choice of the environment: the main loop
spawns the next queued task, or the event loop resumes a pending coroutine
with the outcome of what it awaited.  Every order of events is a run, so a
statement about all runs covers every interleaving and every outcome.
-/

namespace Tracecat

/-- How an awaited operation ends. -/
inductive Outcome
  /-- it ends without a value: a start, a sleep, a no-op activity -/
  | resumed
  /-- the truth value of an evaluated expression -/
  | truthy (value : Bool)
  /-- the executor returns -/
  | returned (result : TaskResult)
  /-- `handle_scatter_input_activity` returns -/
  | collection (stored : StoredObject Json)
  /-- `evaluate_templated_object_activity` returns -/
  | item (stored : StoredObject Json)
  /-- `finalize_gather_activity` returns -/
  | finalized (result : StoredObject Datum) (errors : List ActionErrorInfo)
  /-- it raises -/
  | raised (exc : Exn)
  /-- the executor raises; `written` is the result it leaves in the context -/
  | executorRaised (written : Option TaskResult) (exc : Exn) (platform : Bool)

namespace Coroutine

/-- The task with its delay normalized, as `_schedule_task` passes it on. -/
def delayed (coroutine : Coroutine) : DelayedTask :=
  ⟨coroutine.task, min coroutine.delay 0⟩

end Coroutine

namespace DSLScheduler

variable (scheduler : DSLScheduler)

/-- `_handle_skip_path`. -/
def handleSkipPath (state : State) (task : DelayedTask) (stmt : ActionStatement) : Segment :=
  let state := state.record (.skipping task.task)
  match stmt.action with
  | .loopStart => scheduler.handleLoopStart state task true
  | .loopEnd => scheduler.handleLoopEnd state task stmt true
  | .transformScatter => scheduler.handleScatter state task.task stmt true
  | .transformGather => scheduler.handleGather state task stmt true
  | _ => .finish (scheduler.queueSkipped state task)

/-- `_schedule_task`, step 4: run the handler of the action. -/
def dispatch (state : State) (task : DelayedTask) (stmt : ActionStatement) : Segment :=
  let state := state.record (.executing task.task)
  match stmt.action with
  | .loopStart => scheduler.handleLoopStart state task false
  | .loopEnd => scheduler.handleLoopEnd state task stmt false
  | .transformScatter => scheduler.handleScatter state task.task stmt false
  | .transformGather => scheduler.handleGather state task stmt false
  | _ => .suspend state .executing

/-- `_schedule_task`, steps 3 and 4: reachability, the deferred `run_if`
error, the delay, the handler. -/
def checkReachable (state : State) (coroutine : Coroutine) (stmt : ActionStatement)
    (runIfError : Option Exn) : Segment :=
  if !isReachable state coroutine.task stmt then
    .raise state (.other "TaskUnreachable"
      ("Task " ++ coroutine.task.ref ++ " is unreachable")) false
  else
    match runIfError with
    | some exc => .raise state exc false
    | none =>
        if 0 < coroutine.delay then .suspend state .sleeping
        else scheduler.dispatch state coroutine.delayed stmt

/-- `_schedule_task`, up to its first await. -/
def scheduleTask (state : State) (coroutine : Coroutine) (stmt : ActionStatement) : Segment :=
  let state := state.record (.scheduling coroutine.task)
  if skipShouldPropagate state coroutine.task stmt then
    scheduler.handleSkipPath state coroutine.delayed stmt
  else
    match stmt.runIf with
    | some _ => .suspend state .runIf
    | none => scheduler.checkReachable state coroutine stmt none

/-- `run_if` evaluation failed: the error that `_task_should_skip` raises. -/
def runIfError (exc : Exn) : Exn :=
  .application ("Error evaluating `run_if` condition: " ++ exc.message) none

/-- `DSLWorkflow._execute_task`, the write of its `finally` clause, and the
success path unless `retry_until` is set. -/
def finishExecute (state : State) (task : DelayedTask) (stmt : ActionStatement)
    (result : TaskResult) : Segment :=
  match state.streams.lookup task.task.stream with
  | none => .raise state (.keyError task.task.stream.text) false
  | some _ =>
      let state := state.writeAction task.task task.task.stream task.task.ref result
      match stmt.retryUntil with
      | none => .finish (scheduler.handleSuccessPath state task)
      | some _ =>
          -- `ctx = self.context.copy()` is shallow: its `ACTIONS` is the root's own
          .suspend (state.writeAction task.task rootStream task.task.ref result)
            (.retryUntil result)

/-- The `finally` clause of an execution that raises. -/
def failExecute (state : State) (task : Task) (written : Option TaskResult) (exc : Exn)
    (platform : Bool) : Segment :=
  match written with
  | none => .raise state exc platform
  | some result =>
      match state.streams.lookup task.stream with
      | none => .raise state (.keyError task.stream.text) false
      | some _ => .raise (state.writeAction task task.stream task.ref result) exc platform

/-- A pending coroutine from the point where it is suspended to the next one.
`none`: the outcome does not belong to the awaited operation. -/
def resume (state : State) (coroutine : Coroutine) (stmt : ActionStatement) :
    PC → Outcome → Option Segment
  | .start, .resumed => some (scheduler.scheduleTask state coroutine stmt)
  | .runIf, .truthy true => some (scheduler.checkReachable state coroutine stmt none)
  | .runIf, .truthy false => some (scheduler.handleSkipPath state coroutine.delayed stmt)
  | .runIf, .raised exc =>
      some (scheduler.checkReachable state coroutine stmt (some (runIfError exc)))
  | .sleeping, .resumed => some (scheduler.dispatch state coroutine.delayed stmt)
  | .executing, .returned result =>
      some (scheduler.finishExecute state coroutine.delayed stmt result)
  | .executing, .executorRaised written exc platform =>
      some (failExecute state coroutine.task written exc platform)
  | .retryUntil _, .truthy true =>
      some (.finish (scheduler.handleSuccessPath state coroutine.delayed))
  | .retryUntil _, .truthy false => some (.suspend state .executing)
  | .retryUntil _, .raised exc => some (.raise state exc false)
  | .loopStartExec, .resumed => some (scheduler.finishLoopStart state coroutine.delayed)
  | .loopStartExec, .raised exc => some (.raise state exc false)
  | .loopEndCond currentIndex, .truthy value =>
      some (decideLoopEnd state coroutine.task currentIndex value)
  | .loopEndCond _, .raised exc => some (.raise state (.application
      ("Error evaluating `condition` in `core.loop.end`: " ++ exc.message) none) false)
  | .loopEndExec currentIndex shouldContinue, .resumed => some
      (scheduler.finishLoopEnd state coroutine.delayed stmt currentIndex shouldContinue)
  | .loopEndExec _ _, .raised exc => some (.raise state exc false)
  | .scatterInput, .collection stored =>
      some (scheduler.beginScatter state coroutine.task stmt stored)
  | .scatterInput, .raised exc => some (.raise state exc false)
  | .scatterLoop collection size streams, .resumed => some
      (scheduler.scatterNext state coroutine.task stmt collection size streams)
  | .gatherItem parent, .item stored =>
      some (scheduler.storeGatherItem state coroutine.task parent stored)
  | .gatherItem _, .raised exc => some (.raise state (.application
      ("Error evaluating `items` expression in `core.transform.gather`: " ++ exc.message)
        none) false)
  | .gatherFinalize parent taskResult _, .finalized result errors =>
      some (finishGatherResult state coroutine.task stmt parent taskResult result errors)
  | .gatherFinalize _ _ _, .raised exc => some (.raise state exc false)
  | .gatherEmpty parent, .finalized result _ =>
      some (scheduler.finishEmptyGather state coroutine.delayed parent result)
  | .gatherEmpty _, .raised exc => some (.raise state exc false)
  | .gatherExec parent, .resumed =>
      some (scheduler.finishGather state coroutine.delayed parent)
  | .gatherExec _, .raised exc => some (.raise state exc false)
  | _, _ => none

end DSLScheduler

/-- The error that a coroutine ends with when what it awaits raises. -/
def PC.raises : PC → Exn → Option Exn
  | start, _ | runIf, _ | sleeping, _ | executing, _ | scatterLoop _ _ _, _ => none
  | loopEndCond _, exc => some (.application
      ("Error evaluating `condition` in `core.loop.end`: " ++ exc.message) none)
  | gatherItem _, exc => some (.application
      ("Error evaluating `items` expression in `core.transform.gather`: " ++ exc.message) none)
  | _, exc => some exc

namespace DSLScheduler

section Resumes

variable (scheduler : DSLScheduler) (state : State) (coroutine : Coroutine)
  (stmt : ActionStatement)

/-- The ways in which `resume` goes on from an await point. -/
inductive Resumes : PC → Outcome → Segment → Prop
  | starts : Resumes .start .resumed (scheduler.scheduleTask state coroutine stmt)
  | skips : Resumes .runIf (.truthy false) (scheduler.handleSkipPath state coroutine.delayed stmt)
  | runs : Resumes .runIf (.truthy true) (scheduler.checkReachable state coroutine stmt none)
  | runIfRaises (exc : Exn) : Resumes .runIf (.raised exc)
      (scheduler.checkReachable state coroutine stmt (some (runIfError exc)))
  | wakes : Resumes .sleeping .resumed (scheduler.dispatch state coroutine.delayed stmt)
  | returns (result : TaskResult) : Resumes .executing (.returned result)
      (scheduler.finishExecute state coroutine.delayed stmt result)
  | fails (written : Option TaskResult) (exc : Exn) (platform : Bool) :
      Resumes .executing (.executorRaised written exc platform)
        (failExecute state coroutine.task written exc platform)
  | succeeds (result : TaskResult) : Resumes (.retryUntil result) (.truthy true)
      (.finish (scheduler.handleSuccessPath state coroutine.delayed))
  | retries (result : TaskResult) : Resumes (.retryUntil result) (.truthy false)
      (.suspend state .executing)
  | loopStarts : Resumes .loopStartExec .resumed
      (scheduler.finishLoopStart state coroutine.delayed)
  | loopDecides (currentIndex : Nat) (value : Bool) : Resumes (.loopEndCond currentIndex)
      (.truthy value) (decideLoopEnd state coroutine.task currentIndex value)
  | loopEnds (currentIndex : Nat) (shouldContinue : Bool) :
      Resumes (.loopEndExec currentIndex shouldContinue) .resumed
        (scheduler.finishLoopEnd state coroutine.delayed stmt currentIndex shouldContinue)
  | scatters (stored : StoredObject Json) : Resumes .scatterInput (.collection stored)
      (scheduler.beginScatter state coroutine.task stmt stored)
  | scattersNext (collection : StoredObject Json) (size : Nat) (streams : List StreamID) :
      Resumes (.scatterLoop collection size streams) .resumed
        (scheduler.scatterNext state coroutine.task stmt collection size streams)
  | gathers (parent : StreamID) (stored : StoredObject Json) :
      Resumes (.gatherItem parent) (.item stored)
        (scheduler.storeGatherItem state coroutine.task parent stored)
  | finalizes (parent : StreamID) (taskResult : TaskResult) (items : List (StoredObject Json))
      (result : StoredObject Datum) (errors : List ActionErrorInfo) :
      Resumes (.gatherFinalize parent taskResult items) (.finalized result errors)
        (finishGatherResult state coroutine.task stmt parent taskResult result errors)
  | finalizesEmpty (parent : StreamID) (result : StoredObject Datum)
      (errors : List ActionErrorInfo) :
      Resumes (.gatherEmpty parent) (.finalized result errors)
        (scheduler.finishEmptyGather state coroutine.delayed parent result)
  | gathered (parent : StreamID) : Resumes (.gatherExec parent) .resumed
      (scheduler.finishGather state coroutine.delayed parent)
  | raises {pc : PC} {exc error : Exn} (hError : pc.raises exc = some error) :
      Resumes pc (.raised exc) (.raise state error false)

variable {scheduler state coroutine stmt}

/-- Whatever a resumed coroutine does is one of these. -/
theorem resumes_of_resume {pc : PC} {outcome : Outcome} {segment : Segment}
    (hResume : scheduler.resume state coroutine stmt pc outcome = some segment) :
    Resumes scheduler state coroutine stmt pc outcome segment := by
  unfold resume at hResume
  split at hResume <;> cases hResume
  all_goals constructor
  all_goals rfl

variable (scheduler stmt)

/-- The handler of an action, on a skip or on an execution. -/
inductive Handles (state : State) (task : DelayedTask) (isSkipping : Bool) : Segment → Prop
  | loopStart (hAction : stmt.action = .loopStart) :
      Handles state task isSkipping (scheduler.handleLoopStart state task isSkipping)
  | loopEnd (hAction : stmt.action = .loopEnd) :
      Handles state task isSkipping (scheduler.handleLoopEnd state task stmt isSkipping)
  | scatter (hAction : stmt.action = .transformScatter) :
      Handles state task isSkipping (scheduler.handleScatter state task.task stmt isSkipping)
  | gather (hAction : stmt.action = .transformGather) :
      Handles state task isSkipping (scheduler.handleGather state task stmt isSkipping)
  | skip (hSkip : isSkipping = true) (hPlain : stmt.action.isPlain) :
      Handles state task isSkipping (.finish (scheduler.queueSkipped state task))
  | execute (hSkip : isSkipping = false) (hPlain : stmt.action.isPlain) :
      Handles state task isSkipping (.suspend state .executing)

variable (coroutine)

/-- What `_schedule_task` does from a state up to the handler. -/
inductive Begins : State → Segment → Prop
  | record {state : State} {segment : Segment}
      (hBegins : Begins (state.record (.scheduling coroutine.task)) segment) : Begins state segment
  | raise {state : State} (exc : Exn) : Begins state (.raise state exc false)
  | wait {state : State} {pc : PC} (hWait : pc = .runIf ∨ pc = .sleeping) :
      Begins state (.suspend state pc)
  | skip {state : State} {segment : Segment} (hHandles : Handles scheduler stmt
      (state.record (.skipping coroutine.delayed.task)) coroutine.delayed true segment) :
      Begins state segment
  | dispatch {state : State} {segment : Segment} (hHandles : Handles scheduler stmt
      (state.record (.executing coroutine.delayed.task)) coroutine.delayed false segment) :
      Begins state segment

variable {scheduler coroutine stmt}

theorem isPlain_of_ne {action : ActionType} (hStart : action ≠ .loopStart)
    (hEnd : action ≠ .loopEnd) (hScatter : action ≠ .transformScatter)
    (hGather : action ≠ .transformGather) : action.isPlain := by
  cases action <;> simp_all [ActionType.isPlain, ActionType.isOpener, ActionType.isCloser]

theorem handles_handleSkipPath {task : DelayedTask} :
    Handles scheduler stmt (state.record (.skipping task.task)) task true
      (scheduler.handleSkipPath state task stmt) := by
  unfold handleSkipPath
  split
  · exact .loopStart ‹_›
  · exact .loopEnd ‹_›
  · exact .scatter ‹_›
  · exact .gather ‹_›
  · rename_i hStart hEnd hScatter hGather
    exact .skip rfl (isPlain_of_ne hStart hEnd hScatter hGather)

theorem handles_dispatch {task : DelayedTask} :
    Handles scheduler stmt (state.record (.executing task.task)) task false
      (scheduler.dispatch state task stmt) := by
  unfold dispatch
  split
  · exact .loopStart ‹_›
  · exact .loopEnd ‹_›
  · exact .scatter ‹_›
  · exact .gather ‹_›
  · rename_i hStart hEnd hScatter hGather
    exact .execute rfl (isPlain_of_ne hStart hEnd hScatter hGather)

theorem begins_checkReachable (runIfError : Option Exn) :
    Begins scheduler coroutine stmt state
      (scheduler.checkReachable state coroutine stmt runIfError) := by
  unfold checkReachable
  split
  · exact .raise _
  · split
    · exact .raise _
    · split
      · exact .wait (Or.inr rfl)
      · exact .dispatch handles_dispatch

theorem begins_scheduleTask :
    Begins scheduler coroutine stmt state (scheduler.scheduleTask state coroutine stmt) := by
  refine .record ?_
  unfold scheduleTask
  simp only
  split
  · exact .skip handles_handleSkipPath
  · split
    · exact .wait (Or.inl rfl)
    · exact begins_checkReachable none

end Resumes

end DSLScheduler

/-- One choice of the environment. -/
inductive Event
  /-- the loop of `start()` creates a coroutine for the head of the queue -/
  | spawn
  /-- the pending coroutine at `index` goes on -/
  | resume (index : Nat) (outcome : Outcome)

namespace DSLScheduler

variable (scheduler : DSLScheduler)

/-- The effect of a segment of the coroutine at `index`: the coroutine stays
suspended, or it ends, through `_handle_error_path` when it raises, and its
task is added to the completed ones. -/
def settle (index : Nat) (coroutine : Coroutine) : Segment → State
  | .suspend state pc =>
      { state with pending := state.pending.set index { coroutine with pc := pc } }
  | .finish state =>
      { state.complete coroutine.task with pending := state.pending.eraseIdx index }
  | .raise state exc platform =>
      let state := scheduler.handleErrorPath state coroutine.delayed exc platform
      { state.complete coroutine.task with pending := state.pending.eraseIdx index }

/-- One step of the scheduler; `none` where the event is not possible. -/
def step (state : State) : Event → Option State
  | .spawn =>
      match state.queue with
      | [] => none
      | next :: rest =>
          if state.taskExceptions.entries = [] ∧
              state.pending.length < scheduler.maxPendingTasks then
            some { state with
              queue := rest
              pending := state.pending ++ [⟨next.task, next.delay, .start⟩] }
          else none
  | .resume index outcome => do
      let coroutine ← state.pending[index]?
      let stmt ← scheduler.dsl.stmt? coroutine.task.ref
      let segment ← scheduler.resume state coroutine stmt coroutine.pc outcome
      return scheduler.settle index coroutine segment

variable {scheduler} in
theorem step_spawn_eq_some {state next : State}
    (hSpawn : scheduler.step state .spawn = some next) :
    ∃ head rest, state.queue = head :: rest ∧ state.taskExceptions.entries = [] ∧
      state.pending.length < scheduler.maxPendingTasks ∧
      next = { state with
        queue := rest
        pending := state.pending ++ [⟨head.task, head.delay, .start⟩] } := by
  unfold step at hSpawn
  dsimp only at hSpawn
  split at hSpawn
  · cases hSpawn
  · next head rest hQueue =>
      split at hSpawn
      · next hFree => exact ⟨head, rest, hQueue, hFree.1, hFree.2, (Option.some.inj hSpawn).symm⟩
      · cases hSpawn

/-- The states of the runs of `start()` with a workflow context. -/
inductive Reachable (context : ExecutionContext) : State → Prop
  | init : Reachable context (State.init scheduler context)
  | step {state next : State} (event : Event) (hReach : Reachable context state)
      (hStep : scheduler.step state event = some next) : Reachable context next

/-- The state after a list of events; `none` where an event is not possible. -/
def run (state : State) : List Event → Option State
  | [] => some state
  | event :: rest => (scheduler.step state event).bind fun next => run next rest

end DSLScheduler

end Tracecat
