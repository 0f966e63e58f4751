import Mathlib.Data.List.Sort
import Tracecat.Dsl.Validation
import Tracecat.Dsl.Values

/-!
# State of the scheduler

The attributes of `DSLScheduler` (`dsl/scheduler.py`), split into those fixed
by the constructor (`DSLScheduler`) and those it mutates (`State`), and the
suspended coroutines of `start()`.  A coroutine suspends exactly where
`_schedule_task` and its handlers await an operation that can yield to the
event loop; everything between two such points is one step.
-/

namespace Tracecat

/-- `LoopRegion`. -/
structure LoopRegion where
  startRef : Ref
  endRef : Ref
  members : List Ref
  deriving DecidableEq, Repr

/-- The reasons for which the constructor raises. -/
inductive SchedulerError
  | maxPendingTasks
  | invalidDep (ref : Ref)
  | dsl (error : DSLError)
  | noLoopBody (ref : Ref)
  | loopEndManyScopes (ref : Ref)
  | unmatchedLoopEnd (ref : Ref)
  | multipleLoopEnds (scope : Scope)
  deriving DecidableEq, Repr

/-- `_adj_sort_key` as an order: by destination, then by edge type. -/
def adjLe (first second : AdjDst) : Bool :=
  first.1 < second.1 || (first.1 = second.1 && first.2.value ≤ second.2.value)

namespace DSLInput

/-- `self.adj[ref]`: the distinct typed successors, sorted. -/
def adj (dsl : DSLInput) (ref : Ref) : List AdjDst :=
  (dsl.toTypedAdjacency ref).dedup.insertionSort fun first second => adjLe first second

/-- The members of a loop region: the actions whose scope descends from the
loop scope, and the loop end. -/
def loopMembers (assigned : ActionScopes) (loopScope : Scope) (endRef : Ref) : List Ref :=
  let inside := (assigned.scopes.entries.filter fun item =>
    assigned.isDescendant item.2 loopScope).map Sigma.fst
  if endRef ∈ inside then inside else inside ++ [endRef]

/-- One turn of `_build_loop_regions`. -/
def addLoopRegion (dsl : DSLInput) (assigned : ActionScopes) (regions : Dict Ref LoopRegion)
    (stmt : ActionStatement) : Except SchedulerError (Dict Ref LoopRegion) :=
  if stmt.action ≠ .loopEnd then .ok regions
  else if stmt.dependsOn.isEmpty then .error (.noLoopBody stmt.ref)
  else
    match depScopes assigned stmt with
    | [.opened startRef] =>
        match dsl.stmt? startRef with
        | none => .error (.unmatchedLoopEnd stmt.ref)
        | some startStmt =>
            if startStmt.action ≠ .loopStart then .error (.unmatchedLoopEnd stmt.ref)
            else if (regions.lookup startRef).isSome then
              .error (.multipleLoopEnds (.opened startRef))
            else
              .ok (regions.insert startRef
                { startRef := startRef
                  endRef := stmt.ref
                  members := loopMembers assigned (.opened startRef) stmt.ref })
    | [.root] => .error (.unmatchedLoopEnd stmt.ref)
    | _ => .error (.loopEndManyScopes stmt.ref)

/-- `_build_loop_regions`. -/
def buildLoopRegions (dsl : DSLInput) (assigned : ActionScopes) :
    Except SchedulerError (Dict Ref LoopRegion) :=
  dsl.actions.foldlM (dsl.addLoopRegion assigned) ∅

end DSLInput

/-- The attributes that the constructor computes and no method changes.
`validateStored` is pydantic's validation of a raw value as a `StoredObject`. -/
structure DSLScheduler where
  dsl : DSLInput
  maxPendingTasks : Nat
  assigned : ActionScopes
  loopRegions : Dict Ref LoopRegion
  validateStored : Json → Option (StoredObject Json)

namespace DSLScheduler

/-- `DSLScheduler.__init__`, the part that can raise. -/
def new (dsl : DSLInput) (maxPendingTasks : Nat)
    (validateStored : Json → Option (StoredObject Json)) :
    Except SchedulerError DSLScheduler :=
  if maxPendingTasks < 1 then .error .maxPendingTasks
  else
    match dsl.actions.find? fun stmt =>
        stmt.dependsOn.any fun dep => edgeComponentsFromDep dep = none with
    | some stmt => .error (.invalidDep stmt.ref)
    | none =>
        match dsl.assignActionScopes with
        | .error error => .error (.dsl error)
        | .ok assigned => do
            let regions ← dsl.buildLoopRegions assigned
            .ok { dsl := dsl
                  maxPendingTasks := maxPendingTasks
                  assigned := assigned
                  loopRegions := regions
                  validateStored := validateStored }

variable (scheduler : DSLScheduler)

/-- `self.loop_regions_by_end[ref]`. -/
def regionByEnd? (ref : Ref) : Option LoopRegion :=
  (scheduler.loopRegions.entries.map Sigma.snd).find? fun region => region.endRef = ref

/-- `len(self.tasks[ref].depends_on)`. -/
def dependsOnLength (ref : Ref) : Nat :=
  match scheduler.dsl.stmt? ref with
  | none => 0
  | some stmt => stmt.dependsOn.length

/-- `{DSLEdge(ref, dst, type, stream) for dst, type in self.adj[ref] if keep(type)}`. -/
def outEdges (task : Task) (keep : EdgeType → Bool) : List DSLEdge :=
  ((scheduler.dsl.adj task.ref).filter fun next => keep next.2).map fun next =>
    ⟨task.ref, next.1, next.2, task.stream⟩

end DSLScheduler

/-- Where a coroutine of `_schedule_task` is suspended.  The fields are the
local variables that it still needs. -/
inductive PC
  /-- created by `asyncio.create_task`, not started -/
  | start
  /-- `await self._task_should_skip` -/
  | runIf
  /-- `await asyncio.sleep(original_delay)` -/
  | sleeping
  /-- `await self._execute` of a plain action -/
  | executing
  /-- the `retry_until` condition of the attempt that returned `result` -/
  | retryUntil (result : TaskResult)
  /-- `await self._execute` in `_handle_loop_start` -/
  | loopStartExec
  /-- the `condition` of `_handle_loop_end` -/
  | loopEndCond (currentIndex : Nat)
  /-- `await self._execute` in `_handle_loop_end` -/
  | loopEndExec (currentIndex : Nat) (shouldContinue : Bool)
  /-- `handle_scatter_input_activity` -/
  | scatterInput
  /-- `await asyncio.sleep(0)` in `cooperative`, after `streams` were created -/
  | scatterLoop (collection : StoredObject Json) (size : Nat) (streams : List StreamID)
  /-- `evaluate_templated_object_activity` in `_handle_gather` -/
  | gatherItem (parent : StreamID)
  /-- `finalize_gather_activity` in `_handle_gather_result` -/
  | gatherFinalize (parent : StreamID) (result : TaskResult) (items : List (StoredObject Json))
  /-- `finalize_gather_activity` for an empty collection -/
  | gatherEmpty (parent : StreamID)
  /-- `await self._execute(parent_gather, stmt)` -/
  | gatherExec (parent : StreamID)

/-- A pending coroutine of `_schedule_task(task)`; `delay` is the delay the
task was queued with. -/
structure Coroutine where
  task : Task
  delay : Int
  pc : PC

/-- What the scheduler reports as it runs: its log records, its activity calls
and the context entries it writes. -/
inductive LogEntry
  /-- "Scheduling task" -/
  | scheduling (task : Task)
  /-- "Handling skip path" -/
  | skipping (task : Task)
  /-- the task is reachable and not skipped -/
  | executing (task : Task)
  /-- "Handling success path" -/
  | succeeded (task : Task)
  /-- "Handling error path" -/
  | failing (task : Task) (exc : Exn)
  /-- "Queueing tasks" -/
  | queueing (task : Task)
  /-- "Scattering collection" -/
  | scattered (task : Task) (size : Nat)
  /-- the slot that a stream's gather stores for its stream index -/
  | collected (gather : Task) (slot : GatherSlot)
  /-- `finalize_gather_activity` is called for a gather of the parent stream -/
  | finalizing (gather : Task) (items : List (StoredObject Json))
  /-- "Gather complete. Go back up to parent stream" -/
  | gathered (gather : Task)
  /-- `_reset_loop_iteration_state` -/
  | reset (startRef : Ref) (stream : StreamID)
  /-- a stream context is created with the given entries -/
  | opened (writer : Task) (stream : StreamID) (actions : Dict Ref TaskResult)
  /-- an `ACTIONS` entry is written; `writer` is the task whose result it is -/
  | wrote (writer : Task) (stream : StreamID) (ref : Ref) (result : TaskResult)
  /-- stream contexts are dropped -/
  | dropped (writer : Task) (streams : List StreamID)

/-- The mutable attributes of `DSLScheduler`, with the pending coroutines of
`start()` and the log, newest entry first. -/
structure State where
  queue : List DelayedTask := []
  pending : List Coroutine := []
  indegrees : Dict Task Int := ∅
  completedTasks : List Task := []
  edges : Dict DSLEdge EdgeMarker := ∅
  taskExceptions : Dict Ref TaskExceptionInfo := ∅
  streamExceptions : Dict StreamID TaskExceptionInfo := ∅
  loopIndices : Dict (Ref × StreamID) Nat := ∅
  loopStartSkips : List (Ref × StreamID) := []
  streams : Dict StreamID ExecutionContext := ∅
  streamHierarchy : Dict StreamID (Option StreamID) := ∅
  taskStreams : Dict Task (List StreamID) := ∅
  openStreams : Dict Task Int := ∅
  log : List LogEntry := []

namespace State

/-- `self.edges[edge]`. -/
def marker (state : State) (edge : DSLEdge) : EdgeMarker :=
  state.edges.getD edge .pending

/-- `self.indegrees[task]`, after the dynamic default of `_queue_tasks`. -/
def indegree (scheduler : DSLScheduler) (state : State) (task : Task) : Int :=
  state.indegrees.getD task (scheduler.dependsOnLength task.ref)

def record (state : State) (entry : LogEntry) : State :=
  { state with log := entry :: state.log }

/-- `self.completed_tasks.add(task)`. -/
def complete (state : State) (task : Task) : State :=
  { state with
    completedTasks :=
      if task ∈ state.completedTasks then state.completedTasks
      else task :: state.completedTasks }

/-- `context["ACTIONS"][ref] = result` on the context of a stream. -/
def writeAction (state : State) (writer : Task) (stream : StreamID) (ref : Ref)
    (result : TaskResult) : State :=
  match state.streams.lookup stream with
  | none => state
  | some context =>
      { state with
        streams := state.streams.insert stream
          { context with actions := context.actions.insert ref result }
        log := .wrote writer stream ref result :: state.log }

/-- Creation of a stream: its parent and its context. -/
def openStream (state : State) (writer : Task) (stream parent : StreamID)
    (actions : Dict Ref TaskResult) : State :=
  { state with
    streamHierarchy := state.streamHierarchy.insert stream (some parent)
    streams := state.streams.insert stream { actions := actions }
    log := .opened writer stream actions :: state.log }

/-- The state after `__init__` and the first loop of `start()`. -/
def init (scheduler : DSLScheduler) (context : ExecutionContext) : State where
  indegrees := scheduler.dsl.actions.foldl
    (fun indegrees stmt =>
      indegrees.insert ⟨stmt.ref, rootStream⟩ (stmt.dependsOn.length : Int)) ∅
  queue := (scheduler.dsl.actions.filter fun stmt => stmt.dependsOn.length = 0).map
    fun stmt => ⟨⟨stmt.ref, rootStream⟩, 0⟩
  streams := (∅ : Dict StreamID ExecutionContext).insert rootStream context
  streamHierarchy := (∅ : Dict StreamID (Option StreamID)).insert rootStream none

/-- `start()` returns `None`: nothing queued, nothing pending, no exception. -/
def Finished (state : State) : Prop :=
  state.queue = [] ∧ state.pending = [] ∧ state.taskExceptions.entries = []

end State

/-- How a step of a coroutine ends. -/
inductive Segment
  /-- the coroutine returns -/
  | finish (state : State)
  /-- the coroutine awaits the operation of `pc` -/
  | suspend (state : State) (pc : PC)
  /-- an exception reaches the handler of `_schedule_task`; `platform` marks a
  `PlatformExecutionError` -/
  | raise (state : State) (exc : Exn) (platform : Bool)

end Tracecat
