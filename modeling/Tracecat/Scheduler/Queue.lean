import Tracecat.Scheduler.State

/-!
# Queueing and the three exit paths

`_queue_tasks`, the reachability tests, and `_handle_success_path` and
`_handle_error_path` of `DSLScheduler`.
-/

namespace Tracecat

namespace DSLScheduler

variable (scheduler : DSLScheduler)

/-- One turn of the loop of `_queue_tasks`: mark the edge, decrement the
indegree of its destination and queue it at zero. -/
def queueNext (task : DelayedTask) (unreachable : List DSLEdge) (state : State)
    (next : AdjDst) : State :=
  let edge : DSLEdge := ⟨task.task.ref, next.1, next.2, task.task.stream⟩
  let nextTask : Task := ⟨next.1, task.task.stream⟩
  let indegree := state.indegree scheduler nextTask - 1
  { state with
    edges := state.edges.insert edge (if edge ∈ unreachable then .skipped else .visited)
    indegrees := state.indegrees.insert nextTask indegree
    queue := if indegree = 0 then state.queue ++ [⟨nextTask, task.delay⟩] else state.queue }

/-- `_queue_tasks`. -/
def queueTasks (state : State) (task : DelayedTask) (unreachable : List DSLEdge) : State :=
  (scheduler.dsl.adj task.task.ref).foldl (scheduler.queueNext task unreachable)
    (state.record (.queueing task.task))

/-- `_edge_has_marker`. -/
def edgeHasMarker (state : State) (dep : AdjDst) (dst : Ref) (marker : EdgeMarker)
    (stream : StreamID) : Bool :=
  state.marker ⟨dep.1, dst, dep.2, stream⟩ = marker

/-- `_is_reachable`. -/
def isReachable (state : State) (task : Task) (stmt : ActionStatement) : Bool :=
  match stmt.deps with
  | [] => true
  | [dep] => edgeHasMarker state dep task.ref .visited task.stream
  | deps =>
      let successPaths := (deps.filter fun dep =>
        edgeHasMarker state dep task.ref .visited task.stream).length
      match stmt.joinStrategy with
      | .any => 0 < successPaths
      | .all => successPaths = deps.length

/-- `_skip_should_propagate`. -/
def skipShouldPropagate (state : State) (task : Task) (stmt : ActionStatement) : Bool :=
  match stmt.deps with
  | [] => false
  | deps => deps.all fun dep => edgeHasMarker state dep task.ref .skipped task.stream

/-- `_handle_success_path`. -/
def handleSuccessPath (state : State) (task : DelayedTask) : State :=
  scheduler.queueTasks (state.record (.succeeded task.task)) task
    (scheduler.outEdges task.task (· ≠ .success))

/-- Queue the successors of a task with every out-edge unreachable. -/
def queueSkipped (state : State) (task : DelayedTask) : State :=
  scheduler.queueTasks state task (scheduler.outEdges task.task fun _ => true)

end DSLScheduler

/-- The `details` that `_handle_error_path` records for an exception. -/
def errorDetails (task : Task) (exc : Exn) : ActionErrorInfo :=
  let report (message : String) : ActionErrorInfo :=
    .ofMessage task.ref message exc.className task.stream
  let unparsed := "Couldn't parse error details as json."
  match exc with
  | .application _ (some (.notDict json)) =>
      report ("Application error details are not a dictionary." ++
        (json.map ("\nGot: " ++ ·)).getD unparsed)
  | .application _ (some (.regular (.ok details) _)) => details
  | .application _ (some (.regular (.error text) json)) =>
      report ("Failed to parse regular application error details: " ++ text ++ "." ++
        (json.map ("\n" ++ ·)).getD unparsed)
  | .application _ (some (.childWorkflow (some details) _)) => details
  | .application _ (some (.childWorkflow none json)) =>
      report ("Child workflow error details are not a dictionary." ++
        (json.map ("\nGot: " ++ ·)).getD unparsed)
  | .application message none => report message
  | .other _ message => report message

namespace DSLScheduler

variable (scheduler : DSLScheduler)

def hasErrorEdge (ref : Ref) : Bool :=
  (scheduler.dsl.adj ref).any fun next => next.2 = .error

/-- `_handle_error_path`. -/
def handleErrorPath (state : State) (task : DelayedTask) (exc : Exn) (failWorkflow : Bool) :
    State :=
  let state := state.record (.failing task.task exc)
  if scheduler.hasErrorEdge task.task.ref && !failWorkflow then
    scheduler.queueTasks state task (scheduler.outEdges task.task (· ≠ .error))
  else
    let info : TaskExceptionInfo := ⟨exc, errorDetails task.task exc⟩
    if task.task.stream = rootStream ∨ failWorkflow then
      { state with taskExceptions := state.taskExceptions.insert task.task.ref info }
    else
      scheduler.queueSkipped
        { state with
          streamExceptions := state.streamExceptions.insert task.task.stream info } task

end DSLScheduler

end Tracecat
