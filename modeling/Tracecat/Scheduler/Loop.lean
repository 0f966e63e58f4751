import Tracecat.Scheduler.Queue

/-!
# Loop regions

`_cleanup_loop_descendant_streams`, `_reset_loop_iteration_state`,
`_handle_loop_start` and `_handle_loop_end`.  A handler that awaits returns
the `PC` it suspends at; `Tracecat.Scheduler.Step` resumes it.
-/

namespace Tracecat

namespace State

variable (state : State)

/-- The streams recorded by the scatters of the region in `stream` or below. -/
def regionStreams (region : LoopRegion) (stream : StreamID) : List StreamID :=
  (state.taskStreams.entries.filter fun entry =>
    decide (entry.1.ref ∈ region.members) && stream.within entry.1.stream).flatMap Sigma.snd

/-- `while changed: ...`: add the streams whose parent is already listed.  A
pass that changes something adds a stream of the hierarchy, so the size of the
hierarchy bounds the number of passes. -/
def withDescendants : Nat → List StreamID → List StreamID
  | 0, found => found
  | fuel + 1, found =>
      let added := (state.streamHierarchy.entries.filter fun entry =>
        (match entry.2 with
          | some parent => decide (parent ∈ found)
          | none => false) && decide (entry.1 ∉ found)).map Sigma.fst
      if added.isEmpty then found else withDescendants fuel (found ++ added)

/-- `streams_to_remove`. -/
def streamsToRemove (region : LoopRegion) (stream : StreamID) : List StreamID :=
  state.withDescendants state.streamHierarchy.entries.length
    (state.regionStreams region stream)

/-- `_cleanup_loop_descendant_streams`. -/
def cleanupLoopDescendantStreams (region : LoopRegion) (stream : StreamID) : State :=
  if (state.regionStreams region stream).isEmpty then state
  else
    let removed := state.streamsToRemove region stream
    let kept (candidate : StreamID) : Bool := decide (candidate ∉ removed)
    { state with
      streams := state.streams.filterKeys kept
      streamHierarchy := state.streamHierarchy.filterKeys kept
      streamExceptions := state.streamExceptions.filterKeys kept
      completedTasks := state.completedTasks.filter fun task => kept task.stream
      indegrees := state.indegrees.filterKeys fun task => kept task.stream
      edges := state.edges.filterKeys fun edge => kept edge.stream
      taskStreams := state.taskStreams.filterKeys fun task => kept task.stream
      openStreams := state.openStreams.filterKeys fun task => kept task.stream
      log := .dropped ⟨region.endRef, stream⟩ removed :: state.log }

end State

namespace DSLScheduler

variable (scheduler : DSLScheduler)

/-- `internal_deps`: the dependencies whose source is a member of the region. -/
def internalDeps (region : LoopRegion) (stmt : ActionStatement) : Nat :=
  (stmt.deps.filter fun dep => decide (dep.1 ∈ region.members)).length

/-- The indegree reset of one member. -/
def resetIndegree (region : LoopRegion) (stream : StreamID) (indegrees : Dict Task Int)
    (ref : Ref) : Dict Task Int :=
  match scheduler.dsl.stmt? ref with
  | none => indegrees
  | some stmt => indegrees.insert ⟨ref, stream⟩ (internalDeps region stmt : Int)

/-- `_reset_loop_iteration_state`.  An edge whose marker goes back to the
default `PENDING` is dropped from the mapping. -/
def resetLoopIterationState (state : State) (region : LoopRegion) (stream : StreamID) :
    State :=
  let state := state.cleanupLoopDescendantStreams region stream
  let inRegion (task : Task) : Bool :=
    decide (task.ref ∈ region.members) && decide (task.stream = stream)
  { state with
    taskStreams := state.taskStreams.filterKeys fun task => !inRegion task
    openStreams := state.openStreams.filterKeys fun task => !inRegion task
    edges := state.edges.filterKeys fun edge =>
      !(decide (edge.stream = stream) && decide (edge.src ∈ region.members) &&
        decide (edge.dst ∈ region.members))
    completedTasks := state.completedTasks.filter fun task => !inRegion task
    indegrees := region.members.foldl (scheduler.resetIndegree region stream) state.indegrees
    loopIndices := state.loopIndices.filterKeys fun key =>
      !(decide (key.1 ∈ region.members) && stream.within key.2)
    log := .reset region.startRef stream :: state.log }

/-- `_handle_loop_start`, up to `await self._execute`. -/
def handleLoopStart (state : State) (task : DelayedTask) (isSkipping : Bool) : Segment :=
  let loopKey := (task.task.ref, task.task.stream)
  if isSkipping then
    let state :=
      { state with
        loopStartSkips :=
          if loopKey ∈ state.loopStartSkips then state.loopStartSkips
          else loopKey :: state.loopStartSkips }
    .finish (scheduler.queueSkipped state task)
  else
    let state := { state with loopStartSkips := state.loopStartSkips.filter (· ≠ loopKey) }
    let index := state.loopIndices.getD loopKey 0
    match state.streams.lookup task.task.stream with
    | none => .raise state (.keyError task.task.stream.text) false
    | some _ =>
        .suspend
          (state.writeAction task.task task.task.stream task.task.ref
            (.fromResult (.json (.obj [("iteration", .int index)]))))
          .loopStartExec

/-- `_handle_loop_start`, after `await self._execute`. -/
def finishLoopStart (state : State) (task : DelayedTask) : Segment :=
  .finish (scheduler.handleSuccessPath state task)

/-- `LoopEndArgs(**stmt.args)` with the platform cap checked first. -/
def loopEndArgs (stmt : ActionStatement) : Except Exn LoopEndArgs :=
  match stmt.args with
  | .loopEnd args =>
      if maxDoWhileIterations < args.maxIterations then
        .error (.application
          ("Loop max_iterations exceeds platform cap: " ++ toString args.maxIterations ++
            " > " ++ toString maxDoWhileIterations ++ ".") none)
      else if args.maxIterations < 1 then .error (.validationError "LoopEndArgs")
      else .ok args
  | _ => .error (.validationError "LoopEndArgs")

/-- The result that `_handle_loop_end` stores for its own ref. -/
def continueResult (shouldContinue : Bool) : TaskResult :=
  .fromResult (.json (.obj [("continue", .bool shouldContinue)]))

/-- `_handle_loop_end`, up to the evaluation of `condition`, and to its end
when the task is skipped. -/
def handleLoopEnd (state : State) (task : DelayedTask) (stmt : ActionStatement)
    (isSkipping : Bool) : Segment :=
  match scheduler.regionByEnd? task.task.ref with
  | none => .raise state (.other "RuntimeError"
      ("Unknown loop end action: " ++ task.task.ref)) false
  | some region =>
      match loopEndArgs stmt with
      | .error exc => .raise state exc false
      | .ok _ =>
          let loopKey := (region.startRef, task.task.stream)
          let currentIndex := state.loopIndices.getD loopKey 0
          if isSkipping then
            let propagated := decide (loopKey ∈ state.loopStartSkips)
            let state :=
              if propagated then
                { state with loopStartSkips := state.loopStartSkips.filter (· ≠ loopKey) }
              else state
            match state.streams.lookup task.task.stream with
            | none => .raise state (.keyError task.task.stream.text) false
            | some _ =>
                let state := state.writeAction task.task task.task.stream task.task.ref
                  (continueResult false)
                let state := { state with loopIndices := state.loopIndices.erase loopKey }
                if propagated then .finish (scheduler.queueSkipped state task)
                else .finish (scheduler.handleSuccessPath state task)
          else .suspend state (.loopEndCond currentIndex)

/-- `_handle_loop_end`, from the value of `condition` to `await self._execute`. -/
def decideLoopEnd (state : State) (task : Task) (currentIndex : Nat)
    (shouldContinue : Bool) : Segment :=
  match state.streams.lookup task.stream with
  | none => .raise state (.keyError task.stream.text) false
  | some _ =>
      .suspend
        (state.writeAction task task.stream task.ref (continueResult shouldContinue))
        (.loopEndExec currentIndex shouldContinue)

/-- `_handle_loop_end`, after `await self._execute`. -/
def finishLoopEnd (state : State) (task : DelayedTask) (stmt : ActionStatement)
    (currentIndex : Nat) (shouldContinue : Bool) : Segment :=
  match scheduler.regionByEnd? task.task.ref, loopEndArgs stmt with
  | some region, .ok args =>
      let loopKey := (region.startRef, task.task.stream)
      if shouldContinue then
        let nextIndex := currentIndex + 1
        if args.maxIterations ≤ nextIndex then
          .raise state (.application
            ("Loop '" ++ task.task.ref ++ "' exceeded max_iterations=" ++
              toString args.maxIterations ++
              ". Update `condition` or increase `max_iterations`.") none) false
        else
          let state := scheduler.resetLoopIterationState state region task.task.stream
          .finish
            { state with
              loopIndices := state.loopIndices.insert loopKey nextIndex
              queue := state.queue ++ [⟨⟨region.startRef, task.task.stream⟩, 0⟩] }
      else
        .finish (scheduler.handleSuccessPath
          { state with loopIndices := state.loopIndices.erase loopKey } task)
  | none, _ => .raise state (.other "RuntimeError"
      ("Unknown loop end action: " ++ task.task.ref)) false
  | _, .error exc => .raise state exc false

end DSLScheduler

end Tracecat
