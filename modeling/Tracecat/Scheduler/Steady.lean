import Tracecat.Scheduler.Contexts
import Tracecat.Scheduler.Executions
import Tracecat.Scheduler.LoopPasses

/-!
# Steady steps

A task is due as often as it is queued, and once more while its counter has
not run out.  Nothing but a loop reset changes how often a task is due: an
emission that uses up a counter queues the task.  A step is steady when it
changes neither this nor what the loops depend on, and every handler of an
action that is no loop start and no loop end is steady.
-/

namespace Tracecat

/-- How often a task is due. -/
def Control.due (control : Control) (task : Task) : Nat :=
  control.queue.countP (fun queued => queued.task = task) +
    if 0 < control.indegree task then 1 else 0

theorem State.control_due (scheduler : DSLScheduler) (state : State) (task : Task) :
    (state.control scheduler).due task =
      state.queue.countP (fun queued => queued.task = task) +
        if 0 < state.indegree scheduler task then 1 else 0 :=
  rfl

/-- The step changes neither how often tasks are due nor the coroutines, and
drops no stream. -/
structure KeepsDue (scheduler : DSLScheduler) (before after : State) : Prop where
  due : ∀ task, (after.control scheduler).due task = (before.control scheduler).due task
  pending : after.pending = before.pending
  alive : ∀ stream, (before.streams.lookup stream).isSome →
    (after.streams.lookup stream).isSome

/-- The step leaves alone what the loops depend on. -/
structure Steady (scheduler : DSLScheduler) (before after : State) : Prop
    extends KeepsDue scheduler before after where
  indices : after.loopIndices = before.loopIndices
  events : scheduler.loopEvents after = scheduler.loopEvents before

theorem KeepsDue.trans {scheduler : DSLScheduler} {before middle after : State}
    (hFirst : KeepsDue scheduler before middle) (hSecond : KeepsDue scheduler middle after) :
    KeepsDue scheduler before after where
  due task := (hSecond.due task).trans (hFirst.due task)
  pending := hSecond.pending.trans hFirst.pending
  alive stream hAlive := hSecond.alive stream (hFirst.alive stream hAlive)

namespace Steady

variable {scheduler : DSLScheduler} {before middle after : State}

theorem refl (state : State) : Steady scheduler state state :=
  ⟨⟨fun _ => rfl, rfl, fun _ h => h⟩, rfl, rfl⟩

theorem trans (hFirst : Steady scheduler before middle)
    (hSecond : Steady scheduler middle after) : Steady scheduler before after where
  toKeepsDue := hFirst.toKeepsDue.trans hSecond.toKeepsDue
  indices := hSecond.indices.trans hFirst.indices
  events := hSecond.events.trans hFirst.events

theorem of_eq (hControl : (after.control scheduler).due = (before.control scheduler).due)
    (hPending : after.pending = before.pending) (hStreams : after.streams = before.streams)
    (hIndices : after.loopIndices = before.loopIndices) (hLog : after.log = before.log) :
    Steady scheduler before after where
  due task := congrFun hControl task
  pending := hPending
  alive stream hAlive := by rwa [hStreams]
  indices := hIndices
  events := by
    unfold DSLScheduler.loopEvents
    rw [hLog]

end Steady

/-- A steady segment; the coroutine suspends before its handler only if it was
suspended there. -/
def Segment.Steady (scheduler : DSLScheduler) (early : Bool) (before : State) :
    Segment → Prop
  | .finish after => Tracecat.Steady scheduler before after
  | .suspend after pc => Tracecat.Steady scheduler before after ∧ (pc.isEarly → early)
  | .raise after _ _ => Tracecat.Steady scheduler before after

theorem Segment.Steady.spec {scheduler : DSLScheduler} {early : Bool} {before : State}
    {segment : Segment} (hSteady : segment.Steady scheduler early before) :
    Tracecat.Steady scheduler before segment.state ∧
      ∀ after pc, segment = .suspend after pc → pc.isEarly → early := by
  cases segment with
  | finish after => exact ⟨hSteady, by simp⟩
  | suspend after pc =>
      refine ⟨hSteady.1, fun other point hSegment => ?_⟩
      cases hSegment
      exact hSteady.2
  | raise after exc platform => exact ⟨hSteady, by simp⟩

theorem Segment.Steady.trans {scheduler : DSLScheduler} {early : Bool} {before middle : State}
    {segment : Segment} (hSegment : segment.Steady scheduler early middle)
    (hFirst : Tracecat.Steady scheduler before middle) :
    segment.Steady scheduler early before := by
  cases segment with
  | finish after => exact hFirst.trans hSegment
  | suspend after pc => exact ⟨hFirst.trans hSegment.1, hSegment.2⟩
  | raise after exc platform => exact hFirst.trans hSegment

/-! ## Records, writes and streams -/

namespace State

variable {scheduler : DSLScheduler} {state : State}

theorem steady_record {entry : LogEntry} (hEntry : scheduler.isLoopEvent entry = false) :
    Steady scheduler state (state.record entry) where
  due _ := rfl
  pending := rfl
  alive _ hAlive := hAlive
  indices := rfl
  events := List.filter_cons_of_neg (by simp [hEntry])

theorem alive_writeAction (writer : Task) (stream : StreamID) (ref : Ref)
    (result : TaskResult) {other : StreamID} (hAlive : (state.streams.lookup other).isSome) :
    ((state.writeAction writer stream ref result).streams.lookup other).isSome := by
  unfold writeAction
  split
  · exact hAlive
  · simp only [Dict.lookup_insert_eq]
    split
    · rfl
    · exact hAlive

theorem keepsDue_writeAction (writer : Task) (stream : StreamID) (ref : Ref)
    (result : TaskResult) :
    KeepsDue scheduler state (state.writeAction writer stream ref result) := by
  refine ⟨fun task => ?_, ?_, fun _ => alive_writeAction writer stream ref result⟩
  · rw [control_writeAction]
  · unfold writeAction
    split <;> rfl

@[simp] theorem loopIndices_writeAction (writer : Task) (stream : StreamID) (ref : Ref)
    (result : TaskResult) :
    (state.writeAction writer stream ref result).loopIndices = state.loopIndices := by
  unfold writeAction
  split <;> rfl

theorem steady_writeAction (writer : Task) (stream : StreamID) {ref : Ref}
    (result : TaskResult) (hRef : scheduler.hasType ref .loopStart = false) :
    Steady scheduler state (state.writeAction writer stream ref result) := by
  refine ⟨keepsDue_writeAction writer stream ref result,
    loopIndices_writeAction writer stream ref result, ?_⟩
  unfold writeAction
  split
  · rfl
  · exact List.filter_cons_of_neg (by simp [DSLScheduler.isLoopEvent, hRef])

theorem steady_openStream (writer : Task) (stream parent : StreamID)
    (actions : Dict Ref TaskResult) :
    Steady scheduler state (state.openStream writer stream parent actions) where
  due _ := rfl
  pending := rfl
  alive other hAlive := by
    simp only [openStream, Dict.lookup_insert_eq]
    split
    · rfl
    · exact hAlive
  indices := rfl
  events := List.filter_cons_of_neg (by simp [DSLScheduler.isLoopEvent])

theorem steady_taskStreams (listed : Dict Task (List StreamID)) :
    Steady scheduler state { state with taskStreams := listed } :=
  .of_eq rfl rfl rfl rfl rfl

end State

/-! ## Emissions -/

namespace DSLScheduler

variable (scheduler : DSLScheduler) (state : State)

theorem countP_released (released : List Ref) (stream : StreamID) (delay : Int)
    (task : Task) :
    (released.map fun ref => (⟨⟨ref, stream⟩, delay⟩ : DelayedTask)).countP
        (fun queued => queued.task = task) =
      if task.stream = stream then released.count task.ref else 0 := by
  obtain ⟨ref, own⟩ := task
  rw [List.countP_map, List.count]
  by_cases hStream : own = stream
  · subst hStream
    rw [if_pos rfl]
    refine List.countP_congr fun other _ => ?_
    simp
  · rw [if_neg hStream, List.countP_eq_zero]
    intro other _
    have hNe : ¬ stream = own := fun h => hStream h.symm
    simp [hNe]

theorem due_queueTasks (task : DelayedTask) (unreachable : List DSLEdge) (next : Task) :
    ((scheduler.queueTasks state task unreachable).control scheduler).due next =
      (state.control scheduler).due next := by
  obtain ⟨-, hIndegree, hQueue, -⟩ := scheduler.queueNext_foldl task unreachable
    (scheduler.dsl.adj task.task.ref) (state.record (.queueing task.task))
  have hCredit := Countdown.count_released
    (fun ref => state.indegree scheduler ⟨ref, task.task.stream⟩)
    ((scheduler.dsl.adj task.task.ref).map Prod.fst) next.ref
  rw [Countdown.foldl_tick_apply] at hCredit
  have hNext : (scheduler.queueTasks state task unreachable).indegree scheduler next = _ :=
    hIndegree next
  have hQueued : (scheduler.queueTasks state task unreachable).queue = _ := hQueue
  rw [State.control_due, State.control_due, hNext, hQueued, List.countP_append,
    countP_released]
  obtain ⟨ref, stream⟩ := next
  by_cases hStream : stream = task.task.stream
  · subst hStream
    simp only [if_true] at hCredit ⊢
    rw [Nat.add_assoc]
    exact congrArg _ hCredit
  · simp only [if_neg hStream]
    rfl

theorem steady_queueTasks (task : DelayedTask) (unreachable : List DSLEdge) :
    Steady scheduler state (scheduler.queueTasks state task unreachable) := by
  have hFrame := scheduler.queueTasks_frame state task unreachable
  refine ⟨⟨scheduler.due_queueTasks state task unreachable, ?_, fun stream hAlive => ?_⟩, ?_, ?_⟩
  · rw [hFrame]
  · rw [hFrame]
    exact hAlive
  · rw [hFrame]
  · rw [hFrame]
    exact List.filter_cons_of_neg (by simp [isLoopEvent])

theorem steady_queueSkipped (task : DelayedTask) :
    Steady scheduler state (scheduler.queueSkipped state task) :=
  scheduler.steady_queueTasks state task _

theorem steady_handleSuccessPath (task : DelayedTask)
    (hEnd : scheduler.hasType task.task.ref .loopEnd = false) :
    Steady scheduler state (scheduler.handleSuccessPath state task) :=
  (State.steady_record (by simp [isLoopEvent, hEnd])).trans
    (scheduler.steady_queueTasks _ task _)

theorem steady_handleErrorPath (task : DelayedTask) (exc : Exn) (failWorkflow : Bool) :
    Steady scheduler state (scheduler.handleErrorPath state task exc failWorkflow) := by
  have hFailing : Steady scheduler state (state.record (.failing task.task exc)) :=
    State.steady_record rfl
  unfold handleErrorPath
  simp only
  split
  · exact hFailing.trans (scheduler.steady_queueTasks _ task _)
  · split
    · exact hFailing.trans (.of_eq rfl rfl rfl rfl rfl)
    · refine hFailing.trans (.trans ?_ (scheduler.steady_queueSkipped _ task))
      exact .of_eq rfl rfl rfl rfl rfl

end DSLScheduler

/-! ## The handlers of actions that are no loop start and no loop end -/

namespace DSLScheduler

variable (scheduler : DSLScheduler) {state : State} {stmt : ActionStatement} {early : Bool}

/-! ### Scatters -/

theorem steady_handleScatterSkipStream (task : Task) :
    Steady scheduler state (scheduler.handleScatterSkipStream state task) :=
  (State.steady_openStream ..).trans (scheduler.steady_queueSkipped _ _)

theorem steady_handleScatter (task : Task) (isSkipping : Bool) :
    (scheduler.handleScatter state task stmt isSkipping).Steady scheduler early state := by
  unfold handleScatter
  cases isSkipping with
  | true => exact scheduler.steady_handleScatterSkipStream task
  | false =>
      simp only [Bool.false_eq_true, if_false]
      split
      · exact .refl state
      · split
        · exact .refl state
        · exact ⟨.refl state, by simp [PC.isEarly]⟩

theorem steady_scatterItem (task : Task) (interval : Option Int)
    (collection : StoredObject Json) (streams : List StreamID) :
    Steady scheduler state (scheduler.scatterItem state task interval collection streams) := by
  unfold scatterItem
  refine .trans ?_ (scheduler.steady_queueTasks _ _ _)
  exact (State.steady_openStream task _ task.stream _).trans (State.steady_taskStreams _)

theorem steady_scatterNext (task : Task) (collection : StoredObject Json) (size : Nat)
    (streams : List StreamID) :
    (scheduler.scatterNext state task stmt collection size streams).Steady scheduler early
      state := by
  unfold scatterNext
  split
  · exact ⟨scheduler.steady_scatterItem task _ collection streams, by simp [PC.isEarly]⟩
  · exact .of_eq rfl rfl rfl rfl rfl

theorem steady_beginScatter (task : Task) (collection : StoredObject Json) :
    (scheduler.beginScatter state task stmt collection).Steady scheduler early state := by
  have hListed : Steady scheduler state
      { state with taskStreams := state.taskStreams.insert task [] } :=
    State.steady_taskStreams _
  unfold beginScatter
  simp only
  split
  · exact hListed
  · refine hListed.trans (.trans ?_ (scheduler.steady_handleScatterSkipStream task))
    exact .of_eq rfl rfl rfl rfl rfl
  · refine (scheduler.steady_scatterNext task collection _ []).trans (hListed.trans ?_)
    exact State.steady_record rfl

/-! ### Gathers -/

theorem steady_gathers {task : Task} {parent : StreamID} {segment : Segment}
    (hGathers : segment.Gathers task parent state)
    (hStart : scheduler.hasType task.ref .loopStart = false) :
    segment.Steady scheduler early state := by
  have hSteady {after : State} (hAfter : Gathers task parent state after) :
      Steady scheduler state after := by
    induction hAfter with
    | refl => exact .refl state
    | close _ _ _ ih => exact ih.trans (.of_eq rfl rfl rfl rfl rfl)
    | list _ _ ih => exact ih.trans (State.steady_taskStreams _)
    | write result _ ih => exact ih.trans (State.steady_writeAction task parent _ hStart)
    | collected _ _ ih | finalizing _ _ ih => exact ih.trans (State.steady_record rfl)
  cases hGathers with
  | finalize _ _ hAfter => exact ⟨hSteady hAfter, by simp [PC.isEarly]⟩
  | _ => exact hSteady ‹_›

theorem steady_beginsGather {task : DelayedTask} {segment : Segment}
    (hBegins : BeginsGather scheduler state task segment)
    (hStart : scheduler.hasType task.task.ref .loopStart = false) :
    segment.Steady scheduler early state := by
  cases hBegins with
  | raise => exact .refl state
  | skip => exact scheduler.steady_queueSkipped state task
  | empty => exact ⟨State.steady_record rfl, by simp [PC.isEarly]⟩
  | item => exact ⟨.refl state, by simp [PC.isEarly]⟩
  | close _ hGathers => exact scheduler.steady_gathers hGathers hStart

theorem steady_finishGatherResult (task : Task) (parent : StreamID) (taskResult : TaskResult)
    (result : StoredObject Datum) (errors : List ActionErrorInfo)
    (hStart : scheduler.hasType task.ref .loopStart = false) :
    (finishGatherResult state task stmt parent taskResult result errors).Steady scheduler early
      state := by
  unfold finishGatherResult
  simp only
  split
  · exact .of_eq rfl rfl rfl rfl rfl
  · refine ⟨?_, by simp [PC.isEarly]⟩
    exact (State.steady_writeAction _ parent _ hStart).trans
      ((State.steady_record rfl).trans (State.steady_record rfl))

theorem steady_finishEmptyGather (task : DelayedTask) (parent : StreamID)
    (result : StoredObject Datum)
    (hStart : scheduler.hasType task.task.ref .loopStart = false) :
    (scheduler.finishEmptyGather state task parent result).Steady scheduler early state :=
  ((State.steady_writeAction _ parent _ hStart).trans (State.steady_record rfl)).trans
    (scheduler.steady_queueTasks _ _ _)

/-! ### Plain actions -/

theorem steady_finishExecute (task : DelayedTask) (result : TaskResult)
    (hStart : scheduler.hasType task.task.ref .loopStart = false)
    (hEnd : scheduler.hasType task.task.ref .loopEnd = false) :
    (scheduler.finishExecute state task stmt result).Steady scheduler early state := by
  unfold finishExecute
  split
  · exact .refl state
  · have hOwn : Steady scheduler state
        (state.writeAction task.task task.task.stream task.task.ref result) :=
      State.steady_writeAction _ _ _ hStart
    simp only
    split
    · exact hOwn.trans (scheduler.steady_handleSuccessPath _ task hEnd)
    · exact ⟨hOwn.trans (State.steady_writeAction _ _ _ hStart), by simp [PC.isEarly]⟩

theorem steady_failExecute (task : Task) (written : Option TaskResult) (exc : Exn)
    (platform : Bool) (hStart : scheduler.hasType task.ref .loopStart = false) :
    (failExecute state task written exc platform).Steady scheduler early state := by
  unfold failExecute
  split
  · exact .refl state
  · split
    · exact .refl state
    · exact State.steady_writeAction _ _ _ hStart

/-! ### `_schedule_task` -/

theorem steady_handles {task : DelayedTask} {isSkipping : Bool} {segment : Segment}
    (hHandles : Handles scheduler stmt state task isSkipping segment)
    (hStart : stmt.action ≠ .loopStart) (hEnd : stmt.action ≠ .loopEnd)
    (hStartRef : scheduler.hasType task.task.ref .loopStart = false) :
    segment.Steady scheduler early state := by
  cases hHandles with
  | loopStart hAction => exact absurd hAction hStart
  | loopEnd hAction => exact absurd hAction hEnd
  | scatter => exact scheduler.steady_handleScatter task.task _
  | gather => exact scheduler.steady_beginsGather (beginsGather task _) hStartRef
  | skip => exact scheduler.steady_queueSkipped _ task
  | execute => exact ⟨.refl state, by simp [PC.isEarly]⟩

theorem steady_begins {coroutine : Coroutine} {segment : Segment}
    (hBegins : Begins scheduler coroutine stmt state segment)
    (hStart : stmt.action ≠ .loopStart) (hEnd : stmt.action ≠ .loopEnd)
    (hStartRef : scheduler.hasType coroutine.task.ref .loopStart = false)
    (hEndRef : scheduler.hasType coroutine.task.ref .loopEnd = false) :
    segment.Steady scheduler true state := by
  induction hBegins with
  | record _ ih => exact ih.trans (State.steady_record rfl)
  | @raise state => exact .refl state
  | @wait state => exact ⟨.refl state, fun _ => rfl⟩
  | skip hHandles =>
      exact (scheduler.steady_handles hHandles hStart hEnd hStartRef).trans
        (State.steady_record (by simp [isLoopEvent, hEndRef]))
  | dispatch hHandles =>
      exact (scheduler.steady_handles hHandles hStart hEnd hStartRef).trans
        (State.steady_record rfl)

theorem resume_steady {coroutine : Coroutine} {outcome : Outcome} {segment : Segment}
    (hFits : coroutine.pc.fits stmt.action)
    (hStart : stmt.action ≠ .loopStart) (hEnd : stmt.action ≠ .loopEnd)
    (hStartRef : scheduler.hasType coroutine.task.ref .loopStart = false)
    (hEndRef : scheduler.hasType coroutine.task.ref .loopEnd = false)
    (hResume : scheduler.resume state coroutine stmt coroutine.pc outcome = some segment) :
    segment.Steady scheduler coroutine.pc.isEarly state := by
  have hBegins {segment : Segment} (hBegins : Begins scheduler coroutine stmt state segment) :=
    scheduler.steady_begins hBegins hStart hEnd hStartRef hEndRef
  have hResumes := resumes_of_resume hResume
  generalize coroutine.pc = pc at hFits hResumes ⊢
  cases hResumes with
  | starts => exact hBegins begins_scheduleTask
  | skips => exact hBegins (.skip handles_handleSkipPath)
  | runs | runIfRaises => exact hBegins (begins_checkReachable _)
  | wakes => exact hBegins (.dispatch handles_dispatch)
  | returns result =>
      exact scheduler.steady_finishExecute coroutine.delayed _ hStartRef hEndRef
  | fails written exc platform =>
      exact scheduler.steady_failExecute coroutine.task _ _ _ hStartRef
  | succeeds result => exact scheduler.steady_handleSuccessPath state coroutine.delayed hEndRef
  | retries result => exact ⟨.refl state, by simp [PC.isEarly]⟩
  | loopStarts => exact absurd (by simpa [PC.fits] using hFits) hStart
  | loopDecides | loopEnds => exact absurd (by simpa [PC.fits] using hFits) hEnd
  | scatters stored => exact scheduler.steady_beginScatter coroutine.task _
  | scattersNext collection size streams =>
      exact scheduler.steady_scatterNext coroutine.task collection size streams
  | gathers parent stored =>
      exact scheduler.steady_gathers (gathers_storeGatherItem _) hStartRef
  | finalizes parent taskResult items result errors =>
      exact scheduler.steady_finishGatherResult coroutine.task parent taskResult _ _ hStartRef
  | finalizesEmpty parent result errors =>
      exact scheduler.steady_finishEmptyGather coroutine.delayed parent _ hStartRef
  | gathered parent => exact scheduler.steady_queueTasks state _ _
  | raises hError => exact .refl state

end DSLScheduler

end Tracecat
