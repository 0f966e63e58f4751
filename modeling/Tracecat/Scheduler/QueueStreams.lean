import Tracecat.Scheduler.History

/-!
# The streams of queued tasks

A step of a task queues tasks in the stream of the task, in the streams that it creates below
it, and, when the task is a gather, in the stream above.
-/

namespace Tracecat

/-- The streams that a step of `task` sends tasks to. -/
def Task.SendsTo (task : Task) (state : State) (stream : StreamID) : Prop :=
  stream = task.stream ∨ (∃ scope index, task.stream = .child stream scope index) ∨
    ((∃ index, stream = .child task.stream task.ref index) ∧
      state.streamHierarchy.lookup stream ≠ none)

/-- What is new in the queue after a step of `task`. -/
def Sends (task : Task) (before after : State) : Prop :=
  ∀ queued ∈ after.queue, queued ∈ before.queue ∨ task.SendsTo after queued.task.stream

namespace Sends

variable {task : Task} {before middle after : State}

theorem of_queue_eq (hQueue : after.queue = before.queue) : Sends task before after :=
  fun _ hQueued => Or.inl (hQueue ▸ hQueued)

theorem refl (state : State) : Sends task state state := of_queue_eq rfl

theorem of_start_eq (hSends : Sends task middle after) (hQueue : middle.queue = before.queue) :
    Sends task before after :=
  fun queued hQueued => (hSends queued hQueued).imp_left fun hOld => hQueue ▸ hOld

end Sends

@[simp] theorem State.queue_writeAction (state : State) (writer : Task) (stream : StreamID)
    (ref : Ref) (result : TaskResult) :
    (state.writeAction writer stream ref result).queue = state.queue := by
  unfold writeAction
  split <;> rfl

namespace DSLScheduler

variable {scheduler : DSLScheduler} {state : State} {stmt : ActionStatement}

/-! ## Emissions -/

theorem queue_queueTasks (task : DelayedTask) (unreachable : List DSLEdge) :
    ∀ queued ∈ (scheduler.queueTasks state task unreachable).queue,
      queued ∈ state.queue ∨ queued.task.stream = task.task.stream := by
  intro queued hQueued
  obtain ⟨-, -, hQueue, -⟩ := scheduler.queueNext_foldl task unreachable
    (scheduler.dsl.adj task.task.ref) (state.record (.queueing task.task))
  have hFinal : (scheduler.queueTasks state task unreachable).queue = _ := hQueue
  rw [hFinal] at hQueued
  rcases List.mem_append.mp hQueued with hOld | hNew
  · exact Or.inl hOld
  · obtain ⟨ref, -, rfl⟩ := List.mem_map.mp hNew
    exact Or.inr rfl

theorem hierarchy_queueTasks (task : DelayedTask) (unreachable : List DSLEdge) :
    (scheduler.queueTasks state task unreachable).streamHierarchy = state.streamHierarchy :=
  congrArg Tables.hierarchy (scheduler.tables_queueTasks state task unreachable)

theorem sends_queueTasks {task : Task} {emitted : DelayedTask} (unreachable : List DSLEdge)
    (hStream : task.SendsTo state emitted.task.stream) :
    Sends task state (scheduler.queueTasks state emitted unreachable) := by
  intro queued hQueued
  rcases queue_queueTasks emitted unreachable queued hQueued with hOld | hNew
  · exact Or.inl hOld
  · right
    unfold Task.SendsTo at hStream ⊢
    rw [hierarchy_queueTasks, hNew]
    exact hStream

theorem sends_queueSkipped (task : DelayedTask) :
    Sends task.task state (scheduler.queueSkipped state task) :=
  sends_queueTasks _ (Or.inl rfl)

theorem sends_handleSuccessPath (task : DelayedTask) :
    Sends task.task state (scheduler.handleSuccessPath state task) :=
  (sends_queueTasks _ (Or.inl rfl)).of_start_eq rfl

theorem sends_handleErrorPath (task : DelayedTask) (exc : Exn) (failWorkflow : Bool) :
    Sends task.task state (scheduler.handleErrorPath state task exc failWorkflow) := by
  unfold handleErrorPath
  dsimp only
  split
  · exact (sends_queueTasks _ (Or.inl rfl)).of_start_eq rfl
  · split
    · exact .of_queue_eq rfl
    · exact (sends_queueSkipped task).of_start_eq rfl

/-! ## Loops -/

theorem sends_handleLoopStart (task : DelayedTask) (isSkipping : Bool) :
    Sends task.task state (scheduler.handleLoopStart state task isSkipping).state := by
  unfold handleLoopStart
  dsimp only
  split
  · exact (sends_queueSkipped task).of_start_eq rfl
  · split
    · exact .of_queue_eq rfl
    · exact .of_queue_eq (State.queue_writeAction ..)

theorem sends_handleLoopEnd (task : DelayedTask) (isSkipping : Bool) :
    Sends task.task state (scheduler.handleLoopEnd state task stmt isSkipping).state := by
  unfold handleLoopEnd
  split
  · exact .refl state
  · split
    · exact .refl state
    · dsimp only
      split
      · split
        · refine .of_queue_eq ?_
          show (if _ then _ else state : State).queue = state.queue
          split <;> rfl
        · split
          · exact (sends_queueSkipped task).of_start_eq (State.queue_writeAction ..)
          · exact (sends_handleSuccessPath task).of_start_eq (State.queue_writeAction ..)
      · exact .refl state

theorem sends_decideLoopEnd (task : Task) (currentIndex : Nat) (shouldContinue : Bool) :
    Sends task state (decideLoopEnd state task currentIndex shouldContinue).state := by
  unfold decideLoopEnd
  split
  · exact .refl state
  · exact .of_queue_eq (State.queue_writeAction ..)

theorem queue_resetLoopIterationState (region : LoopRegion) (stream : StreamID) :
    (scheduler.resetLoopIterationState state region stream).queue = state.queue := by
  unfold resetLoopIterationState State.cleanupLoopDescendantStreams
  dsimp only
  split <;> rfl

theorem sends_finishLoopEnd (task : DelayedTask) (currentIndex : Nat) (shouldContinue : Bool) :
    Sends task.task state
      (scheduler.finishLoopEnd state task stmt currentIndex shouldContinue).state := by
  unfold finishLoopEnd
  split
  · dsimp only
    split
    · split
      · exact .refl state
      · intro queued hQueued
        rcases List.mem_append.mp hQueued with hOld | hNew
        · rw [queue_resetLoopIterationState] at hOld
          exact Or.inl hOld
        · rw [List.mem_singleton.mp hNew]
          exact Or.inr (Or.inl rfl)
    · exact (sends_handleSuccessPath task).of_start_eq rfl
  · exact .refl state
  · exact .refl state

/-! ## Scatter -/

theorem sendsTo_openStream (task : Task) (index : StreamIndex) (actions : Dict Ref TaskResult) :
    task.SendsTo (state.openStream task (.child task.stream task.ref index) task.stream actions)
      (.child task.stream task.ref index) := by
  refine Or.inr (Or.inr ⟨⟨index, rfl⟩, ?_⟩)
  unfold State.openStream
  dsimp only
  rw [Dict.lookup_insert_eq, if_pos rfl]
  simp

theorem sends_handleScatterSkipStream (task : Task) :
    Sends task state (scheduler.handleScatterSkipStream state task) :=
  (sends_queueTasks _ (sendsTo_openStream task .skip ∅)).of_start_eq rfl

theorem sends_handleScatter (task : Task) (isSkipping : Bool) :
    Sends task state (scheduler.handleScatter state task stmt isSkipping).state := by
  unfold handleScatter
  split
  · exact sends_handleScatterSkipStream task
  · split
    · exact .refl state
    · split
      · exact .refl state
      · exact .refl state

theorem sends_scatterItem (task : Task) (interval : Option Int) (collection : StoredObject Json)
    (streams : List StreamID) :
    Sends task state (scheduler.scatterItem state task interval collection streams) := by
  have hOpened : task.SendsTo (state.openStream task
      (.child task.stream task.ref (.item streams.length)) task.stream
      ((∅ : Dict Ref TaskResult).insert task.ref
        (.fromCollectionItem collection streams.length)))
      (.child task.stream task.ref (.item streams.length)) :=
    sendsTo_openStream task _ _
  unfold scatterItem
  dsimp only
  refine Sends.of_start_eq (sends_queueTasks _ ?_) rfl
  exact hOpened

theorem sends_scatterNext (task : Task) (collection : StoredObject Json) (size : Nat)
    (streams : List StreamID) :
    Sends task state (scheduler.scatterNext state task stmt collection size streams).state := by
  unfold scatterNext
  split
  · exact sends_scatterItem task _ collection streams
  · exact .of_queue_eq rfl

theorem sends_beginScatter (task : Task) (collection : StoredObject Json) :
    Sends task state (scheduler.beginScatter state task stmt collection).state := by
  unfold beginScatter
  dsimp only
  split
  · exact .of_queue_eq rfl
  · exact (sends_handleScatterSkipStream task).of_start_eq rfl
  · exact (sends_scatterNext task collection _ []).of_start_eq rfl

/-! ## Gather -/

theorem sends_gathers {task : Task} {parent : StreamID} {segment : Segment}
    (hGathers : segment.Gathers task parent state) : Sends task state segment.state := by
  have hQueue {after : State} (hAfter : Gathers task parent state after) :
      after.queue = state.queue := by
    induction hAfter with
    | refl => rfl
    | write result _ ih => exact (State.queue_writeAction ..).trans ih
    | _ => assumption
  cases hGathers <;> exact .of_queue_eq (hQueue ‹_›)

theorem sends_beginsGather {task : DelayedTask} {segment : Segment}
    (hBegins : BeginsGather scheduler state task segment) :
    Sends task.task state segment.state := by
  cases hBegins with
  | skip => exact sends_queueSkipped task
  | close _ hGathers => exact sends_gathers hGathers
  | _ => exact .of_queue_eq rfl

theorem sends_finishGatherResult (task : Task) (parent : StreamID) (taskResult : TaskResult)
    (result : StoredObject Datum) (errors : List ActionErrorInfo) :
    Sends task state
      (finishGatherResult state task stmt parent taskResult result errors).state := by
  unfold finishGatherResult
  dsimp only
  split
  · exact .of_queue_eq rfl
  · exact .of_queue_eq (State.queue_writeAction ..)

theorem sends_finishGather (task : DelayedTask) {parent : StreamID} {scope : Ref}
    {index : StreamIndex} (hStream : task.task.stream = .child parent scope index) :
    Sends task.task state (scheduler.finishGather state task parent).state :=
  sends_queueTasks _ (Or.inr (Or.inl ⟨scope, index, hStream⟩))

theorem sends_finishEmptyGather (task : DelayedTask) {parent : StreamID} {scope : Ref}
    {index : StreamIndex} (hStream : task.task.stream = .child parent scope index)
    (result : StoredObject Datum) :
    Sends task.task state (scheduler.finishEmptyGather state task parent result).state :=
  (sends_queueTasks _ (Or.inr (Or.inl ⟨scope, index, hStream⟩))).of_start_eq
    (State.queue_writeAction ..)

/-! ## Steps of a coroutine -/

theorem sends_handles {task : DelayedTask} {isSkipping : Bool} {segment : Segment}
    (hHandles : Handles scheduler stmt state task isSkipping segment) :
    Sends task.task state segment.state := by
  cases hHandles with
  | loopStart => exact sends_handleLoopStart task _
  | loopEnd => exact sends_handleLoopEnd task _
  | scatter => exact sends_handleScatter task.task _
  | gather => exact sends_beginsGather (beginsGather task _)
  | skip => exact sends_queueSkipped task
  | execute => exact .of_queue_eq rfl

theorem sends_begins {coroutine : Coroutine} {segment : Segment}
    (hBegins : Begins scheduler coroutine stmt state segment) :
    Sends coroutine.task state segment.state := by
  induction hBegins with
  | record _ ih => exact ih.of_start_eq rfl
  | raise | wait => exact .of_queue_eq rfl
  | skip hHandles | dispatch hHandles => exact (sends_handles hHandles).of_start_eq rfl

theorem sends_finishExecute (task : DelayedTask) (result : TaskResult) :
    Sends task.task state (scheduler.finishExecute state task stmt result).state := by
  unfold finishExecute
  split
  · exact .refl state
  · dsimp only
    split
    · exact (sends_handleSuccessPath task).of_start_eq (State.queue_writeAction ..)
    · exact .of_queue_eq ((State.queue_writeAction ..).trans (State.queue_writeAction ..))

theorem sends_failExecute (task : Task) (written : Option TaskResult) (exc : Exn)
    (platform : Bool) :
    Sends task state (failExecute state task written exc platform).state := by
  unfold failExecute
  split
  · exact .refl state
  · split
    · exact .refl state
    · exact .of_queue_eq (State.queue_writeAction ..)

theorem resume_sends {coroutine : Coroutine} {outcome : Outcome} {segment : Segment}
    (hWaits : ∀ parent, coroutine.pc.parent? = some parent →
      ∃ scope index, coroutine.task.stream = .child parent scope index)
    (hResume : scheduler.resume state coroutine stmt coroutine.pc outcome = some segment) :
    Sends coroutine.task state segment.state := by
  have hResumes := resumes_of_resume hResume
  generalize coroutine.pc = pc at hWaits hResumes
  cases hResumes with
  | starts => exact sends_begins begins_scheduleTask
  | skips => exact sends_begins (.skip handles_handleSkipPath)
  | runs | runIfRaises => exact sends_begins (begins_checkReachable _)
  | wakes => exact sends_begins (.dispatch handles_dispatch)
  | returns result => exact sends_finishExecute coroutine.delayed _
  | fails written exc platform => exact sends_failExecute _ _ _ _
  | succeeds result => exact sends_handleSuccessPath coroutine.delayed
  | retries result => exact .refl state
  | loopStarts => exact sends_handleSuccessPath coroutine.delayed
  | loopDecides currentIndex value => exact sends_decideLoopEnd _ _ _
  | loopEnds currentIndex shouldContinue => exact sends_finishLoopEnd coroutine.delayed _ _
  | scatters stored => exact sends_beginScatter _ _
  | scattersNext collection size streams => exact sends_scatterNext _ _ _ _
  | gathers parent stored => exact sends_gathers (gathers_storeGatherItem _)
  | finalizes parent taskResult items result errors => exact sends_finishGatherResult _ _ _ _ _
  | finalizesEmpty parent result errors =>
      obtain ⟨scope, index, hStream⟩ := hWaits parent rfl
      exact sends_finishEmptyGather coroutine.delayed hStream _
  | gathered parent =>
      obtain ⟨scope, index, hStream⟩ := hWaits parent rfl
      exact sends_finishGather coroutine.delayed hStream
  | raises hError => exact .refl state

/-- A coroutine that settles queues where its segment does, or in its own stream. -/
theorem sends_settle (index : Nat) {coroutine : Coroutine} {segment : Segment}
    (hSends : Sends coroutine.task state segment.state) :
    Sends coroutine.task state (scheduler.settle index coroutine segment) := by
  cases segment with
  | suspend after pc => exact hSends
  | finish after => exact hSends
  | raise after exc platform =>
      intro queued hQueued
      have hHierarchy :
          (scheduler.handleErrorPath after coroutine.delayed exc platform).streamHierarchy =
            after.streamHierarchy :=
        congrArg Tables.hierarchy (scheduler.tables_handleErrorPath after coroutine.delayed exc
          platform)
      have hKept (stream : StreamID) (hStream : coroutine.task.SendsTo after stream) :
          coroutine.task.SendsTo
            (scheduler.settle index coroutine (.raise after exc platform)) stream := by
        unfold Task.SendsTo at hStream ⊢
        show _ ∨ _ ∨ _ ∧
          (scheduler.handleErrorPath after coroutine.delayed exc platform).streamHierarchy.lookup
            stream ≠ none
        rw [hHierarchy]
        exact hStream
      rcases sends_handleErrorPath coroutine.delayed exc platform queued hQueued with hOld | hNew
      · exact (hSends queued hOld).imp_right (hKept _)
      · exact Or.inr hNew

end DSLScheduler

end Tracecat
