import Tracecat.Scheduler.Effect

/-!
# The edges that a step marks

A step marks edges as `VISITED` only through `_queue_tasks`.  The success path
visits success edges, the error path error edges, a skip none; a scatter that
opens an item stream and a gather that is emitted in the parent stream visit
every out-edge.
-/

namespace Tracecat

/-- Every edge that is visited after, and was not before, satisfies `new`. -/
def OnlyMarks (before after : State) (new : DSLEdge → Prop) : Prop :=
  ∀ edge, after.marker edge = .visited → before.marker edge = .visited ∨ new edge

namespace OnlyMarks

variable {before middle after : State} {new other : DSLEdge → Prop}

theorem of_edges_eq (hEdges : after.edges = before.edges) : OnlyMarks before after new := by
  intro edge hVisited
  left
  unfold State.marker at hVisited ⊢
  rwa [← hEdges]

theorem mono (hMarks : OnlyMarks before after new) (hNew : ∀ edge, new edge → other edge) :
    OnlyMarks before after other :=
  fun edge hVisited => (hMarks edge hVisited).imp_right (hNew edge)

theorem trans (hFirst : OnlyMarks before middle new) (hSecond : OnlyMarks middle after new) :
    OnlyMarks before after new := by
  intro edge hVisited
  rcases hSecond edge hVisited with hMiddle | hNew
  · exact hFirst edge hMiddle
  · exact Or.inr hNew

theorem of_start_eq (hMarks : OnlyMarks middle after new)
    (hEdges : middle.edges = before.edges) : OnlyMarks before after new :=
  trans (of_edges_eq hEdges) hMarks

end OnlyMarks

namespace State

variable (state : State)

@[simp] theorem edges_record (entry : LogEntry) : (state.record entry).edges = state.edges :=
  rfl

@[simp] theorem edges_complete (task : Task) : (state.complete task).edges = state.edges :=
  rfl

@[simp] theorem edges_writeAction (writer : Task) (stream : StreamID) (ref : Ref)
    (result : TaskResult) :
    (state.writeAction writer stream ref result).edges = state.edges := by
  unfold writeAction
  split <;> rfl

@[simp] theorem edges_openStream (writer : Task) (stream parent : StreamID)
    (actions : Dict Ref TaskResult) :
    (state.openStream writer stream parent actions).edges = state.edges :=
  rfl

end State

namespace DSLScheduler

variable (scheduler : DSLScheduler) {state : State} {stmt : ActionStatement}

/-- An emission visits the out-edges of the types it keeps. -/
theorem onlyMarks_of_emit {after : State} {src : Ref} {stream : StreamID} {delay : Int}
    {keep : EdgeType → Bool}
    (hEmit : after.control scheduler =
      (state.control scheduler).emit scheduler.dsl src stream delay keep) :
    OnlyMarks state after fun edge =>
      edge.src = src ∧ (edge.dst, edge.type) ∈ scheduler.dsl.adj src ∧ keep edge.type := by
  intro edge hVisited
  have hMarker : after.marker edge =
      ((state.control scheduler).emit scheduler.dsl src stream delay keep).marker edge :=
    congrFun (congrArg Control.marker hEmit) edge
  rw [hMarker] at hVisited
  unfold Control.emit at hVisited
  simp only at hVisited
  split at hVisited
  · rename_i hEdge
    split at hVisited
    · rename_i hKeep
      exact Or.inr ⟨hEdge.1, hEdge.2.2, hKeep⟩
    · cases hVisited
  · exact Or.inl hVisited

theorem onlyMarks_handleSuccessPath (task : DelayedTask) :
    OnlyMarks state (scheduler.handleSuccessPath state task) fun edge =>
      edge.src = task.task.ref ∧ edge.type = .success :=
  (scheduler.onlyMarks_of_emit (scheduler.control_handleSuccessPath state task)).mono
    fun _ hEdge => ⟨hEdge.1, of_decide_eq_true hEdge.2.2⟩

theorem onlyMarks_queueSkipped (task : DelayedTask) {new : DSLEdge → Prop} :
    OnlyMarks state (scheduler.queueSkipped state task) new :=
  (scheduler.onlyMarks_of_emit (scheduler.control_queueSkipped state task)).mono
    fun _ hEdge => by cases hEdge.2.2

/-- Without an error edge, an emission without unreachable edges visits success
edges. -/
theorem onlyMarks_queueTasks_nil (task : DelayedTask)
    (hNone : scheduler.hasErrorEdge task.task.ref = false) :
    OnlyMarks state (scheduler.queueTasks state task []) fun edge =>
      edge.src = task.task.ref ∧ edge.type = .success := by
  refine (scheduler.onlyMarks_of_emit (scheduler.control_queueTasks_nil state task)).mono
    fun edge hEdge => ⟨hEdge.1, ?_⟩
  cases hType : edge.type with
  | success => rfl
  | error =>
      have hNext := hEdge.2.1
      rw [hType] at hNext
      unfold hasErrorEdge at hNone
      have hNot := List.any_eq_false.mp hNone _ hNext
      exact absurd (decide_eq_true rfl) hNot

theorem onlyMarks_handleErrorPath (task : DelayedTask) (exc : Exn) (failWorkflow : Bool) :
    OnlyMarks state (scheduler.handleErrorPath state task exc failWorkflow) fun edge =>
      edge.src = task.task.ref ∧ edge.type = .error := by
  unfold handleErrorPath
  simp only
  split
  · have hEmit := scheduler.control_queueTasks (state.record (.failing task.task exc)) task
      (scheduler.outEdges task.task (· ≠ .error)) (· = .error) fun edge hSrc hStream hNext => by
        rw [mem_outEdges]
        simp [hSrc, hStream, hNext]
    refine OnlyMarks.of_start_eq ?_ (state.edges_record (.failing task.task exc))
    exact (scheduler.onlyMarks_of_emit hEmit).mono
      fun _ hEdge => ⟨hEdge.1, of_decide_eq_true hEdge.2.2⟩
  · split
    · exact OnlyMarks.of_edges_eq rfl
    · exact (scheduler.onlyMarks_queueSkipped task).of_start_eq rfl

end DSLScheduler

/-! ## The handlers -/

/-- A scatter between two items. -/
def PC.inItems : PC → Prop
  | scatterLoop _ _ _ => True
  | _ => False

/-- What a segment of an action has marked before its exception, if it raises
one, is handled: success edges, when it ends or goes on to the next item. -/
def Segment.MarksSuccess (state : State) (ref : Ref) : Segment → Prop
  | .finish after => OnlyMarks state after fun edge => edge.src = ref ∧ edge.type = .success
  | .suspend after pc => OnlyMarks state after fun edge =>
      edge.src = ref ∧ edge.type = .success ∧ pc.inItems
  | .raise after _ _ => OnlyMarks state after fun _ => False

theorem Segment.MarksSuccess.of_start_eq {state middle : State} {ref : Ref} {segment : Segment}
    (hMarks : segment.MarksSuccess middle ref) (hEdges : middle.edges = state.edges) :
    segment.MarksSuccess state ref := by
  cases segment with
  | finish after => exact OnlyMarks.of_start_eq hMarks hEdges
  | suspend after pc => exact OnlyMarks.of_start_eq hMarks hEdges
  | raise after exc platform => exact OnlyMarks.of_start_eq hMarks hEdges

namespace DSLScheduler

variable (scheduler : DSLScheduler) {state : State} {stmt : ActionStatement}

/-! ### Loops -/

theorem marks_handleLoopStart (task : DelayedTask) (isSkipping : Bool) :
    (scheduler.handleLoopStart state task isSkipping).MarksSuccess state task.task.ref := by
  unfold handleLoopStart
  cases isSkipping with
  | true => exact (scheduler.onlyMarks_queueSkipped task).of_start_eq rfl
  | false =>
      simp only [Bool.false_eq_true, if_false]
      split
      · exact OnlyMarks.of_edges_eq rfl
      · exact OnlyMarks.of_edges_eq (State.edges_writeAction ..)

theorem marks_handleLoopEnd (task : DelayedTask) (isSkipping : Bool) :
    (scheduler.handleLoopEnd state task stmt isSkipping).MarksSuccess state task.task.ref := by
  unfold handleLoopEnd
  split
  · exact OnlyMarks.of_edges_eq rfl
  · split
    · exact OnlyMarks.of_edges_eq rfl
    · cases isSkipping with
      | false => exact OnlyMarks.of_edges_eq rfl
      | true =>
          rename_i region _ _ _ _
          simp only [if_true]
          by_cases hSkip : (region.startRef, task.task.stream) ∈ state.loopStartSkips
          · simp only [hSkip, decide_true, if_true]
            split
            · exact OnlyMarks.of_edges_eq rfl
            · exact (scheduler.onlyMarks_queueSkipped task).of_start_eq
                (State.edges_writeAction ..)
          · simp only [hSkip, decide_false, Bool.false_eq_true, if_false]
            split
            · exact OnlyMarks.of_edges_eq rfl
            · exact (scheduler.onlyMarks_handleSuccessPath task).of_start_eq
                (State.edges_writeAction ..)

theorem marks_decideLoopEnd (task : Task) (currentIndex : Nat) (shouldContinue : Bool) :
    (decideLoopEnd state task currentIndex shouldContinue).MarksSuccess state task.ref := by
  unfold decideLoopEnd
  split
  · exact OnlyMarks.of_edges_eq rfl
  · exact OnlyMarks.of_edges_eq (State.edges_writeAction ..)

theorem onlyMarks_resetLoopIterationState (region : LoopRegion) (stream : StreamID)
    {new : DSLEdge → Prop} :
    OnlyMarks state (scheduler.resetLoopIterationState state region stream) new := by
  intro edge hVisited
  left
  have hMarker : (scheduler.resetLoopIterationState state region stream).marker edge = _ :=
    congrFun (congrArg Control.marker
      (scheduler.control_resetLoopIterationState state region stream)) edge
  rw [hMarker] at hVisited
  unfold Control.reset at hVisited
  simp only at hVisited
  split at hVisited
  · cases hVisited
  · exact hVisited

theorem marks_finishLoopEnd (task : DelayedTask) (currentIndex : Nat) (shouldContinue : Bool) :
    (scheduler.finishLoopEnd state task stmt currentIndex shouldContinue).MarksSuccess state
      task.task.ref := by
  unfold finishLoopEnd
  split
  · rename_i region args _ _
    cases shouldContinue with
    | false => exact (scheduler.onlyMarks_handleSuccessPath task).of_start_eq rfl
    | true =>
        simp only [if_true]
        split
        · exact OnlyMarks.of_edges_eq rfl
        · exact (scheduler.onlyMarks_resetLoopIterationState region task.task.stream).trans
            (OnlyMarks.of_edges_eq rfl)
  · exact OnlyMarks.of_edges_eq rfl
  · exact OnlyMarks.of_edges_eq rfl

/-! ### Scatters -/

theorem onlyMarks_handleScatterSkipStream (task : Task) {new : DSLEdge → Prop} :
    OnlyMarks state (scheduler.handleScatterSkipStream state task) new :=
  (scheduler.onlyMarks_queueSkipped _).of_start_eq rfl

theorem marks_handleScatter (task : Task) (isSkipping : Bool) :
    (scheduler.handleScatter state task stmt isSkipping).MarksSuccess state task.ref := by
  unfold handleScatter
  cases isSkipping with
  | true => exact scheduler.onlyMarks_handleScatterSkipStream task
  | false =>
      simp only [Bool.false_eq_true, if_false]
      split
      · exact OnlyMarks.of_edges_eq rfl
      · split
        · exact OnlyMarks.of_edges_eq rfl
        · exact OnlyMarks.of_edges_eq rfl

theorem onlyMarks_scatterItem (task : Task) (interval : Option Int)
    (collection : StoredObject Json) (streams : List StreamID)
    (hNone : scheduler.hasErrorEdge task.ref = false) :
    OnlyMarks state (scheduler.scatterItem state task interval collection streams) fun edge =>
      edge.src = task.ref ∧ edge.type = .success := by
  unfold scatterItem
  exact OnlyMarks.of_start_eq (scheduler.onlyMarks_queueTasks_nil _ hNone) rfl

theorem marks_scatterNext (task : Task) (collection : StoredObject Json) (size : Nat)
    (streams : List StreamID)
    (hNone : streams.length < size → scheduler.hasErrorEdge task.ref = false) :
    (scheduler.scatterNext state task stmt collection size streams).MarksSuccess state
      task.ref := by
  unfold scatterNext
  split
  · rename_i hSize
    exact (scheduler.onlyMarks_scatterItem task _ collection streams (hNone hSize)).mono
      fun _ hEdge => ⟨hEdge.1, hEdge.2, trivial⟩
  · exact OnlyMarks.of_edges_eq rfl

theorem marks_beginScatter (task : Task) (collection : StoredObject Json)
    (hNone : ∀ size, collectionSize collection = some size → 0 < size →
      scheduler.hasErrorEdge task.ref = false) :
    (scheduler.beginScatter state task stmt collection).MarksSuccess state task.ref := by
  unfold beginScatter
  simp only
  split
  · exact OnlyMarks.of_edges_eq rfl
  · exact (scheduler.onlyMarks_handleScatterSkipStream task).of_start_eq rfl
  · rename_i size _ hSize
    refine Segment.MarksSuccess.of_start_eq
      (scheduler.marks_scatterNext task collection size [] ?_) rfl
    exact fun hPos => hNone size hSize hPos

/-! ### Gathers -/

theorem edges_gathers {task : Task} {parent : StreamID} {after : State}
    (hGathers : Gathers task parent state after) : after.edges = state.edges := by
  induction hGathers with
  | refl => rfl
  | write result _ ih => exact (State.edges_writeAction ..).trans ih
  | _ => assumption

theorem marks_gathers {task : Task} {parent : StreamID} {segment : Segment} {ref : Ref}
    (hGathers : segment.Gathers task parent state) : segment.MarksSuccess state ref := by
  cases hGathers <;> exact OnlyMarks.of_edges_eq (edges_gathers ‹_›)

theorem marks_beginsGather {task : DelayedTask} {segment : Segment}
    (hBegins : BeginsGather scheduler state task segment) :
    segment.MarksSuccess state task.task.ref := by
  cases hBegins with
  | skip => exact scheduler.onlyMarks_queueSkipped task
  | close _ hGathers => exact marks_gathers hGathers
  | _ => exact OnlyMarks.of_edges_eq rfl

theorem marks_finishGatherResult (task : Task) (parent : StreamID) (taskResult : TaskResult)
    (result : StoredObject Datum) (errors : List ActionErrorInfo) :
    (finishGatherResult state task stmt parent taskResult result errors).MarksSuccess state
      task.ref := by
  unfold finishGatherResult
  simp only
  split
  · exact OnlyMarks.of_edges_eq rfl
  · exact OnlyMarks.of_edges_eq (State.edges_writeAction ..)

/-- A gather without an error edge is emitted in the parent stream. -/
theorem marks_finishGather (task : DelayedTask) (parent : StreamID)
    (hNone : scheduler.hasErrorEdge task.task.ref = false) :
    (scheduler.finishGather state task parent).MarksSuccess state task.task.ref :=
  scheduler.onlyMarks_queueTasks_nil ⟨⟨task.task.ref, parent⟩, 0⟩ hNone

theorem marks_finishEmptyGather (task : DelayedTask) (parent : StreamID)
    (result : StoredObject Datum) (hNone : scheduler.hasErrorEdge task.task.ref = false) :
    (scheduler.finishEmptyGather state task parent result).MarksSuccess state task.task.ref := by
  unfold finishEmptyGather
  refine OnlyMarks.of_start_eq
    (scheduler.onlyMarks_queueTasks_nil ⟨⟨task.task.ref, parent⟩, 0⟩ hNone) ?_
  exact State.edges_writeAction ..

/-! ### `_schedule_task` -/

theorem marks_handles {task : DelayedTask} {isSkipping : Bool} {segment : Segment}
    (hHandles : Handles scheduler stmt state task isSkipping segment) :
    segment.MarksSuccess state task.task.ref := by
  cases hHandles with
  | loopStart => exact scheduler.marks_handleLoopStart task _
  | loopEnd => exact scheduler.marks_handleLoopEnd task _
  | scatter => exact scheduler.marks_handleScatter task.task _
  | gather => exact scheduler.marks_beginsGather (beginsGather task _)
  | skip => exact scheduler.onlyMarks_queueSkipped task
  | execute => exact OnlyMarks.of_edges_eq rfl

theorem marks_begins {coroutine : Coroutine} {segment : Segment}
    (hBegins : Begins scheduler coroutine stmt state segment) :
    segment.MarksSuccess state coroutine.task.ref := by
  induction hBegins with
  | record _ ih => exact ih.of_start_eq rfl
  | raise | wait => exact OnlyMarks.of_edges_eq rfl
  | skip hHandles | dispatch hHandles => exact (scheduler.marks_handles hHandles).of_start_eq rfl

theorem marks_finishExecute (task : DelayedTask) (result : TaskResult) :
    (scheduler.finishExecute state task stmt result).MarksSuccess state task.task.ref := by
  unfold finishExecute
  split
  · exact OnlyMarks.of_edges_eq rfl
  · simp only
    split
    · exact (scheduler.onlyMarks_handleSuccessPath task).of_start_eq (State.edges_writeAction ..)
    · exact OnlyMarks.of_edges_eq ((State.edges_writeAction ..).trans (State.edges_writeAction ..))

theorem marks_failExecute (task : Task) (written : Option TaskResult) (exc : Exn)
    (platform : Bool) :
    (failExecute state task written exc platform).MarksSuccess state task.ref := by
  unfold failExecute
  split
  · exact OnlyMarks.of_edges_eq rfl
  · split
    · exact OnlyMarks.of_edges_eq rfl
    · exact OnlyMarks.of_edges_eq (State.edges_writeAction ..)

end DSLScheduler

/-- The resumption queues successors with every out-edge reachable: a scatter
opens the stream of an item, or a gather goes on in the parent stream. -/
def Coroutine.marksAll (coroutine : Coroutine) : Outcome → Bool
  | .collection stored =>
      match coroutine.pc with
      | .scatterInput => 0 < (collectionSize stored).getD 0
      | _ => false
  | .resumed =>
      match coroutine.pc with
      | .scatterLoop _ size streams => streams.length < size
      | .gatherExec _ => true
      | _ => false
  | .finalized _ _ =>
      match coroutine.pc with
      | .gatherEmpty _ => true
      | _ => false
  | _ => false

namespace DSLScheduler

variable (scheduler : DSLScheduler) {state : State} {stmt : ActionStatement}

/-- A resumed coroutine marks success edges, unless it marks all out-edges of an
action with an error edge. -/
theorem resume_marks {coroutine : Coroutine} {outcome : Outcome} {segment : Segment}
    (hNone : coroutine.marksAll outcome → scheduler.hasErrorEdge coroutine.task.ref = false)
    (hResume : scheduler.resume state coroutine stmt coroutine.pc outcome = some segment) :
    segment.MarksSuccess state coroutine.task.ref := by
  unfold Coroutine.marksAll at hNone
  have hResumes := resumes_of_resume hResume
  generalize hPc : coroutine.pc = pc at hResumes
  cases hResumes with
  | starts => exact scheduler.marks_begins begins_scheduleTask
  | skips => exact scheduler.marks_begins (.skip handles_handleSkipPath)
  | runs | runIfRaises => exact scheduler.marks_begins (begins_checkReachable _)
  | wakes => exact scheduler.marks_begins (.dispatch handles_dispatch)
  | returns result => exact scheduler.marks_finishExecute coroutine.delayed _
  | fails written exc platform => exact marks_failExecute coroutine.task _ _ _
  | succeeds result => exact scheduler.onlyMarks_handleSuccessPath coroutine.delayed
  | retries result => exact OnlyMarks.of_edges_eq rfl
  | loopStarts => exact scheduler.onlyMarks_handleSuccessPath coroutine.delayed
  | loopDecides currentIndex value => exact marks_decideLoopEnd coroutine.task currentIndex _
  | loopEnds currentIndex shouldContinue =>
      exact scheduler.marks_finishLoopEnd coroutine.delayed _ _
  | scatters stored =>
      rw [hPc] at hNone
      refine scheduler.marks_beginScatter coroutine.task _ fun size hSize hPos => hNone ?_
      simpa [hSize] using hPos
  | scattersNext collection size streams =>
      rw [hPc] at hNone
      refine scheduler.marks_scatterNext coroutine.task collection size streams fun hSize =>
        hNone ?_
      exact decide_eq_true hSize
  | gathers parent stored => exact marks_gathers (gathers_storeGatherItem _)
  | finalizes parent taskResult items result errors =>
      exact marks_finishGatherResult coroutine.task parent taskResult _ _
  | finalizesEmpty parent result errors =>
      rw [hPc] at hNone
      exact scheduler.marks_finishEmptyGather coroutine.delayed parent _ (hNone rfl)
  | gathered parent =>
      rw [hPc] at hNone
      exact scheduler.marks_finishGather coroutine.delayed parent (hNone rfl)
  | raises hError => exact OnlyMarks.of_edges_eq rfl

end DSLScheduler

end Tracecat
