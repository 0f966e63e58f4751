import Tracecat.Scheduler.Contexts
import Tracecat.Scheduler.Executions

/-!
# What a step does to the contexts

A step of a task writes `ACTIONS` entries, creates streams below its own,
lists them, and drops streams below its own.  `Touches` is this and nothing
else, and every handler is a sequence of it.
-/

namespace Tracecat

/-- The entries that a step of `task` writes.  `attempt` holds when the step
ends an attempt of an action with `retry_until`. -/
inductive Writes (task : Task) (stmt : ActionStatement) (attempt : Prop) :
    Task → StreamID → Ref → Prop
  /-- the result of the task, in the context of its stream -/
  | own : Writes task stmt attempt task task.stream task.ref
  /-- the result of an attempt, in the root context -/
  | attempt (hAttempt : attempt) : Writes task stmt attempt task rootStream task.ref
  /-- the accumulator of a gather, or its result -/
  | gather {parent : StreamID} {scope : Ref} {index : StreamIndex} {writer : Task}
      (hAction : stmt.action = .transformGather)
      (hStream : task.stream = .child parent scope index)
      (hWriter : writer = task ∨ writer = ⟨task.ref, parent⟩) :
      Writes task stmt attempt writer parent task.ref

/-- What a step of `task` does to the tables. -/
inductive Touches (task : Task) (stmt : ActionStatement) (attempt : Prop) (tables : Tables) :
    Tables → Prop
  | refl : Touches task stmt attempt tables tables
  | write {after : Tables} {writer : Task} {stream : StreamID} {ref : Ref}
      (result : TaskResult) (hTouches : Touches task stmt attempt tables after)
      (hWrites : Writes task stmt attempt writer stream ref) :
      Touches task stmt attempt tables (after.write writer stream ref result)
  | openStream {after : Tables} (index : StreamIndex) (actions : Dict Ref TaskResult)
      (hTouches : Touches task stmt attempt tables after) :
      Touches task stmt attempt tables
        (after.openStream task (.child task.stream task.ref index) task.stream actions)
  | list {after : Tables} (listed : Dict Task (List StreamID))
      (hTouches : Touches task stmt attempt tables after)
      (hListed : ∀ other streams, listed.lookup other = some streams → ∀ stream ∈ streams,
        (∃ known, after.listed.lookup other = some known ∧ stream ∈ known) ∨
          ∃ index, stream = .child other.stream other.ref index) :
      Touches task stmt attempt tables { after with listed := listed }
  | drop {after : Tables} (endRef : Ref) {removed : List StreamID}
      (hTouches : Touches task stmt attempt tables after)
      (hBelow : ∀ stream ∈ removed, task.stream.within stream ∧ stream ≠ task.stream) :
      Touches task stmt attempt tables (after.drop ⟨endRef, task.stream⟩ removed)

def StreamID.base? : StreamID → Option StreamID
  | root => none
  | child base _ _ => some base

/-- The hierarchy has an entry, the base, for each stream with a context, and
the listed streams are children of the scatter that lists them. -/
structure Tables.Linked (tables : Tables) : Prop where
  hierarchy : ∀ stream, tables.hierarchy.lookup stream =
    (tables.streams.lookup stream).map fun _ => stream.base?
  listed : ∀ task streams, tables.listed.lookup task = some streams →
    ∀ stream ∈ streams, ∃ index, stream = .child task.stream task.ref index

theorem Tables.Linked.eq_child {tables : Tables} (hLinked : tables.Linked)
    {stream parent : StreamID} (hParent : tables.hierarchy.lookup stream = some (some parent)) :
    ∃ scope index, stream = .child parent scope index := by
  rw [hLinked.hierarchy] at hParent
  obtain ⟨context, -, hBase⟩ := Option.map_eq_some_iff.mp hParent
  cases stream with
  | root => simp [StreamID.base?] at hBase
  | child base scope index =>
      simp only [StreamID.base?, Option.some.injEq] at hBase
      exact ⟨scope, index, by rw [hBase]⟩

section Relation

variable {task : Task} {stmt : ActionStatement} {attempt : Prop} {tables after : Tables}

variable (tables) in
theorem Tables.lookup_write (writer : Task) (stream : StreamID) (ref : Ref)
    (result : TaskResult) (other : StreamID) :
    (tables.write writer stream ref result).streams.lookup other =
      if other = stream then
        (tables.streams.lookup stream).map fun context =>
          { context with actions := context.actions.insert ref result }
      else tables.streams.lookup other := by
  unfold write
  cases hLookup : tables.streams.lookup stream with
  | none =>
      by_cases hOther : other = stream
      · subst hOther
        simpa using hLookup
      · simp [hOther]
  | some context =>
      simp only [Dict.lookup_insert_eq, Option.map_some]

@[simp] theorem Tables.write_hierarchy (writer : Task) (stream : StreamID) (ref : Ref)
    (result : TaskResult) :
    (tables.write writer stream ref result).hierarchy = tables.hierarchy := by
  unfold write
  split <;> rfl

@[simp] theorem Tables.write_listed (writer : Task) (stream : StreamID) (ref : Ref)
    (result : TaskResult) :
    (tables.write writer stream ref result).listed = tables.listed := by
  unfold write
  split <;> rfl

theorem Touches.trans {last : Tables} (hFirst : Touches task stmt attempt tables after)
    (hSecond : Touches task stmt attempt after last) :
    Touches task stmt attempt tables last := by
  induction hSecond with
  | refl => exact hFirst
  | write result _ hWrites ih => exact .write result ih hWrites
  | openStream index actions _ ih => exact .openStream index actions ih
  | list listed _ hListed ih => exact .list listed ih hListed
  | drop endRef _ hBelow ih => exact .drop endRef ih hBelow

theorem Touches.pending_eq (hTouches : Touches task stmt attempt tables after) :
    after.pending = tables.pending := by
  induction hTouches with
  | refl => rfl
  | write result _ _ ih =>
      unfold Tables.write
      split <;> exact ih
  | openStream _ _ _ ih => exact ih
  | list _ _ _ ih => exact ih
  | drop _ _ _ ih => exact ih

theorem Touches.linked (hTouches : Touches task stmt attempt tables after)
    (hLinked : tables.Linked) : after.Linked := by
  induction hTouches with
  | refl => exact hLinked
  | @write after writer stream ref result _ hWrites ih =>
      refine ⟨fun other => ?_, ?_⟩
      · rw [Tables.write_hierarchy, ih.hierarchy, Tables.lookup_write]
        by_cases hOther : other = stream
        · subst hOther
          cases after.streams.lookup other <;> simp
        · simp [hOther]
      · rw [Tables.write_listed]
        exact ih.listed
  | openStream index actions _ ih =>
      refine ⟨fun other => ?_, ih.listed⟩
      simp only [Tables.openStream, Dict.lookup_insert_eq]
      by_cases hOther : other = .child task.stream task.ref index
      · simp [hOther, StreamID.base?]
      · simp [hOther, ih.hierarchy]
  | list listed _ hListed ih =>
      refine ⟨ih.hierarchy, fun other streams hLookup stream hStream => ?_⟩
      rcases hListed other streams hLookup stream hStream with ⟨known, hKnown, hMem⟩ | hNew
      · exact ih.listed other known hKnown stream hMem
      · exact hNew
  | drop endRef _ hBelow ih =>
      refine ⟨fun other => ?_, fun other streams hLookup => ?_⟩
      · simp only [Tables.drop, Dict.lookup_filterKeys, ih.hierarchy]
        split <;> rfl
      · simp only [Tables.drop, Dict.lookup_filterKeys] at hLookup
        split at hLookup
        · exact ih.listed other streams hLookup
        · cases hLookup

end Relation

namespace StreamID

theorem within_refl (stream : StreamID) : stream.within stream = true := by
  cases stream <;> simp [within]

theorem within_child {base stream : StreamID} (hWithin : base.within stream = true)
    (scope : Ref) (index : StreamIndex) : base.within (child stream scope index) = true := by
  simp [within, hWithin]

theorem depth_le_of_within {base stream : StreamID} (hWithin : base.within stream = true) :
    base.depth ≤ stream.depth := by
  induction stream with
  | root =>
      simp only [within, decide_eq_true_eq] at hWithin
      rw [← hWithin]
  | child parent scope index ih =>
      simp only [within, Bool.or_eq_true, decide_eq_true_eq] at hWithin
      rcases hWithin with rfl | hWithin
      · exact le_rfl
      · exact (ih hWithin).trans (Nat.le_succ _)

theorem ne_of_within_base {base stream : StreamID} (hWithin : base.within stream = true)
    (scope : Ref) (index : StreamIndex) : child stream scope index ≠ base := by
  intro hEq
  have hDepth := depth_le_of_within hWithin
  rw [← hEq] at hDepth
  simp only [depth] at hDepth
  omega

end StreamID

/-! ## The handlers -/

namespace State

variable {state : State}

theorem below_of_removed (hLinked : state.tables.Linked) (scheduler : DSLScheduler)
    {region : LoopRegion} {stream removed : StreamID}
    (hRemoved : removed ∈ state.removedStreams region stream) :
    stream.within removed = true ∧ removed ≠ stream := by
  refine (state.removes scheduler region stream).only
    (fun other => stream.within other = true ∧ other ≠ stream) ?_ ?_ removed hRemoved
  · intro task streams hListed _ hWithin other hOther
    obtain ⟨index, rfl⟩ := hLinked.listed task streams hListed other hOther
    exact ⟨StreamID.within_child hWithin _ _, StreamID.ne_of_within_base hWithin _ _⟩
  · intro other parent hParent hBelow
    obtain ⟨scope, index, rfl⟩ := hLinked.eq_child hParent
    exact ⟨StreamID.within_child hBelow.1 _ _, StreamID.ne_of_within_base hBelow.1 _ _⟩

end State

namespace DSLScheduler

variable {scheduler : DSLScheduler} {state : State} {stmt : ActionStatement} {attempt : Prop}

theorem touches_handleLoopStart (task : DelayedTask) (isSkipping : Bool) :
    Touches task.task stmt attempt state.tables
      (scheduler.handleLoopStart state task isSkipping).state.tables := by
  unfold handleLoopStart
  cases isSkipping with
  | true =>
      simp only [if_true, Segment.state, tables_queueSkipped]
      exact .refl
  | false =>
      simp only [Bool.false_eq_true, if_false]
      split
      · exact .refl
      · simp only [Segment.state, State.tables_writeAction]
        exact .write _ .refl .own

theorem touches_handleLoopEnd (task : DelayedTask) (isSkipping : Bool) :
    Touches task.task stmt attempt state.tables
      (scheduler.handleLoopEnd state task stmt isSkipping).state.tables := by
  have hWrite (before : State) (hSame : before.tables = state.tables) :
      Touches task.task stmt attempt state.tables
        (before.writeAction task.task task.task.stream task.task.ref
          (continueResult false)).tables := by
    rw [State.tables_writeAction, hSame]
    exact .write _ .refl .own
  unfold handleLoopEnd
  split
  · exact .refl
  · rename_i region _
    split
    · exact .refl
    · cases isSkipping with
      | false => exact .refl
      | true =>
          simp only [if_true]
          by_cases hSkipped : (region.startRef, task.task.stream) ∈ state.loopStartSkips
          · simp only [hSkipped, decide_true, if_true]
            split
            · exact .refl
            · simp only [Segment.state, tables_queueSkipped]
              exact hWrite _ rfl
          · simp only [hSkipped, decide_false, Bool.false_eq_true, if_false]
            split
            · exact .refl
            · simp only [Segment.state, tables_handleSuccessPath]
              exact hWrite _ rfl

theorem touches_decideLoopEnd (task : Task) (currentIndex : Nat) (shouldContinue : Bool) :
    Touches task stmt attempt state.tables
      (decideLoopEnd state task currentIndex shouldContinue).state.tables := by
  unfold decideLoopEnd
  split
  · exact .refl
  · simp only [Segment.state, State.tables_writeAction]
    exact .write _ .refl .own

variable (scheduler) in
theorem touches_resetLoopIterationState (hLinked : state.tables.Linked) (region : LoopRegion)
    (task : Task) :
    Touches task stmt attempt state.tables
      (scheduler.resetLoopIterationState state region task.stream).tables := by
  have hCleanup : Touches task stmt attempt state.tables
      (state.cleanupLoopDescendantStreams region task.stream).tables := by
    have hBelow (stream : StreamID)
        (hStream : stream ∈ state.removedStreams region task.stream) :=
      State.below_of_removed hLinked scheduler hStream
    unfold State.removedStreams at hBelow
    unfold State.cleanupLoopDescendantStreams
    split
    · exact .refl
    · rename_i hSome
      rw [if_neg hSome] at hBelow
      exact .drop region.endRef .refl hBelow
  refine .list _ hCleanup fun other streams hLookup stream hStream => ?_
  unfold resetLoopIterationState at hLookup
  simp only [Dict.lookup_filterKeys] at hLookup
  split at hLookup
  · exact Or.inl ⟨streams, hLookup, hStream⟩
  · cases hLookup

theorem touches_finishLoopEnd (hLinked : state.tables.Linked) (task : DelayedTask)
    (currentIndex : Nat) (shouldContinue : Bool) :
    Touches task.task stmt attempt state.tables
      (scheduler.finishLoopEnd state task stmt currentIndex shouldContinue).state.tables := by
  unfold finishLoopEnd
  split
  · simp only
    split
    · split
      · exact .refl
      · exact touches_resetLoopIterationState scheduler hLinked _ task.task
    · simp only [Segment.state, tables_handleSuccessPath]
      exact .refl
  · exact .refl
  · exact .refl

theorem touches_handleScatterSkipStream (task : Task) :
    Touches task stmt attempt state.tables
      (scheduler.handleScatterSkipStream state task).tables := by
  simp only [handleScatterSkipStream, tables_queueSkipped, State.tables_openStream]
  exact .openStream .skip _ .refl

theorem touches_handleScatter (task : Task) (isSkipping : Bool) :
    Touches task stmt attempt state.tables
      (scheduler.handleScatter state task stmt isSkipping).state.tables := by
  unfold handleScatter
  split
  · exact touches_handleScatterSkipStream task
  · split
    · exact .refl
    · split <;> exact .refl

theorem touches_scatterItem (task : Task) (interval : Option Int)
    (collection : StoredObject Json) (streams : List StreamID) :
    Touches task stmt attempt state.tables
      (scheduler.scatterItem state task interval collection streams).tables := by
  simp only [scatterItem, tables_queueTasks]
  refine .list _ (.openStream (.item streams.length) _ .refl)
    fun other listed hLookup stream hStream => ?_
  simp only [State.openStream] at hLookup
  split at hLookup
  · rename_i known hKnown
    split at hLookup
    · rename_i hSame
      subst hSame
      rw [Dict.lookup_insert_eq] at hLookup
      split at hLookup
      · rename_i hOther
        subst hOther
        cases hLookup
        rcases List.mem_append.mp hStream with hOld | hNew
        · exact Or.inl ⟨known, hKnown, hOld⟩
        · exact Or.inr ⟨_, List.mem_singleton.mp hNew⟩
      · exact Or.inl ⟨listed, hLookup, hStream⟩
    · exact Or.inl ⟨listed, hLookup, hStream⟩
  · exact Or.inl ⟨listed, hLookup, hStream⟩

theorem touches_scatterNext (task : Task) (collection : StoredObject Json) (size : Nat)
    (streams : List StreamID) :
    Touches task stmt attempt state.tables
      (scheduler.scatterNext state task stmt collection size streams).state.tables := by
  unfold scatterNext
  split
  · exact touches_scatterItem _ _ _ _
  · exact .refl

theorem touches_beginScatter (task : Task) (collection : StoredObject Json) :
    Touches task stmt attempt state.tables
      (scheduler.beginScatter state task stmt collection).state.tables := by
  have hEmpty (before : State)
      (hSame : before.tables =
        { state.tables with listed := state.tables.listed.insert task [] }) :
      Touches task stmt attempt state.tables before.tables := by
    rw [hSame]
    refine .list _ .refl fun other listed hLookup stream hStream => ?_
    rw [Dict.lookup_insert_eq] at hLookup
    split at hLookup
    · cases hLookup
      cases hStream
    · exact Or.inl ⟨listed, hLookup, hStream⟩
  unfold beginScatter
  simp only
  split
  · exact hEmpty _ rfl
  · refine (hEmpty _ ?_).trans (touches_handleScatterSkipStream task)
    rfl
  · refine (hEmpty _ ?_).trans (touches_scatterNext task _ _ _)
    rfl

theorem parentStream_ok (hLinked : state.tables.Linked) {stream parent : StreamID}
    (hParent : parentStream state stream = .ok parent) :
    ∃ scope index, stream = .child parent scope index := by
  unfold parentStream at hParent
  split at hParent
  · cases hParent
  · cases hParent
  · rename_i hLookup
    cases hParent
    exact hLinked.eq_child hLookup

/-- A gather writes to the context of the stream above its own. -/
theorem touches_gathers {task : Task} {parent : StreamID} {scope : Ref} {index : StreamIndex}
    {segment : Segment} (hGathers : segment.Gathers task parent state)
    (hAction : stmt.action = .transformGather) (hStream : task.stream = .child parent scope index) :
    Touches task stmt attempt state.tables segment.state.tables := by
  have hTouches {after : State} (hAfter : Gathers task parent state after) :
      Touches task stmt attempt state.tables after.tables := by
    induction hAfter with
    | refl => exact .refl
    | list hNone _ ih =>
        refine .list _ ih fun other listed hLookup stream hMem => ?_
        rw [Dict.lookup_insert_eq] at hLookup
        split at hLookup
        · cases hLookup
          cases hMem
        · exact Or.inl ⟨listed, hLookup, hMem⟩
    | write result _ ih =>
        rw [State.tables_writeAction]
        exact .write _ ih (.gather hAction hStream (Or.inl rfl))
    | _ => assumption
  cases hGathers <;> exact hTouches ‹_›

theorem touches_beginsGather (hLinked : state.tables.Linked) {task : DelayedTask}
    {segment : Segment} (hBegins : BeginsGather scheduler state task segment)
    (hAction : stmt.action = .transformGather) :
    Touches task.task stmt attempt state.tables segment.state.tables := by
  cases hBegins with
  | skip =>
      simp only [Segment.state, tables_queueSkipped]
      exact .refl
  | close hParent hGathers =>
      obtain ⟨scope, index, hStream⟩ := parentStream_ok hLinked hParent
      exact touches_gathers hGathers hAction hStream
  | _ => exact .refl

theorem touches_finishGatherResult {task : Task} {parent : StreamID} {scope : Ref}
    {index : StreamIndex} (hAction : stmt.action = .transformGather)
    (hStream : task.stream = .child parent scope index) (taskResult : TaskResult)
    (result : StoredObject Datum) (errors : List ActionErrorInfo) :
    Touches task stmt attempt state.tables
      (finishGatherResult state task stmt parent taskResult result errors).state.tables := by
  unfold finishGatherResult
  simp only
  split
  · exact .refl
  · simp only [Segment.state, State.tables_record, LogEntry.isContext, Bool.false_eq_true,
      if_false, State.tables_writeAction]
    exact .write _ .refl (.gather hAction hStream (Or.inr rfl))

theorem touches_finishEmptyGather (task : DelayedTask) {parent : StreamID} {scope : Ref}
    {index : StreamIndex} (hAction : stmt.action = .transformGather)
    (hStream : task.task.stream = .child parent scope index) (result : StoredObject Datum) :
    Touches task.task stmt attempt state.tables
      (scheduler.finishEmptyGather state task parent result).state.tables := by
  simp only [finishEmptyGather, Segment.state, tables_queueTasks, State.tables_record,
    LogEntry.isContext, Bool.false_eq_true, if_false, State.tables_writeAction]
  exact .write _ .refl (.gather hAction hStream (Or.inr rfl))

variable (state) in
theorem touches_handles {task : DelayedTask} {isSkipping : Bool} {segment : Segment}
    (hHandles : Handles scheduler stmt state task isSkipping segment)
    (hLinked : state.tables.Linked) :
    Touches task.task stmt attempt state.tables segment.state.tables := by
  cases hHandles with
  | loopStart => exact touches_handleLoopStart _ _
  | loopEnd => exact touches_handleLoopEnd _ _
  | scatter => exact touches_handleScatter _ _
  | gather hAction => exact touches_beginsGather hLinked (beginsGather ..) hAction
  | skip =>
      simp only [Segment.state, tables_queueSkipped]
      exact .refl
  | execute => exact .refl

theorem touches_begins (hLinked : state.tables.Linked) {coroutine : Coroutine}
    {segment : Segment} (hBegins : Begins scheduler coroutine stmt state segment) :
    Touches coroutine.task stmt attempt state.tables segment.state.tables := by
  induction hBegins with
  | record _ ih => exact ih hLinked
  | raise | wait => exact .refl
  | @skip state _ hHandles | @dispatch state _ hHandles =>
      exact touches_handles (state.record _) hHandles hLinked

/-- A finished attempt of an action with `retry_until` also writes to the root
context. -/
theorem touches_finishExecute (task : DelayedTask) (result : TaskResult)
    (hAttempt : stmt.retryUntil ≠ none → attempt) :
    Touches task.task stmt attempt state.tables
      (scheduler.finishExecute state task stmt result).state.tables := by
  unfold finishExecute
  split
  · exact .refl
  · simp only
    split
    · simp only [Segment.state, tables_handleSuccessPath, State.tables_writeAction]
      exact .write _ .refl .own
    · rename_i hRetry
      simp only [Segment.state, State.tables_writeAction]
      exact .write _ (.write _ .refl .own) (.attempt (hAttempt (by simp [hRetry])))

theorem touches_failExecute (task : Task) (written : Option TaskResult) (exc : Exn)
    (platform : Bool) :
    Touches task stmt attempt state.tables
      (failExecute state task written exc platform).state.tables := by
  unfold failExecute
  split
  · exact .refl
  · split
    · exact .refl
    · simp only [Segment.state, State.tables_writeAction]
      exact .write _ .refl .own

theorem resume_touches {coroutine : Coroutine} {outcome : Outcome} {segment : Segment}
    (hLinked : state.tables.Linked) (hFits : coroutine.pc.fits stmt.action)
    (hWaits : ∀ parent, coroutine.pc.parent? = some parent →
      ∃ scope index, coroutine.task.stream = .child parent scope index)
    (hResume : scheduler.resume state coroutine stmt coroutine.pc outcome = some segment) :
    Touches coroutine.task stmt
      (coroutine.pc = .executing ∧ stmt.retryUntil ≠ none ∧
        ∃ result, outcome = .returned result)
      state.tables segment.state.tables := by
  have hResumes := resumes_of_resume hResume
  generalize coroutine.pc = pc at hFits hWaits hResumes ⊢
  cases hResumes with
  | starts => exact touches_begins hLinked begins_scheduleTask
  | skips => exact touches_begins hLinked (.skip handles_handleSkipPath)
  | runs | runIfRaises => exact touches_begins hLinked (begins_checkReachable _)
  | wakes => exact touches_begins hLinked (.dispatch handles_dispatch)
  | returns result =>
      exact touches_finishExecute coroutine.delayed _ fun hRetry => ⟨rfl, hRetry, _, rfl⟩
  | fails written exc platform => exact touches_failExecute _ _ _ _
  | succeeds result =>
      simp only [Segment.state, tables_handleSuccessPath]
      exact .refl
  | retries result => exact .refl
  | loopStarts =>
      simp only [finishLoopStart, Segment.state, tables_handleSuccessPath]
      exact .refl
  | loopDecides currentIndex value => exact touches_decideLoopEnd _ _ _
  | loopEnds currentIndex shouldContinue =>
      exact touches_finishLoopEnd hLinked coroutine.delayed _ _
  | scatters stored => exact touches_beginScatter _ _
  | scattersNext collection size streams => exact touches_scatterNext _ _ _ _
  | gathers parent stored =>
      obtain ⟨scope, index, hStream⟩ := hWaits parent rfl
      exact touches_gathers (gathers_storeGatherItem _) (by simpa [PC.fits] using hFits) hStream
  | finalizes parent taskResult items result errors =>
      obtain ⟨scope, index, hStream⟩ := hWaits parent rfl
      exact touches_finishGatherResult (by simpa [PC.fits] using hFits) hStream _ _ _
  | finalizesEmpty parent result errors =>
      obtain ⟨scope, index, hStream⟩ := hWaits parent rfl
      exact touches_finishEmptyGather coroutine.delayed (by simpa [PC.fits] using hFits) hStream _
  | gathered parent =>
      simp only [finishGather, Segment.state, tables_queueTasks]
      exact .refl
  | raises hError => exact .refl

end DSLScheduler

end Tracecat
