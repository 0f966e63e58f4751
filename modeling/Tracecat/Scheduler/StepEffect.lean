import Tracecat.Scheduler.Effect

/-!
# Every step is an effect

The handlers of `_schedule_task` one by one: what each leaves of the control
state is an `Effect`.  `resume_effect` puts them together for a resumed
coroutine, and `Move` adds the spawn of a queued task.
-/

namespace Tracecat

/-- A segment that starts in the control state `control` ends in an effect; a
segment that raises has not touched the control state, unless it belongs to a
gather, or to a scatter that has made its list of streams. -/
def Segment.Yields (scheduler : DSLScheduler) (control : Control) (coroutine : Coroutine)
    (stmt : ActionStatement) : Segment → Prop
  | .finish after => Effect scheduler control coroutine stmt (after.control scheduler) none
  | .suspend after pc =>
      Effect scheduler control coroutine stmt (after.control scheduler) (some pc)
  | .raise after _ _ =>
      stmt.action = .transformGather ∨ after.control scheduler = control ∨
        (stmt.action = .transformScatter ∧ coroutine.pc = .scatterInput ∧
          after.control scheduler =
            { control with
              listed := Function.update control.listed coroutine.task (some []) })

/-- The control state after an effect, with the coroutine at `index` suspended
or gone. -/
def Control.settle (control : Control) (index : Nat) (coroutine : Coroutine) :
    Option PC → Control
  | some pc => { control with pending := control.pending.set index { coroutine with pc := pc } }
  | none => { control with pending := control.pending.eraseIdx index }

namespace DSLScheduler

variable (scheduler : DSLScheduler) {state : State} {coroutine : Coroutine}
  {stmt : ActionStatement}

/-! ## Loops -/

variable (state) in
theorem handleLoopStart_yields (hAction : stmt.action = .loopStart)
    (hPc : coroutine.pc.isEarly) (isSkipping : Bool) :
    (scheduler.handleLoopStart state coroutine.delayed isSkipping).Yields scheduler
      (state.control scheduler) coroutine stmt := by
  unfold handleLoopStart
  cases isSkipping with
  | true =>
      simp only [if_true, Segment.Yields, control_queueSkipped]
      exact .emit (by simp [hAction]) (by simp [hAction])
  | false =>
      simp only [Bool.false_eq_true, if_false]
      split
      · exact Or.inr (Or.inl rfl)
      · simp only [Segment.Yields, State.control_writeAction]
        exact .wait (Or.inl hPc) rfl (by simp [PC.fits, hAction])

variable (state) in
theorem handleLoopEnd_yields (hAction : stmt.action = .loopEnd)
    (hPc : coroutine.pc.isEarly) (isSkipping : Bool) :
    (scheduler.handleLoopEnd state coroutine.delayed stmt isSkipping).Yields scheduler
      (state.control scheduler) coroutine stmt := by
  unfold handleLoopEnd
  split
  · exact Or.inr (Or.inl rfl)
  · split
    · exact Or.inr (Or.inl rfl)
    · cases isSkipping with
      | false => exact .wait (Or.inl hPc) rfl (by simp [PC.fits, hAction])
      | true =>
          simp only [if_true]
          have hScatter : stmt.action ≠ .transformScatter := by simp [hAction]
          have hGather : stmt.action ≠ .transformGather := by simp [hAction]
          rename_i region _ _ _ _
          by_cases hSkip : (region.startRef, coroutine.delayed.task.stream) ∈ state.loopStartSkips
          · simp only [hSkip, decide_true, if_true]
            split
            · exact Or.inr (Or.inl rfl)
            · simp only [Segment.Yields, control_queueSkipped]
              exact .emit_of_eq hScatter hGather (State.control_writeAction scheduler _ _ _ _ _)
          · simp only [hSkip, decide_false, Bool.false_eq_true, if_false]
            split
            · exact Or.inr (Or.inl rfl)
            · simp only [Segment.Yields, control_handleSuccessPath]
              exact .emit_of_eq hScatter hGather (State.control_writeAction scheduler _ _ _ _ _)

theorem decideLoopEnd_yields (hAction : stmt.action = .loopEnd) (currentIndex : Nat)
    (hPc : coroutine.pc = .loopEndCond currentIndex) (shouldContinue : Bool) :
    (decideLoopEnd state coroutine.task currentIndex shouldContinue).Yields scheduler
      (state.control scheduler) coroutine stmt := by
  unfold decideLoopEnd
  split
  · exact Or.inr (Or.inl rfl)
  · simp only [Segment.Yields, State.control_writeAction]
    exact .wait (Or.inr (by simp [hPc, PC.isPlainWait])) rfl (by simp [PC.fits, hAction])

theorem finishLoopEnd_yields (hAction : stmt.action = .loopEnd) (currentIndex : Nat)
    (shouldContinue : Bool) (hPc : coroutine.pc = .loopEndExec currentIndex shouldContinue) :
    (scheduler.finishLoopEnd state coroutine.delayed stmt currentIndex shouldContinue).Yields
      scheduler (state.control scheduler) coroutine stmt := by
  unfold finishLoopEnd
  split
  · rename_i region args hRegion _
    cases shouldContinue with
    | false =>
        simp only [Bool.false_eq_true, if_false, Segment.Yields, control_handleSuccessPath]
        exact .emit (by simp [hAction]) (by simp [hAction])
    | true =>
        simp only [if_true]
        split
        · exact Or.inr (Or.inl rfl)
        · simp only [Segment.Yields]
          have hLoop : Effect scheduler _ _ _ _ _ := .loopBack hAction hPc hRegion
            (state.removes scheduler region coroutine.task.stream)
          have hReset := scheduler.control_resetLoopIterationState state region
            coroutine.task.stream
          have hQueue : (scheduler.resetLoopIterationState state region
              coroutine.task.stream).queue = state.queue :=
            congrArg Control.queue hReset
          convert hLoop using 1
          rw [← hReset]
          unfold State.control
          simp only [Coroutine.delayed_task, hQueue]
          rfl
  · exact Or.inr (Or.inl rfl)
  · exact Or.inr (Or.inl rfl)

/-! ## Scatters -/

theorem control_handleScatterSkipStream (task : Task) :
    (scheduler.handleScatterSkipStream state task).control scheduler =
      (state.control scheduler).scatterSkip scheduler.dsl task := by
  unfold handleScatterSkipStream Control.scatterSkip
  rw [control_queueSkipped, State.control_openStream]
  rfl

variable (state) in
theorem handleScatter_yields (hAction : stmt.action = .transformScatter)
    (hPc : coroutine.pc.isEarly) (isSkipping : Bool) :
    (scheduler.handleScatter state coroutine.task stmt isSkipping).Yields scheduler
      (state.control scheduler) coroutine stmt := by
  unfold handleScatter
  cases isSkipping with
  | true =>
      simp only [if_true, Segment.Yields, control_handleScatterSkipStream]
      exact .skipScatter hAction hPc
  | false =>
      simp only [Bool.false_eq_true, if_false]
      split
      · exact Or.inr (Or.inl rfl)
      · split
        · exact Or.inr (Or.inl rfl)
        · exact .wait (Or.inl hPc) rfl (by simp [PC.fits, hAction])

theorem control_scatterItem (task : Task) (interval : Option Int)
    (collection : StoredObject Json) (streams : List StreamID) :
    (scheduler.scatterItem state task interval collection streams).control scheduler =
      (state.control scheduler).scatterItem scheduler.dsl task streams
        (streams.length * interval.getD 0) := by
  unfold scatterItem Control.scatterItem
  rw [control_queueTasks_nil]
  congr 1
  unfold State.openStream State.control Control.openStream
  simp only [Control.mk.injEq, true_and, and_true]
  refine ⟨rfl, rfl, ?_, ?_⟩
  · funext other
    rw [Function.update_apply]
    exact Dict.lookup_insert_eq _ _ _ _
  · cases hListed : state.taskStreams.lookup task with
    | none => simp
    | some listed =>
        by_cases hSame : listed = streams
        · simp only [hSame, if_true]
          funext other
          rw [Function.update_apply]
          exact Dict.lookup_insert_eq _ _ _ _
        · simp [hSame]

theorem scatterNext_yields (hAction : stmt.action = .transformScatter)
    {collection : StoredObject Json} {size : Nat} {streams : List StreamID}
    (hPc : coroutine.pc = .scatterLoop collection size streams) :
    (scheduler.scatterNext state coroutine.task stmt collection size streams).Yields scheduler
      (state.control scheduler) coroutine stmt := by
  unfold scatterNext
  split
  · rename_i hSize
    simp only [Segment.Yields, control_scatterItem]
    exact .nextItem hAction hPc hSize
  · rename_i hSize
    simp only [Segment.Yields]
    have hScattered : Effect scheduler (state.control scheduler) _ _ _ _ :=
      .scattered hAction hPc (Nat.le_of_not_lt hSize)
    convert hScattered using 1
    unfold State.control
    simp only [Control.mk.injEq, true_and]
    refine ⟨rfl, rfl, ?_⟩
    funext other
    rw [Function.update_apply]
    exact Dict.lookup_insert_eq _ _ _ _

theorem beginScatter_yields (hAction : stmt.action = .transformScatter)
    (hPc : coroutine.pc = .scatterInput) (collection : StoredObject Json) :
    (scheduler.beginScatter state coroutine.task stmt collection).Yields scheduler
      (state.control scheduler) coroutine stmt := by
  have hListed : ({ state with
        taskStreams := state.taskStreams.insert coroutine.task [] } : State).control scheduler =
      { state.control scheduler with
        listed := Function.update (state.control scheduler).listed coroutine.task
          (some []) } := by
    unfold State.control
    simp only [Control.mk.injEq, true_and, and_true]
    refine ⟨rfl, rfl, ?_⟩
    funext other
    rw [Function.update_apply]
    exact Dict.lookup_insert_eq _ _ _ _
  unfold beginScatter
  simp only
  split
  · exact Or.inr (Or.inr ⟨hAction, hPc, hListed⟩)
  · simp only [Segment.Yields, control_handleScatterSkipStream]
    have hEmpty : Effect scheduler (state.control scheduler) _ _ _ _ :=
      .emptyScatter hAction hPc
    convert hEmpty using 2
    unfold State.control
    simp only [Control.mk.injEq, true_and]
    refine ⟨rfl, rfl, ?_, ?_⟩
    · funext other
      rw [Function.update_apply]
      exact Dict.lookup_insert_eq _ _ _ _
    · funext other
      rw [Function.update_apply]
      exact Dict.lookup_insert_eq _ _ _ _
  · rename_i size hZero _
    have hSize : 0 < size := Nat.pos_of_ne_zero (by simpa using hZero)
    unfold scatterNext
    simp only [List.length_nil, hSize, if_true, Segment.Yields, control_scatterItem,
      State.control_record, hListed, List.nil_append]
    exact .firstItem hAction hPc hSize

/-! ## Gathers -/

theorem handleGatherResult_yields {after : Control} (task : Task) (parent : StreamID)
    (hLast : ∀ result items, Effect scheduler after coroutine stmt (state.control scheduler)
      (some (.gatherFinalize parent result items)))
    (hAction : stmt.action = .transformGather) :
    (scheduler.handleGatherResult state task parent).Yields scheduler after coroutine
      stmt := by
  unfold handleGatherResult
  simp only
  have hSame : (if (gatherEntry state ⟨task.ref, parent⟩).isSome then state
      else state.writeAction task parent task.ref (.fromResult (.slots []))).control
        scheduler = state.control scheduler := by
    split
    · rfl
    · exact State.control_writeAction scheduler _ _ _ _ _
  split
  · exact Or.inl hAction
  · rename_i result _
    split
    · exact Or.inl hAction
    · split
      · exact Or.inl hAction
      · split
        · exact Or.inl hAction
        · rename_i items _
          simp only [Segment.Yields, State.control_record, hSame]
          exact hLast result items

/-- Storing a slot leaves the control state alone, up to the default list that
reading `task_streams` may create. -/
theorem control_collect (task : Task) (parent : StreamID) (scatter : Task) (index : Nat)
    (slot : GatherSlot) {after : State}
    (hStored : collect state task parent scatter index slot = .ok after) :
    ∃ listed, after.control scheduler = { state.control scheduler with listed := listed } ∧
      (listed = (state.control scheduler).listed ∨
        (state.control scheduler).listed scatter = none ∧
          listed = Function.update (state.control scheduler).listed scatter (some [])) := by
  unfold collect at hStored
  simp only at hStored
  by_cases hEntry : (gatherEntry state ⟨task.ref, parent⟩).isSome
  · rw [if_pos hEntry] at hStored
    split at hStored
    · cases hStored
    · split at hStored
      · cases hStored
      · cases hStored
        refine ⟨_, ?_, Or.inl rfl⟩
        rw [State.control_writeAction, State.control_record]
  · rw [if_neg hEntry] at hStored
    split at hStored
    · cases hStored
    · split at hStored
      · cases hStored
      · cases hStored
        rw [State.control_writeAction, State.control_record, State.control_writeAction]
        cases hListed : state.taskStreams.lookup scatter with
        | some listed =>
            refine ⟨_, ?_, Or.inl rfl⟩
            simp
        | none =>
            refine ⟨_, ?_, Or.inr ⟨hListed, rfl⟩⟩
            simp only [Option.isSome_none, Bool.false_eq_true, if_false]
            unfold State.control
            simp only [Control.mk.injEq, true_and, and_true]
            refine ⟨rfl, rfl, ?_⟩
            funext other
            rw [Function.update_apply]
            exact Dict.lookup_insert_eq _ _ _ _

theorem control_closeStream {scatter : Task} {after : State} {remaining : Int}
    (hClosed : closeStream state scatter = .ok (after, remaining)) :
    (state.control scheduler).opened scatter = some (remaining + 1) ∧
      after.control scheduler =
        { state.control scheduler with
          opened := Function.update (state.control scheduler).opened scatter
            (some remaining) } := by
  unfold closeStream at hClosed
  split at hClosed
  · cases hClosed
  · rename_i opened hOpened
    cases hClosed
    refine ⟨?_, ?_⟩
    · simp [State.control, hOpened]
    · unfold State.control
      simp only [Control.mk.injEq, true_and]
      refine ⟨rfl, rfl, ?_⟩
      funext other
      rw [Function.update_apply]
      exact Dict.lookup_insert_eq _ _ _ _

variable (coroutine) in
/-- A gather that has closed its stream ends, or finalizes when it closed the
last one. -/
theorem close_yields {base parent : StreamID} {scatter : Ref} {index : Nat}
    {remaining : Int} {after : State} {listed : Task → Option (List StreamID)}
    (hAction : stmt.action = .transformGather)
    (hStream : coroutine.task.stream = .child base scatter (.item index))
    (hParent : coroutine.pc = .gatherItem parent ∨
      coroutine.pc.isEarly ∧
        (state.control scheduler).parent coroutine.task.stream = some (some parent))
    (hOpened : (state.control scheduler).opened ⟨scatter, parent⟩ = some (remaining + 1))
    (hControl : after.control scheduler =
      { state.control scheduler with
        opened := Function.update (state.control scheduler).opened ⟨scatter, parent⟩
          (some remaining)
        listed := listed })
    (hListed : listed = (state.control scheduler).listed ∨
      (state.control scheduler).listed ⟨scatter, parent⟩ = none ∧
        listed = Function.update (state.control scheduler).listed ⟨scatter, parent⟩
          (some [])) :
    (if remaining = 0 then scheduler.handleGatherResult after coroutine.task parent
      else .finish after).Yields scheduler (state.control scheduler) coroutine stmt := by
  split
  · rename_i hZero
    subst hZero
    refine scheduler.handleGatherResult_yields _ _ (fun result items => ?_) hAction
    rw [hControl]
    exact .closeLast hAction hStream hParent hOpened hListed
  · rename_i hMore
    simp only [Segment.Yields, hControl]
    have hClose : Effect scheduler _ _ _ _ _ :=
      .close hAction hStream hParent hOpened (by simpa using hMore) hListed
    simpa using hClose

variable (state) in
theorem handleGather_yields (hAction : stmt.action = .transformGather)
    (hPc : coroutine.pc.isEarly) (isSkipping : Bool)
    (hObserved : ∀ base scatter parent, coroutine.task.stream = .child base scatter .skip →
      state.streamHierarchy.lookup coroutine.task.stream = some (some parent) →
      state.openStreams.lookup ⟨scatter, parent⟩ ≠ none) :
    (scheduler.handleGather state coroutine.delayed stmt isSkipping).Yields scheduler
      (state.control scheduler) coroutine stmt := by
  unfold handleGather
  simp only [Coroutine.delayed_task]
  split
  · split <;> exact Or.inl hAction
  · rename_i base scatter hStream
    split
    · exact Or.inl hAction
    · rename_i parent hParent
      have hLookup : state.streamHierarchy.lookup coroutine.task.stream =
          some (some parent) := by
        unfold parentStream at hParent
        split at hParent <;> cases hParent
        assumption
      have hOpened := hObserved base scatter parent hStream hLookup
      rw [if_pos (Option.isSome_iff_ne_none.mpr hOpened)]
      split
      · exact Or.inl hAction
      · simp only [Segment.Yields, State.control_record]
        exact .waitEmpty hAction hPc hStream hLookup hOpened
  · rename_i base scatter index hStream
    split
    · exact Or.inl hAction
    · rename_i parent hParent
      have hLookup : state.streamHierarchy.lookup coroutine.task.stream =
          some (some parent) := by
        unfold parentStream at hParent
        split at hParent <;> cases hParent
        assumption
      cases isSkipping with
      | false =>
          simp only [Bool.false_eq_true, if_false]
          split
          · exact Or.inl hAction
          · split
            · exact Or.inl hAction
            · exact .waitItem hAction hPc hStream hLookup
      | true =>
          simp only [if_true]
          split
          · exact Or.inl hAction
          · rename_i after remaining hClosed
            obtain ⟨hOpened, hControl⟩ := scheduler.control_closeStream hClosed
            unfold handleGatherSkipStream
            split
            · exact Or.inl hAction
            · simp only
              split
              · exact Or.inl hAction
              · rename_i stored hStored
                have hAfter : ∃ listed, stored.control scheduler =
                    { after.control scheduler with listed := listed } ∧
                    (listed = (after.control scheduler).listed ∨
                      (after.control scheduler).listed ⟨scatter, parent⟩ = none ∧
                        listed = Function.update (after.control scheduler).listed
                          ⟨scatter, parent⟩ (some [])) := by
                  split at hStored
                  · exact scheduler.control_collect _ _ _ _ _ hStored
                  · cases hStored
                    exact ⟨_, rfl, Or.inl rfl⟩
                obtain ⟨listed, hStoredControl, hListed⟩ := hAfter
                rw [hControl] at hStoredControl hListed
                have hYields := scheduler.close_yields coroutine hAction hStream
                  (Or.inr ⟨hPc, hLookup⟩) hOpened hStoredControl hListed
                split
                · rename_i hZero
                  split
                  · exact Or.inl hAction
                  · rw [if_pos hZero] at hYields
                    exact hYields
                · rename_i hMore
                  rw [if_neg hMore] at hYields
                  exact hYields

theorem storeGatherItem_yields (hAction : stmt.action = .transformGather) {parent : StreamID}
    (hPc : coroutine.pc = .gatherItem parent) (item : StoredObject Json) :
    (scheduler.storeGatherItem state coroutine.task parent item).Yields scheduler
      (state.control scheduler) coroutine stmt := by
  unfold storeGatherItem
  split
  · rename_i base scatter index hStream
    split
    · exact Or.inl hAction
    · rename_i after remaining hClosed
      obtain ⟨hOpened, hControl⟩ := scheduler.control_closeStream hClosed
      split
      · exact Or.inl hAction
      · split
        · exact Or.inl hAction
        · rename_i stored hStored
          obtain ⟨listed, hStoredControl, hListed⟩ :=
            scheduler.control_collect _ _ _ _ _ hStored
          rw [hControl] at hStoredControl hListed
          exact scheduler.close_yields coroutine hAction hStream (Or.inl hPc) hOpened hStoredControl
            hListed
  · exact Or.inl hAction

theorem finishGatherResult_yields (hAction : stmt.action = .transformGather)
    {parent : StreamID} {taskResult : TaskResult} {items : List (StoredObject Json)}
    (hPc : coroutine.pc = .gatherFinalize parent taskResult items)
    (result : StoredObject Datum) (errors : List ActionErrorInfo) :
    (finishGatherResult state coroutine.task stmt parent taskResult result errors).Yields
      scheduler (state.control scheduler) coroutine stmt := by
  unfold finishGatherResult
  simp only
  split
  · exact Or.inl hAction
  · simp only [Segment.Yields, State.control_record, State.control_writeAction]
    exact .finalized hAction hPc

theorem finishGather_yields (hAction : stmt.action = .transformGather) {parent : StreamID}
    (hPc : coroutine.pc = .gatherExec parent) :
    (scheduler.finishGather state coroutine.delayed parent).Yields scheduler
      (state.control scheduler) coroutine stmt := by
  unfold finishGather
  simp only [Segment.Yields, control_queueTasks_nil]
  exact .gathered hAction hPc

theorem finishEmptyGather_yields (hAction : stmt.action = .transformGather)
    {parent : StreamID} (hPc : coroutine.pc = .gatherEmpty parent)
    (result : StoredObject Datum) :
    (scheduler.finishEmptyGather state coroutine.delayed parent result).Yields scheduler
      (state.control scheduler) coroutine stmt := by
  unfold finishEmptyGather
  simp only [Segment.Yields, control_queueTasks_nil, State.control_record,
    State.control_writeAction]
  exact .gatheredEmpty hAction hPc

/-! ## `_schedule_task` -/

/-- The scatter of a gather that runs in a skip stream has been observed. -/
def ObservedSkip (state : State) (task : Task) : Prop :=
  ∀ base scatter parent, task.stream = .child base scatter .skip →
    state.streamHierarchy.lookup task.stream = some (some parent) →
    state.openStreams.lookup ⟨scatter, parent⟩ ≠ none

variable (state) in
theorem handles_yields {isSkipping : Bool} {segment : Segment}
    (hHandles : Handles scheduler stmt state coroutine.delayed isSkipping segment)
    (hPc : coroutine.pc.isEarly)
    (hObserved : stmt.action = .transformGather → ObservedSkip state coroutine.task) :
    segment.Yields scheduler (state.control scheduler) coroutine stmt := by
  cases hHandles with
  | loopStart hAction => exact scheduler.handleLoopStart_yields state hAction hPc _
  | loopEnd hAction => exact scheduler.handleLoopEnd_yields state hAction hPc _
  | scatter hAction => exact scheduler.handleScatter_yields state hAction hPc _
  | gather hAction => exact scheduler.handleGather_yields state hAction hPc _ (hObserved hAction)
  | skip _ hPlain =>
      simp only [Segment.Yields, control_queueSkipped]
      refine .emit ?_ ?_ <;>
      · rintro hKind
        simp [hKind, ActionType.isPlain, ActionType.isOpener, ActionType.isCloser] at hPlain
  | execute _ hPlain => exact .wait (Or.inl hPc) rfl hPlain

theorem begins_yields {segment : Segment} (hBegins : Begins scheduler coroutine stmt state segment)
    (hPc : coroutine.pc.isEarly)
    (hObserved : stmt.action = .transformGather → ObservedSkip state coroutine.task) :
    segment.Yields scheduler (state.control scheduler) coroutine stmt := by
  induction hBegins with
  | record _ ih => exact ih hObserved
  | raise => exact Or.inr (Or.inl rfl)
  | wait hWait => rcases hWait with rfl | rfl <;> exact .wait (Or.inl hPc) rfl rfl
  | @skip state _ hHandles | @dispatch state _ hHandles =>
      exact scheduler.handles_yields (state.record _) hHandles hPc hObserved

theorem finishExecute_yields (hAction : stmt.action.isPlain) (hPc : coroutine.pc = .executing)
    (result : TaskResult) :
    (scheduler.finishExecute state coroutine.delayed stmt result).Yields scheduler
      (state.control scheduler) coroutine stmt := by
  unfold finishExecute
  split
  · exact Or.inr (Or.inl rfl)
  · simp only
    split
    · simp only [Segment.Yields, control_handleSuccessPath, State.control_writeAction]
      refine .emit ?_ ?_ <;>
      · rintro hKind
        simp [hKind, ActionType.isPlain, ActionType.isOpener, ActionType.isCloser] at hAction
    · simp only [Segment.Yields, State.control_writeAction]
      exact .wait (Or.inr (by simp [hPc, PC.isPlainWait])) rfl hAction

theorem failExecute_yields (written : Option TaskResult) (exc : Exn) (platform : Bool) :
    (failExecute state coroutine.task written exc platform).Yields scheduler
      (state.control scheduler) coroutine stmt := by
  unfold failExecute
  split
  · exact Or.inr (Or.inl rfl)
  · split
    · exact Or.inr (Or.inl rfl)
    · exact Or.inr (Or.inl (State.control_writeAction scheduler _ _ _ _ _))

theorem resume_yields {outcome : Outcome} {segment : Segment}
    (hFits : coroutine.pc.fits stmt.action)
    (hObserved : stmt.action = .transformGather → coroutine.pc.isEarly →
      ObservedSkip state coroutine.task)
    (hResume : scheduler.resume state coroutine stmt coroutine.pc outcome = some segment) :
    segment.Yields scheduler (state.control scheduler) coroutine stmt := by
  have hEarly (hPc : coroutine.pc.isEarly) (hAction : stmt.action = .transformGather) :=
    hObserved hAction hPc
  have hResumes := resumes_of_resume hResume
  generalize hPc : coroutine.pc = pc at hFits hEarly hResumes
  have hRuns (hIsEarly : pc.isEarly) : coroutine.pc.isEarly := hPc ▸ hIsEarly
  cases hResumes with
  | starts => exact scheduler.begins_yields begins_scheduleTask (hRuns rfl) (hEarly rfl)
  | skips =>
      exact scheduler.begins_yields (.skip handles_handleSkipPath) (hRuns rfl) (hEarly rfl)
  | runs | runIfRaises =>
      exact scheduler.begins_yields (begins_checkReachable _) (hRuns rfl) (hEarly rfl)
  | wakes => exact scheduler.begins_yields (.dispatch handles_dispatch) (hRuns rfl) (hEarly rfl)
  | returns result => exact scheduler.finishExecute_yields hFits hPc _
  | fails written exc platform => exact scheduler.failExecute_yields _ _ _
  | succeeds result =>
      have hScatter : stmt.action ≠ .transformScatter := by
        rintro hKind
        simp [PC.fits, hKind, ActionType.isPlain, ActionType.isOpener] at hFits
      have hGather : stmt.action ≠ .transformGather := by
        rintro hKind
        simp [PC.fits, hKind, ActionType.isPlain, ActionType.isCloser] at hFits
      simp only [Segment.Yields, control_handleSuccessPath]
      exact .emit hScatter hGather
  | retries result => exact .wait (Or.inr (by simp [hPc, PC.isPlainWait])) rfl hFits
  | loopStarts =>
      have hAction : stmt.action = .loopStart := by simpa [PC.fits] using hFits
      simp only [finishLoopStart, Segment.Yields, control_handleSuccessPath]
      exact .emit (by simp [hAction]) (by simp [hAction])
  | loopDecides currentIndex value =>
      exact scheduler.decideLoopEnd_yields (by simpa [PC.fits] using hFits) currentIndex hPc _
  | loopEnds currentIndex shouldContinue =>
      exact scheduler.finishLoopEnd_yields (by simpa [PC.fits] using hFits) _ _ hPc
  | scatters stored =>
      exact scheduler.beginScatter_yields (by simpa [PC.fits] using hFits) hPc _
  | scattersNext collection size streams =>
      exact scheduler.scatterNext_yields (by simpa [PC.fits] using hFits) hPc
  | gathers parent stored =>
      exact scheduler.storeGatherItem_yields (by simpa [PC.fits] using hFits) hPc _
  | finalizes parent taskResult items result errors =>
      exact scheduler.finishGatherResult_yields (by simpa [PC.fits] using hFits) hPc _ _
  | finalizesEmpty parent result errors =>
      exact scheduler.finishEmptyGather_yields (by simpa [PC.fits] using hFits) hPc _
  | gathered parent => exact scheduler.finishGather_yields (by simpa [PC.fits] using hFits) hPc
  | raises hError => exact Or.inr (Or.inl rfl)

end DSLScheduler

end Tracecat
