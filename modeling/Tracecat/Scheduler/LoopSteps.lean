import Tracecat.Scheduler.Steady

/-!
# What a step does to the loops

A resumed coroutine is steady, or it is a loop start that begins a pass, or a
loop end that leaves its loop, misses to leave it because the handler raises
first, or restarts it.
-/

namespace Tracecat

/-- The iteration index that a suspended loop end has read. -/
def PC.captured? : PC → Option Nat
  | loopEndCond index | loopEndExec index _ => some index
  | _ => none

/-- A loop start stores the iteration index of its stream. -/
structure Begins (scheduler : DSLScheduler) (task : Task) (before after : State) : Prop
    extends KeepsDue scheduler before after where
  live : (after.streams.lookup task.stream).isSome
  indices : after.loopIndices = before.loopIndices
  events : scheduler.loopEvents after =
    .wrote task task.stream task.ref
        (iterationResult (before.loopIndices.getD (task.ref, task.stream) 0)) ::
      scheduler.loopEvents before

/-- A loop end reports successes or skips of itself. -/
structure Reports (scheduler : DSLScheduler) (task : Task) (added : List LogEntry)
    (before after : State) : Prop extends KeepsDue scheduler before after where
  events : scheduler.loopEvents after = added ++ scheduler.loopEvents before
  own : ∀ entry ∈ added, entry = .succeeded task ∨ entry = .skipping task

/-- The state in which a loop end restarts its loop. -/
def DSLScheduler.restart (scheduler : DSLScheduler) (state : State) (region : LoopRegion)
    (stream : StreamID) (nextIndex : Nat) : State :=
  let reset := scheduler.resetLoopIterationState state region stream
  { reset with
    loopIndices := reset.loopIndices.insert (region.startRef, stream) nextIndex
    queue := reset.queue ++ [⟨⟨region.startRef, stream⟩, 0⟩] }

/-- What a resumed coroutine does to the loops. -/
inductive LoopEffect (scheduler : DSLScheduler) (before : State) (coroutine : Coroutine)
    (stmt : ActionStatement) : Segment → Prop
  | steady {segment : Segment} (hSteady : segment.Steady scheduler coroutine.pc.isEarly before)
      (hCaptured : stmt.action = .loopEnd → ∀ after pc index, segment = .suspend after pc →
        pc.captured? = some index → coroutine.pc.captured? = some index ∨
          ∃ region, scheduler.regionByEnd? coroutine.task.ref = some region ∧
            index = before.loopIndices.getD (region.startRef, coroutine.task.stream) 0) :
      LoopEffect scheduler before coroutine stmt segment
  | begins {after : State} (hAction : stmt.action = .loopStart) (hEarly : coroutine.pc.isEarly)
      (hBegins : Begins scheduler coroutine.task before after) :
      LoopEffect scheduler before coroutine stmt (.suspend after .loopStartExec)
  | leaves {after : State} {region : LoopRegion} {added : List LogEntry}
      (hAction : stmt.action = .loopEnd)
      (hRegion : scheduler.regionByEnd? coroutine.task.ref = some region)
      (hSome : added ≠ []) (hReports : Reports scheduler coroutine.task added before after)
      (hIndices : after.loopIndices =
        before.loopIndices.erase (region.startRef, coroutine.task.stream)) :
      LoopEffect scheduler before coroutine stmt (.finish after)
  | misses {after : State} {exc : Exn} {platform : Bool} {added : List LogEntry}
      (hAction : stmt.action = .loopEnd) (hSome : added ≠ [])
      (hReports : Reports scheduler coroutine.task added before after)
      (hIndices : after.loopIndices = before.loopIndices)
      (hReason : ∀ region, scheduler.regionByEnd? coroutine.task.ref = some region →
        before.streams.lookup coroutine.task.stream = none ∨
          ∀ args, DSLScheduler.loopEndArgs stmt ≠ .ok args) :
      LoopEffect scheduler before coroutine stmt (.raise after exc platform)
  | restarts {region : LoopRegion} {args : LoopEndArgs} {index : Nat}
      (hAction : stmt.action = .loopEnd) (hPc : coroutine.pc = .loopEndExec index true)
      (hRegion : scheduler.regionByEnd? coroutine.task.ref = some region)
      (hArgs : DSLScheduler.loopEndArgs stmt = .ok args)
      (hBound : ((index + 1 : Nat) : Int) < args.maxIterations) :
      LoopEffect scheduler before coroutine stmt
        (.finish (scheduler.restart before region coroutine.task.stream (index + 1)))

namespace Reports

variable {scheduler : DSLScheduler} {task : Task} {added : List LogEntry}
  {before state after : State} {coroutine : Coroutine}

theorem of_steady (hSteady : Steady scheduler before after) :
    Reports scheduler task [] before after :=
  ⟨hSteady.toKeepsDue, hSteady.events, by simp⟩

theorem steady (hReports : Reports scheduler task added before state)
    (hSteady : Steady scheduler state after) : Reports scheduler task added before after :=
  ⟨hReports.toKeepsDue.trans hSteady.toKeepsDue, hSteady.events.trans hReports.events,
    hReports.own⟩

theorem record {entry : LogEntry} (hReports : Reports scheduler task added before state)
    (hEvent : scheduler.isLoopEvent entry = true)
    (hEntry : entry = .succeeded task ∨ entry = .skipping task) :
    Reports scheduler task (entry :: added) before (state.record entry) := by
  refine ⟨hReports.toKeepsDue.trans ⟨fun _ => rfl, rfl, fun _ h => h⟩, ?_, ?_⟩
  · rw [show scheduler.loopEvents (state.record entry) = entry :: scheduler.loopEvents state from
      List.filter_cons_of_pos hEvent, hReports.events]
    rfl
  · intro other hOther
    rcases List.mem_cons.mp hOther with rfl | hOld
    · exact hEntry
    · exact hReports.own other hOld

theorem indices (hReports : Reports scheduler task added before state)
    (indices : Dict (Ref × StreamID) Nat) :
    Reports scheduler task added before { state with loopIndices := indices } :=
  ⟨hReports.toKeepsDue.trans ⟨fun _ => rfl, rfl, fun _ h => h⟩, hReports.events, hReports.own⟩

theorem handleSuccessPath (hReports : Reports scheduler coroutine.task added before state)
    (hEnd : scheduler.hasType coroutine.task.ref .loopEnd = true) :
    Reports scheduler coroutine.task (.succeeded coroutine.task :: added) before
      (scheduler.handleSuccessPath state coroutine.delayed) := by
  have hEvent : scheduler.isLoopEvent (.succeeded coroutine.task) = true := hEnd
  exact (hReports.record hEvent (Or.inl rfl)).steady (scheduler.steady_queueTasks _ _ _)

end Reports

namespace DSLScheduler

variable (scheduler : DSLScheduler) {before state : State} {coroutine : Coroutine}
  {stmt : ActionStatement}

theorem loopEffect_of_steady {segment : Segment}
    (hSteady : segment.Steady scheduler coroutine.pc.isEarly before)
    (hNone : ∀ after pc, segment = .suspend after pc → pc.captured? = none) :
    LoopEffect scheduler before coroutine stmt segment := by
  refine .steady hSteady fun _ after pc index hSegment hIndex => ?_
  rw [hNone after pc hSegment] at hIndex
  cases hIndex

theorem loopEffect_raise (hBefore : Steady scheduler before state) (exc : Exn)
    (platform : Bool) :
    LoopEffect scheduler before coroutine stmt (.raise state exc platform) :=
  scheduler.loopEffect_of_steady hBefore (by simp)

/-! ### Loop starts -/

theorem loopEffect_handleLoopStart (hBefore : Steady scheduler before state)
    (hAction : stmt.action = .loopStart) (hEarly : coroutine.pc.isEarly)
    (hStart : scheduler.hasType coroutine.task.ref .loopStart = true) (isSkipping : Bool) :
    LoopEffect scheduler before coroutine stmt
      (scheduler.handleLoopStart state coroutine.delayed isSkipping) := by
  unfold handleLoopStart
  cases isSkipping with
  | true =>
      refine scheduler.loopEffect_of_steady ?_ (by simp)
      refine hBefore.trans (.trans ?_ (scheduler.steady_queueSkipped _ _))
      exact .of_eq rfl rfl rfl rfl rfl
  | false =>
      simp only [Bool.false_eq_true, if_false]
      have hSkips : Steady scheduler before { state with
          loopStartSkips := state.loopStartSkips.filter fun key =>
            decide (key ≠ (coroutine.task.ref, coroutine.task.stream)) } :=
        hBefore.trans (.of_eq rfl rfl rfl rfl rfl)
      split
      · exact scheduler.loopEffect_raise hSkips _ _
      · rename_i context hContext
        rw [Coroutine.delayed_task] at hContext
        refine .begins hAction hEarly ⟨hSkips.toKeepsDue.trans
          (State.keepsDue_writeAction _ _ _ _), ?_, ?_, ?_⟩
        · exact State.alive_writeAction _ _ _ _ (by simp [hContext])
        · rw [State.loopIndices_writeAction]
          exact hSkips.indices
        · rw [← hSkips.events, ← hSkips.indices]
          unfold State.writeAction
          rw [Coroutine.delayed_task, hContext]
          exact List.filter_cons_of_pos hStart

/-! ### Loop ends -/

theorem loopIndices_handleSuccessPath (task : DelayedTask) :
    (scheduler.handleSuccessPath state task).loopIndices = state.loopIndices :=
  (scheduler.steady_queueTasks _ task _).indices

variable {scheduler}

theorem loopEffect_handleLoopEnd_skip (hBefore : Steady scheduler before state)
    (hAction : stmt.action = .loopEnd)
    (hStart : scheduler.hasType coroutine.task.ref .loopStart = false)
    (hEnd : scheduler.hasType coroutine.task.ref .loopEnd = true) :
    LoopEffect scheduler before coroutine stmt (scheduler.handleLoopEnd
      (state.record (.skipping coroutine.task)) coroutine.delayed stmt true) := by
  have hSkipped : Reports scheduler coroutine.task [.skipping coroutine.task] before
      (state.record (.skipping coroutine.task)) := by
    have hEvent : scheduler.isLoopEvent (.skipping coroutine.task) = true := hEnd
    exact (Reports.of_steady hBefore).record hEvent (Or.inr rfl)
  unfold handleLoopEnd
  simp only [Coroutine.delayed_task]
  split
  · rename_i hNone
    exact .misses hAction (by simp) hSkipped hBefore.indices fun region hRegion => by
      rw [hNone] at hRegion
      cases hRegion
  · rename_i region hRegion
    split
    · rename_i exc hArgs
      refine .misses hAction (by simp) hSkipped hBefore.indices fun _ _ =>
        Or.inr fun args hOk => ?_
      rw [hArgs] at hOk
      cases hOk
    · simp only [if_true]
      -- the marker of a skipped loop start does not matter for the loops
      have hSkips (skips : List (Ref × StreamID)) :
          Reports scheduler coroutine.task [.skipping coroutine.task] before
            { state.record (.skipping coroutine.task) with loopStartSkips := skips } :=
        hSkipped.steady (.of_eq rfl rfl rfl rfl rfl)
      have hMissing (hNone : state.streams.lookup coroutine.task.stream = none) :
          before.streams.lookup coroutine.task.stream = none := by
        by_contra hSome
        have hAlive := hBefore.alive _ (Option.isSome_iff_ne_none.mpr hSome)
        simp [hNone] at hAlive
      by_cases hPropagated : (region.startRef, coroutine.task.stream) ∈
          (state.record (.skipping coroutine.task)).loopStartSkips
      · simp only [hPropagated, decide_true, if_true]
        split
        · exact .misses hAction (by simp) (hSkips _) hBefore.indices
            fun _ _ => Or.inl (hMissing ‹_›)
        · have hWritten := (hSkips (List.filter (· ≠ (region.startRef, coroutine.task.stream))
            (state.record (.skipping coroutine.task)).loopStartSkips)).steady
              (State.steady_writeAction coroutine.task coroutine.task.stream
                (continueResult false) hStart)
          refine .leaves hAction hRegion (by simp) ((hWritten.indices _).steady
            (scheduler.steady_queueSkipped _ _)) ?_
          rw [(scheduler.steady_queueSkipped _ _).indices]
          simp only [State.loopIndices_writeAction, ← hBefore.indices]
          rfl
      · simp only [hPropagated, decide_false, Bool.false_eq_true, if_false]
        split
        · exact .misses hAction (by simp) hSkipped hBefore.indices
            fun _ _ => Or.inl (hMissing ‹_›)
        · have hWritten := hSkipped.steady (State.steady_writeAction coroutine.task
            coroutine.task.stream (continueResult false) hStart)
          refine .leaves hAction hRegion (by simp)
            ((hWritten.indices _).handleSuccessPath hEnd) ?_
          rw [loopIndices_handleSuccessPath]
          simp only [State.loopIndices_writeAction, ← hBefore.indices]
          rfl

/-- A loop end that is not skipped reads the iteration index of its stream. -/
theorem loopEffect_handleLoopEnd (hBefore : Steady scheduler before state) :
    LoopEffect scheduler before coroutine stmt
      (scheduler.handleLoopEnd state coroutine.delayed stmt false) := by
  unfold handleLoopEnd
  simp only [Coroutine.delayed_task, Bool.false_eq_true, if_false]
  split
  · exact scheduler.loopEffect_raise hBefore _ _
  · rename_i region hRegion
    split
    · exact scheduler.loopEffect_raise hBefore _ _
    · refine .steady ⟨hBefore, by simp [PC.isEarly]⟩ fun _ after pc index hSegment hIndex => ?_
      cases hSegment
      refine Or.inr ⟨region, hRegion, ?_⟩
      rw [← hBefore.indices]
      simpa [PC.captured?, eq_comm] using hIndex

/-- A loop end whose condition is known keeps the index that it has read. -/
theorem loopEffect_decideLoopEnd {currentIndex : Nat} {shouldContinue : Bool}
    (hStart : scheduler.hasType coroutine.task.ref .loopStart = false)
    (hPc : coroutine.pc.captured? = some currentIndex) :
    LoopEffect scheduler state coroutine stmt
      (decideLoopEnd state coroutine.task currentIndex shouldContinue) := by
  unfold decideLoopEnd
  split
  · exact scheduler.loopEffect_raise (.refl state) _ _
  · refine .steady ⟨State.steady_writeAction _ _ _ hStart, by simp [PC.isEarly]⟩
      fun _ after pc index hSegment hIndex => Or.inl ?_
    cases hSegment
    rw [hPc]
    simpa [PC.captured?] using hIndex

/-- A loop end after its condition restarts the loop or leaves it. -/
theorem loopEffect_finishLoopEnd {currentIndex : Nat} {shouldContinue : Bool}
    (hAction : stmt.action = .loopEnd)
    (hEnd : scheduler.hasType coroutine.task.ref .loopEnd = true)
    (hPc : coroutine.pc = .loopEndExec currentIndex shouldContinue) :
    LoopEffect scheduler state coroutine stmt
      (scheduler.finishLoopEnd state coroutine.delayed stmt currentIndex shouldContinue) := by
  unfold finishLoopEnd
  simp only [Coroutine.delayed_task]
  split
  · rename_i region args hRegion hArgs
    cases shouldContinue with
    | true =>
        simp only [if_true]
        split
        · exact scheduler.loopEffect_raise (.refl state) _ _
        · rename_i hBound
          exact .restarts hAction hPc hRegion hArgs (not_le.mp hBound)
    | false =>
        simp only [Bool.false_eq_true, if_false]
        refine .leaves hAction hRegion (by simp)
          (((Reports.of_steady (.refl state)).indices _).handleSuccessPath hEnd) ?_
        rw [loopIndices_handleSuccessPath]
  · exact scheduler.loopEffect_raise (.refl state) _ _
  · exact scheduler.loopEffect_raise (.refl state) _ _

/-! ### `_schedule_task` -/

/-- Before the handler of the action nothing happens to the loops. -/
theorem loopEffect_begins {before : State} {segment : Segment}
    (hBegins : Begins scheduler coroutine stmt state segment) (hEarly : coroutine.pc.isEarly)
    (hBefore : Steady scheduler before state)
    (hSkip : ∀ {middle segment}, Steady scheduler before middle →
      Handles scheduler stmt (middle.record (.skipping coroutine.task)) coroutine.delayed true
        segment → LoopEffect scheduler before coroutine stmt segment)
    (hDispatch : ∀ {middle segment}, Steady scheduler before middle →
      Handles scheduler stmt middle coroutine.delayed false segment →
        LoopEffect scheduler before coroutine stmt segment) :
    LoopEffect scheduler before coroutine stmt segment := by
  induction hBegins with
  | record _ ih => exact ih (hBefore.trans (State.steady_record rfl))
  | raise => exact scheduler.loopEffect_raise hBefore _ _
  | wait hWait =>
      refine scheduler.loopEffect_of_steady ⟨hBefore, fun _ => hEarly⟩ fun after pc hSegment => ?_
      cases hSegment
      rcases hWait with rfl | rfl <;> rfl
  | skip hHandles => exact hSkip hBefore hHandles
  | dispatch hHandles => exact hDispatch (hBefore.trans (State.steady_record rfl)) hHandles

theorem resume_loopStart {outcome : Outcome} {segment : Segment}
    (hFits : coroutine.pc.fits stmt.action) (hAction : stmt.action = .loopStart)
    (hStart : scheduler.hasType coroutine.task.ref .loopStart = true)
    (hEnd : scheduler.hasType coroutine.task.ref .loopEnd = false)
    (hResume : scheduler.resume state coroutine stmt coroutine.pc outcome = some segment) :
    LoopEffect scheduler state coroutine stmt segment := by
  by_cases hEarly : coroutine.pc.isEarly
  · have hHandled {middle : State} {isSkipping : Bool} {segment : Segment}
        (hMiddle : Steady scheduler state middle)
        (hHandles : Handles scheduler stmt middle coroutine.delayed isSkipping segment) :
        LoopEffect scheduler state coroutine stmt segment := by
      cases hHandles with
      | loopStart =>
          exact scheduler.loopEffect_handleLoopStart hMiddle hAction hEarly hStart isSkipping
      | _ => simp_all [ActionType.isPlain, ActionType.isOpener]
    refine loopEffect_begins (begins_of_early hEarly hResume) hEarly (.refl state)
      (fun hMiddle => hHandled (hMiddle.trans ?_)) hHandled
    exact State.steady_record (by simp [isLoopEvent, hEnd])
  · have hResumes := resumes_of_resume hResume
    generalize coroutine.pc = pc at hFits hEarly hResumes
    cases hResumes with
    | loopStarts =>
        exact scheduler.loopEffect_of_steady
          (scheduler.steady_handleSuccessPath state coroutine.delayed hEnd)
          (by simp [finishLoopStart])
    | raises hError => exact scheduler.loopEffect_raise (.refl state) _ _
    | _ => simp_all [PC.fits, PC.isEarly, ActionType.isPlain, ActionType.isOpener]

theorem resume_loopEnd {outcome : Outcome} {segment : Segment}
    (hFits : coroutine.pc.fits stmt.action) (hAction : stmt.action = .loopEnd)
    (hStart : scheduler.hasType coroutine.task.ref .loopStart = false)
    (hEnd : scheduler.hasType coroutine.task.ref .loopEnd = true)
    (hResume : scheduler.resume state coroutine stmt coroutine.pc outcome = some segment) :
    LoopEffect scheduler state coroutine stmt segment := by
  by_cases hEarly : coroutine.pc.isEarly
  · refine loopEffect_begins (begins_of_early hEarly hResume) hEarly (.refl state)
      (fun hMiddle hHandles => ?_) (fun hMiddle hHandles => ?_)
    · cases hHandles with
      | loopEnd => exact loopEffect_handleLoopEnd_skip hMiddle hAction hStart hEnd
      | _ => simp_all [ActionType.isPlain, ActionType.isCloser]
    · cases hHandles with
      | loopEnd => exact loopEffect_handleLoopEnd hMiddle
      | _ => simp_all [ActionType.isPlain, ActionType.isCloser]
  · have hResumes := resumes_of_resume hResume
    generalize hPc : coroutine.pc = pc at hFits hEarly hResumes
    cases hResumes with
    | loopDecides currentIndex value =>
        have hCaptured : coroutine.pc.captured? = some currentIndex := by rw [hPc]; rfl
        exact loopEffect_decideLoopEnd hStart hCaptured
    | loopEnds currentIndex shouldContinue => exact loopEffect_finishLoopEnd hAction hEnd hPc
    | raises hError => exact scheduler.loopEffect_raise (.refl state) _ _
    | _ => simp_all [PC.fits, PC.isEarly, ActionType.isPlain, ActionType.isOpener,
        ActionType.isCloser]

theorem resume_loopEffect {outcome : Outcome} {segment : Segment}
    (hFits : coroutine.pc.fits stmt.action)
    (hStmt : scheduler.dsl.stmt? coroutine.task.ref = some stmt)
    (hResume : scheduler.resume state coroutine stmt coroutine.pc outcome = some segment) :
    LoopEffect scheduler state coroutine stmt segment := by
  have hType (action : ActionType) :
      scheduler.hasType coroutine.task.ref action = decide (stmt.action = action) := by
    simp [hasType, hStmt]
  by_cases hStart : stmt.action = .loopStart
  · exact resume_loopStart hFits hStart (by simp [hType, hStart]) (by simp [hType, hStart])
      hResume
  · by_cases hEnd : stmt.action = .loopEnd
    · exact resume_loopEnd hFits hEnd (by simp [hType, hEnd]) (by simp [hType, hEnd]) hResume
    · exact .steady (scheduler.resume_steady hFits hStart hEnd (by simp [hType, hStart])
        (by simp [hType, hEnd]) hResume) fun hAction => absurd hAction hEnd

end DSLScheduler

end Tracecat
