import Tracecat.Properties.LoopIterations

/-!
# How often an action is executed

In every stream an action is executed once at most, and once more for every restart of a loop
that it runs in.  A task has a claim to an execution while it is due or has a coroutine that
has not come to its handler; an execution uses the claim up, and only a restart makes another.
-/

namespace Tracecat

namespace DSLScheduler

variable (scheduler : DSLScheduler)

/-- A loop is restarted of which the action is a member in its stream, or the stream lies below
that of the loop. -/
def reruns (task : Task) : LogEntry → Bool
  | .reset startRef base =>
      match scheduler.loopRegions.lookup startRef with
      | some region => (task.stream = base && decide (task.ref ∈ region.members)) ||
          (base.within task.stream && decide (task.stream ≠ base))
      | none => false
  | _ => false

/-- Every execution of a task is the first, or it has a restart of its own. -/
def ExecutesOnce (state : State) (task : Task) : Prop :=
  state.claims scheduler PC.isEarly task + state.log.countP (LogEntry.executes task) ≤
    1 + state.log.countP (scheduler.reruns task)

/-- A step adds no execution of the task, or one when its coroutine comes to the handler. -/
def Spends (task : Task) (state : State) (index : Nat) (coroutine : Coroutine)
    (segment : Segment) : Prop :=
  (scheduler.settle index coroutine segment).log.countP (LogEntry.executes task) =
      state.log.countP (LogEntry.executes task) ∨
    coroutine.task = task ∧ coroutine.pc.isEarly ∧
      (∀ after pc, segment = .suspend after pc → pc.isEarly = false) ∧
      (scheduler.settle index coroutine segment).log.countP (LogEntry.executes task) =
        state.log.countP (LogEntry.executes task) + 1

variable {scheduler} {state next : State} {task : Task}

theorem countP_executes (state : State) (task : Task) :
    state.log.countP (LogEntry.executes task) =
      state.executions.countP (LogEntry.executes task) := by
  unfold State.executions
  rw [List.countP_filter]
  refine List.countP_congr fun entry _ => ?_
  cases entry <;> simp [LogEntry.executes, LogEntry.isExecution]

theorem countP_reruns (state : State) (task : Task) :
    state.log.countP (scheduler.reruns task) =
      (scheduler.loopEvents state).countP (scheduler.reruns task) := by
  unfold loopEvents
  rw [List.countP_filter]
  refine List.countP_congr fun entry _ => ?_
  cases entry <;> simp [reruns, isLoopEvent]

/-! ## The handler -/

section Handler

variable {coroutine : Coroutine} {stmt : ActionStatement}

/-- A handler does not wait at a point before it. -/
theorem late_of_handles {state after : State} {pc : PC}
    (hStmt : scheduler.dsl.stmt? coroutine.task.ref = some stmt)
    (hHandles : Handles scheduler stmt state coroutine.delayed false (.suspend after pc)) :
    pc.isEarly = false := by
  by_cases hLoop : stmt.action = .loopStart ∨ stmt.action = .loopEnd
  · generalize hSegment : Segment.suspend after pc = segment at hHandles
    cases hHandles with
    | loopStart =>
        unfold handleLoopStart at hSegment
        simp only [Bool.false_eq_true, if_false] at hSegment
        split at hSegment <;> cases hSegment
        rfl
    | loopEnd =>
        unfold handleLoopEnd at hSegment
        simp only [Bool.false_eq_true, if_false] at hSegment
        split at hSegment
        · cases hSegment
        · split at hSegment <;> cases hSegment
          rfl
    | skip => cases hSegment
    | execute =>
        cases hSegment
        rfl
    | scatter hAction | gather hAction => simp [hAction] at hLoop
  obtain ⟨hStart, hEnd⟩ := not_or.mp hLoop
  have hSteady : (Segment.suspend after pc).Steady scheduler false state :=
    scheduler.steady_handles hHandles hStart hEnd (by simp [hasType, hStmt, hStart])
  exact Bool.eq_false_iff.mpr fun hEarly => Bool.false_ne_true (hSteady.2 hEarly)

/-- A coroutine that still waits for its handler has executed nothing. -/
theorem executions_of_early (hStmt : scheduler.dsl.stmt? coroutine.task.ref = some stmt)
    (hEarly : coroutine.pc.isEarly) {outcome : Outcome} {after : State} {pc : PC}
    (hResume : scheduler.resume state coroutine stmt coroutine.pc outcome =
      some (.suspend after pc)) (hPoint : pc.isEarly) : after.executions = state.executions := by
  have hBegins := begins_of_early hEarly hResume
  clear hResume
  generalize hSegment : Segment.suspend after pc = segment at hBegins
  induction hBegins with
  | record _ ih => exact ih hSegment
  | raise => cases hSegment
  | wait =>
      cases hSegment
      rfl
  | skip hHandles =>
      subst hSegment
      exact executions_handles hHandles
  | dispatch hHandles =>
      subst hSegment
      rw [late_of_handles hStmt hHandles] at hPoint
      cases hPoint

end Handler

/-! ## Steps -/

section Steps

variable {context : ExecutionContext} {index : Nat} {coroutine : Coroutine}
  {stmt : ActionStatement} {segment : Segment}

theorem spends_of_resume (hGather : scheduler.hasType task.ref .transformGather = false)
    (hFits : coroutine.pc.fits stmt.action)
    (hStmt : scheduler.dsl.stmt? coroutine.task.ref = some stmt) {outcome : Outcome}
    (hResume : scheduler.resume state coroutine stmt coroutine.pc outcome = some segment) :
    scheduler.Spends task state index coroutine segment := by
  unfold Spends
  obtain ⟨added, hAdded, hExecutions⟩ := resume_executions hFits hResume
  -- a gather that is finalized is another action
  have hOther (parent : StreamID) (hAction : stmt.action = .transformGather) :
      (⟨coroutine.task.ref, parent⟩ : Task) ≠ task := by
    rintro rfl
    simp [hasType, hStmt, hAction] at hGather
  rw [countP_executes, countP_executes state, executions_settle, hExecutions, List.countP_append]
  cases hAdded with
  | none =>
      left
      rw [List.countP_nil, Nat.zero_add]
  | dispatch hEarly hReachable =>
      by_cases hTask : coroutine.task = task
      · refine Or.inr ⟨hTask, hEarly, fun after pc hSegment => ?_, ?_⟩
        · rw [Bool.eq_false_iff]
          intro hPoint
          subst hSegment
          have hSame := executions_of_early hStmt hEarly hResume hPoint
          have hMore : after.executions = .executing coroutine.task :: state.executions :=
            hExecutions
          rw [hSame] at hMore
          exact absurd (congrArg List.length hMore) (by simp)
        · simp [LogEntry.executes, hTask]
          omega
      · left
        simp [LogEntry.executes, hTask]
  | gather hParent hAction =>
      left
      simp [LogEntry.executes, hOther _ hAction]
  | emptyGather hParent hAction =>
      left
      simp [LogEntry.executes]

theorem ExecutesOnce.settle (hOnce : scheduler.ExecutesOnce state task)
    (hIndex : state.pending[index]? = some coroutine)
    (hKeeps : KeepsDue scheduler state segment.state)
    (hEarly : ∀ after pc, segment = .suspend after pc → pc.isEarly → coroutine.pc.isEarly)
    (hReruns : (scheduler.loopEvents segment.state).countP (scheduler.reruns task) =
      (scheduler.loopEvents state).countP (scheduler.reruns task))
    (hExecutes : scheduler.Spends task state index coroutine segment) :
    scheduler.ExecutesOnce (scheduler.settle index coroutine segment) task := by
  obtain ⟨-, -, hEvents, -, -⟩ := scheduler.settle_loops index coroutine segment
  unfold ExecutesOnce at hOnce ⊢
  rw [countP_reruns, hEvents, hReruns, ← countP_reruns]
  have hClaims := scheduler.claims_settle_le hKeeps task hIndex hEarly
  rcases hExecutes with hSame | ⟨hTask, hFrom, hLate, hMore⟩
  · omega
  · -- the coroutine has used up its claim
    have hUsed : (scheduler.settle index coroutine segment).claims scheduler PC.isEarly task + 1 ≤
        state.claims scheduler PC.isEarly task := by
      rw [scheduler.claims_settle hKeeps.pending PC.isEarly task hIndex, hKeeps.due]
      unfold State.claims
      rw [countP_split hIndex]
      cases segment with
      | suspend after pc =>
          have hPoint := hLate after pc rfl
          simp only [hTask, hFrom, hPoint, decide_true, Bool.and_self, if_true, Bool.false_eq_true,
            and_false, if_false]
          omega
      | finish after | raise after exc platform =>
          simp only [hTask, hFrom, decide_true, Bool.and_self, if_true]
          omega
    omega

/-- A restart gives the tasks of the loop, and those in the streams below, one claim more. -/
theorem ExecutesOnce.restart (hOnce : scheduler.ExecutesOnce state task) (hBuilt : scheduler.Built)
    (hLinked : state.tables.Linked) (hIndex : state.pending[index]? = some coroutine)
    {region : LoopRegion} (hRegion : scheduler.regionByEnd? coroutine.task.ref = some region)
    {nextIndex : Nat} (hLate : coroutine.pc.isEarly = false)
    (hExecutes : (scheduler.settle index coroutine (.finish (scheduler.restart state region
        coroutine.task.stream nextIndex))).log.countP (LogEntry.executes task) =
      state.log.countP (LogEntry.executes task)) :
    scheduler.ExecutesOnce (scheduler.settle index coroutine (.finish (scheduler.restart state
      region coroutine.task.stream nextIndex))) task := by
  obtain ⟨-, startStmt, endStmt, hHas⟩ := HasRegion.of_regionByEnd? hBuilt hRegion
  have hMember := hHas.start_mem_members hBuilt
  have hAdded := scheduler.loopEvents_settle_restart state region coroutine.task.stream nextIndex
    index coroutine
  have hBefore : state.claims scheduler PC.isEarly task =
      (state.control scheduler).due task + (state.pending.eraseIdx index).countP fun coroutine =>
        decide (coroutine.task = task) && coroutine.pc.isEarly := by
    unfold State.claims
    rw [countP_split hIndex]
    simp [hLate]
  have hAfter := @LoopTracked.claims_restart scheduler region coroutine.task.stream state index
    nextIndex coroutine hIndex PC.isEarly task
  rw [State.control_due] at hBefore
  unfold ExecutesOnce at hOnce ⊢
  rw [countP_reruns, hAdded, List.countP_cons, ← countP_reruns, hExecutes, hAfter]
  rw [hBefore] at hOnce
  by_cases hReruns : scheduler.reruns task (.reset region.startRef coroutine.task.stream) = true
  · -- the start is queued with its counter used up; any other task may wait again
    have hOne : ((if (⟨region.startRef, coroutine.task.stream⟩ : Task) = task then 1 else 0) +
        if 0 < ((state.control scheduler).reset scheduler region coroutine.task.stream
          (state.removedStreams region coroutine.task.stream)).indegree task then 1 else 0) ≤ 1 := by
      by_cases hStart : (⟨region.startRef, coroutine.task.stream⟩ : Task) = task
      · have hZero : ((state.control scheduler).reset scheduler region coroutine.task.stream
            (state.removedStreams region coroutine.task.stream)).indegree task = 0 := by
          rw [← hStart]
          simp [Control.reset, hMember, hHas.start_stmt, hHas.internalDeps_start hBuilt]
        rw [hZero, if_neg (lt_irrefl 0)]
        split <;> omega
      · rw [if_neg hStart]
        split <;> omega
    rw [if_pos hReruns]
    omega
  · have hOutside : ¬ (task.stream = coroutine.task.stream ∧ task.ref ∈ region.members) ∧
        ¬ (coroutine.task.stream.within task.stream ∧ task.stream ≠ coroutine.task.stream) := by
      simpa [reruns, hHas.lookup, not_or] using hReruns
    have hStays : task.stream ∉ state.removedStreams region coroutine.task.stream := fun hRemoved =>
      hOutside.2 (State.below_of_removed hLinked scheduler hRemoved)
    have hStart : (⟨region.startRef, coroutine.task.stream⟩ : Task) ≠ task := by
      rintro rfl
      exact hOutside.1 ⟨rfl, hMember⟩
    have hSame : ((state.control scheduler).reset scheduler region coroutine.task.stream
        (state.removedStreams region coroutine.task.stream)).indegree task =
          state.indegree scheduler task := by
      simp [Control.reset, hOutside.1, hStays, State.control]
    rw [if_neg hStart, hSame, if_neg hReruns]
    omega

theorem ExecutesOnce.step (hOnce : scheduler.ExecutesOnce state task) (hBuilt : scheduler.Built)
    (hGather : scheduler.hasType task.ref .transformGather = false)
    (hTracked : state.Tracked scheduler context) {event : Event}
    (hStep : scheduler.step state event = some next) : scheduler.ExecutesOnce next task := by
  rcases scheduler.step_eq_some.mp hStep with ⟨rfl, hSpawn⟩ | ⟨resumption, hResumed, rfl⟩
  · obtain ⟨head, rest, hQueue, -, -, rfl⟩ := step_spawn_eq_some hSpawn
    unfold ExecutesOnce
    rw [State.claims_spawn scheduler hQueue PC.isEarly rfl task]
    exact hOnce
  obtain ⟨outcome, -, hIndex, hStmt, hResume⟩ := scheduler.resumed?_eq_some hResumed
  have hFits := (hTracked.waits _ (List.mem_of_getElem? hIndex) _ hStmt).1
  have hEffect := resume_loopEffect hFits hStmt hResume
  obtain ⟨index, coroutine, stmt, segment⟩ := resumption
  simp only at hIndex hStmt hFits hResume hEffect ⊢
  have hExecutes := @spends_of_resume scheduler state task index coroutine stmt segment
    hGather hFits hStmt outcome hResume
  have hReports {added : List LogEntry} {after : State}
      (hReports : Reports scheduler coroutine.task added state after) :
      (scheduler.loopEvents after).countP (scheduler.reruns task) =
        (scheduler.loopEvents state).countP (scheduler.reruns task) := by
    have hNone : added.countP (scheduler.reruns task) = 0 := by
      rw [List.countP_eq_zero]
      intro entry hEntry
      rcases hReports.own entry hEntry with rfl | rfl <;> simp [reruns]
    rw [hReports.events, List.countP_append, hNone, Nat.zero_add]
  cases hEffect with
  | steady hSteady hCaptured =>
      obtain ⟨hKeeps, hEarly⟩ := hSteady.spec
      exact hOnce.settle hIndex hKeeps.toKeepsDue hEarly (by rw [hKeeps.events]) hExecutes
  | begins hAction hEarly hBegins =>
      refine hOnce.settle hIndex hBegins.toKeepsDue (fun _ _ _ _ => hEarly) ?_ hExecutes
      exact (congrArg (List.countP _) hBegins.events).trans
        (List.countP_cons_of_neg (by simp [reruns]))
  | leaves hAction hFound hSome hLeft hIndices =>
      exact hOnce.settle hIndex hLeft.toKeepsDue (by simp) (hReports hLeft) hExecutes
  | misses hAction hSome hMissed hIndices hReason =>
      exact hOnce.settle hIndex hMissed.toKeepsDue (by simp) (hReports hMissed) hExecutes
  | restarts hAction hPc hFound hArgs hBound =>
      have hLate : coroutine.pc.isEarly = false := by rw [hPc]; rfl
      refine hOnce.restart hBuilt hTracked.linked hIndex hFound hLate (hExecutes.resolve_right ?_)
      rintro ⟨-, hEarly, -, -⟩
      rw [hLate] at hEarly
      cases hEarly

end Steps

end DSLScheduler

/-- In every run of an accepted workflow, an action that is no gather is executed in a stream
once at most, and once more for each restart of a loop that it is in there. -/
theorem executions_le_restarts {dsl : DSLInput} {maxPendingTasks : Nat}
    {validateStored : Json → Option (StoredObject Json)} {scheduler : DSLScheduler}
    {context : ExecutionContext} {state : State} (hAccepted : dsl.Accepted)
    (hNew : DSLScheduler.new dsl maxPendingTasks validateStored = .ok scheduler)
    (hReach : scheduler.Reachable context state) {task : Task}
    (hGather : scheduler.hasType task.ref .transformGather = false) :
    state.log.countP (LogEntry.executes task) ≤
      1 + state.log.countP (scheduler.reruns task) := by
  obtain ⟨hBuilt, rfl⟩ := DSLScheduler.built_of_new hAccepted hNew
  have hOnce : scheduler.ExecutesOnce state task := by
    induction hReach with
    | init =>
        have hClaims := State.claims_init hBuilt.placed.validated context PC.isEarly task
        have hLog : (State.init scheduler context).log.countP (LogEntry.executes task) = 0 := rfl
        unfold DSLScheduler.ExecutesOnce
        omega
    | step event hPrevious hStep ih =>
        exact ih.step hBuilt hGather (DSLScheduler.tracked_of_reachable hPrevious) hStep
  unfold DSLScheduler.ExecutesOnce at hOnce
  omega

set_option maxRecDepth 20000 in
/-- The body of a loop that is restarted once is executed twice. -/
theorem twoPasses_executions_le_restarts : ∃ (scheduler : DSLScheduler) (state : State),
    DSLScheduler.new twoPasses.dsl 8 (fun _ => none) = .ok scheduler ∧
      2 ≤ 1 + state.log.countP (scheduler.reruns ⟨"body", rootStream⟩) := by
  have hReaches : twoPasses.reaches (fun _ _ _ => true) (fun scheduler state =>
      state.log.countP (LogEntry.executes ⟨"body", rootStream⟩) = 2 &&
        !scheduler.hasType "body" .transformGather) = true := by
    decide +kernel
  obtain ⟨hAccepted, scheduler, state, hNew, hReach, hBoth⟩ := Scenario.exists_of_reaches hReaches
  simp only [Bool.and_eq_true, decide_eq_true_eq, Bool.not_eq_true'] at hBoth
  refine ⟨scheduler, state, hNew, hBoth.1 ▸ ?_⟩
  exact executions_le_restarts hAccepted hNew (hReach.reachable scheduler) hBoth.2

end Tracecat
