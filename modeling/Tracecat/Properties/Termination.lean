import Tracecat.Lib.Runs
import Tracecat.Properties.PlainWorkflow

/-!
# Every run of a plain workflow ends

Each step of a plain workflow brings the end nearer, as long as the conditions of
`retry_until` hold: the steps that are left are counted action by action.  A run
that has not ended and that no exception has stopped goes on.
-/

namespace Tracecat

open Checks

def DSLScheduler.isFalse : Event → Bool
  | .resume _ (.truthy false) => true
  | _ => false

theorem PC.left_pos {stmt : ActionStatement} {marking : Marking} {oracle : Oracle} {pc : PC}
    (hGuards : pc.Guards stmt marking oracle) : 0 < pc.left := by
  cases pc <;> first | exact Nat.succ_pos _ | exact absurd hGuards id

namespace Control

def fresh (control : Control) (notes : Task → List Note) (stmt : ActionStatement) : Bool :=
  notes stmt.rootTask = [] ∧ stmt.rootTask ∉ control.pending.map Coroutine.task

/-- The steps that are left at most: six for each action that is not pending yet, and the
resumes of those that are. -/
def left (dsl : DSLInput) (control : Control) (notes : Task → List Note) : Nat :=
  6 * dsl.actions.countP (control.fresh notes) +
    (control.pending.map fun coroutine => coroutine.pc.left).sum

variable {scheduler : DSLScheduler} {oracle : Oracle} {control next : Control}
  {notes later : Task → List Note} {event : Event}

/-- Every step brings the end nearer, unless a condition is false. -/
theorem DagRun.left_step (hRun : control.DagRun scheduler oracle notes)
    (hDag : DSLScheduler.DagStep scheduler oracle control notes event next later)
    (hLive : ¬ next.halted) :
    next.left scheduler.dsl later + 1 ≤ control.left scheduler.dsl notes +
      2 * if DSLScheduler.isFalse event then 1 else 0 := by
  unfold left
  cases hDag with
  | @spawn head rest hQueue =>
      have hHead : head ∈ control.queue := hQueue ▸ List.mem_cons_self
      obtain ⟨stmt, hStmt, hTask⟩ := hRun.home head.task
        (List.mem_append_left _ (List.mem_map_of_mem hHead))
      -- the head was fresh, and is pending now
      have hFresh : control.fresh notes stmt := by
        have hApart := (List.nodup_append.mp hRun.once).2.2 head.task (List.mem_map_of_mem hHead)
        rw [fresh, decide_eq_true_eq, ← hTask]
        exact ⟨hRun.queued head hHead, fun hPending => hApart _ hPending rfl⟩
      let after : Control :=
        { control with
          queue := rest
          pending := control.pending ++ [⟨head.task, head.delay, .start⟩] }
      have hOld (other : ActionStatement) (hOther : after.fresh notes other) :
          control.fresh notes other := by
        simp only [fresh, decide_eq_true_eq] at hOther ⊢
        exact ⟨hOther.1, fun hMem => hOther.2 (by simp [after, hMem])⟩
      have hFewer := calc
        scheduler.dsl.actions.countP (after.fresh notes)
          = (scheduler.dsl.actions.filter (control.fresh notes)).countP (after.fresh notes) := by
            rw [List.countP_filter]
            refine List.countP_congr fun other _ => ?_
            rw [Bool.and_eq_true]
            exact ⟨fun hOther => ⟨hOther, hOld other hOther⟩, And.left⟩
        _ < (scheduler.dsl.actions.filter (control.fresh notes)).length :=
            List.countP_lt_length_iff.mpr ⟨stmt, List.mem_filter.mpr ⟨hStmt, hFresh⟩, by
              simp [fresh, after, hTask]⟩
        _ = scheduler.dsl.actions.countP (control.fresh notes) :=
            List.countP_eq_length_filter.symm
      show 6 * scheduler.dsl.actions.countP (after.fresh notes) + _ + 1 ≤ _
      rw [List.map_append, List.sum_append]
      simp only [List.map_cons, List.map_nil, List.sum_cons, List.sum_nil, PC.left]
      omega
  | @wait index outcome coroutine stmt pc hPending hStmt hTask hGuards hLeft =>
      have hMem := List.mem_of_getElem? hPending
      obtain ⟨hLt, hGet⟩ := List.getElem?_eq_some_iff.mp hPending
      have hTasks : (control.settle index coroutine (some pc)).pending.map Coroutine.task =
          control.pending.map Coroutine.task := by
        show (control.pending.set index _).map Coroutine.task = _
        rw [List.map_set]
        exact List.set_getElem_self (by simpa using hLt) ▸ by simp [hGet]
      have hFresh : scheduler.dsl.actions.countP
          ((control.settle index coroutine (some pc)).fresh
            (Function.update notes coroutine.task pc.notes)) ≤
          scheduler.dsl.actions.countP (control.fresh notes) := by
        refine List.countP_mono_left fun other _ hOther => ?_
        simp only [fresh, decide_eq_true_eq, hTasks] at hOther ⊢
        refine ⟨?_, hOther.2⟩
        have hNe : other.rootTask ≠ coroutine.task := fun hSame =>
          hOther.2 (hSame ▸ List.mem_map_of_mem hMem)
        rw [← hOther.1, Function.update_of_ne hNe]
      have hSum := ((List.getElem_cons_eraseIdx_perm hLt).map
        fun coroutine => coroutine.pc.left).sum_nat
      have hSet : (control.pending.set index { coroutine with pc := pc }).Perm
          ({ coroutine with pc := pc } :: control.pending.eraseIdx index) :=
        List.set_perm_cons_eraseIdx hLt _
      have hSetSum := (hSet.map fun coroutine => coroutine.pc.left).sum_nat
      rw [hGet, List.map_cons, List.sum_cons] at hSum
      rw [List.map_cons, List.sum_cons] at hSetSum
      dsimp only at hSetSum
      show 6 * _ + ((control.pending.set index { coroutine with pc := pc }).map _).sum + 1 ≤ _
      rcases hLeft with hLess | ⟨rfl, hMore⟩
      · omega
      · have hFalse : DSLScheduler.isFalse (.resume index (.truthy false)) = true := rfl
        rw [if_pos hFalse]
        omega
  | @leave index outcome coroutine stmt verdict final delay hPending hStmt hTask hVerdict hEnds
      hCaught =>
      obtain ⟨hLt, hGet⟩ := List.getElem?_eq_some_iff.mp hPending
      have hPerm := List.getElem_cons_eraseIdx_perm hLt
      rw [hGet] at hPerm
      have hFinal : final ≠ [] := by
        cases verdict with
        | failed =>
            obtain ⟨className, rfl⟩ := hEnds
            simp
        | _ =>
            rw [hEnds]
            simp
      have hFresh : scheduler.dsl.actions.countP
          (((control.emit scheduler.dsl stmt.ref rootStream delay verdict.visits).settle index
            coroutine none).fresh (Function.update notes stmt.rootTask final)) ≤
          scheduler.dsl.actions.countP (control.fresh notes) := by
        refine List.countP_mono_left fun other _ hOther => ?_
        simp only [fresh, decide_eq_true_eq] at hOther ⊢
        have hNe : other.rootTask ≠ stmt.rootTask := by
          intro hSame
          rw [hSame, Function.update_self] at hOther
          exact hFinal hOther.1
        refine ⟨by rw [← hOther.1, Function.update_of_ne hNe], fun hMem => hOther.2 ?_⟩
        rcases List.mem_cons.mp ((hPerm.map Coroutine.task).mem_iff.mpr hMem) with hSelf | hRest
        · exact absurd (hSelf.trans hTask) hNe
        · exact hRest
      have hSum := (hPerm.map fun coroutine => coroutine.pc.left).sum_nat
      rw [List.map_cons, List.sum_cons] at hSum
      have hPos := PC.left_pos (hRun.running coroutine (List.mem_of_getElem? hPending) stmt hStmt
        hTask).2
      show 6 * _ + ((control.pending.eraseIdx index).map _).sum + 1 ≤ _
      omega
  | halt _ _ _ _ hHalted => exact absurd hHalted hLive

end Control

namespace DSLScheduler

variable {scheduler : DSLScheduler} {oracle : Oracle} {state : State} {coroutine : Coroutine}
  {stmt : ActionStatement}

theorem exists_outcome {marking : Marking} {pc : PC} (hGuards : pc.Guards stmt marking oracle) :
    ∃ outcome segment, oracle.allows stmt pc outcome ∧
      scheduler.resume state coroutine stmt pc outcome = some segment := by
  cases pc with
  | start => exact ⟨.resumed, _, trivial, rfl⟩
  | sleeping => exact ⟨.resumed, _, trivial, rfl⟩
  | runIf =>
      cases hValue : oracle.runIf stmt.ref with
      | true => exact ⟨.truthy true, _, hValue.symm, rfl⟩
      | false => exact ⟨.truthy false, _, hValue.symm, rfl⟩
  | executing =>
      cases hSucceeds : oracle.succeeds stmt.ref with
      | true => exact ⟨.returned (.fromResult (.json .null)), _, fun _ => hSucceeds, rfl⟩
      | false => exact ⟨.executorRaised none (.other "" "") false, _, hSucceeds, rfl⟩
  | retryUntil result =>
      cases hSucceeds : oracle.succeeds stmt.ref with
      | true => exact ⟨.truthy true, _, hSucceeds, rfl⟩
      | false => exact ⟨.raised (.other "" ""), _, hSucceeds, rfl⟩
  | _ => exact absurd hGuards id

/-- A run that has not ended and that nothing has stopped goes on. -/
theorem exists_step (hSlots : 0 < scheduler.maxPendingTasks)
    (hNodup : (scheduler.dsl.actions.map ActionStatement.ref).Nodup)
    (hRun : (state.control scheduler).DagRun scheduler oracle state.notes)
    (hLive : state.taskExceptions.entries = []) (hOpen : ¬ state.Finished) :
    ∃ event next, scheduler.Follows oracle state event ∧
      scheduler.step state event = some next := by
  cases hPending : state.pending with
  | nil =>
      cases hQueue : state.queue with
      | nil => exact absurd ⟨hQueue, hPending, hLive⟩ hOpen
      | cons head rest =>
          have hFree : state.pending.length < scheduler.maxPendingTasks := hPending ▸ hSlots
          refine ⟨.spawn, { state with
            queue := rest
            pending := state.pending ++ [⟨head.task, head.delay, .start⟩] }, trivial, ?_⟩
          simp [step, hQueue, hLive, hFree]
  | cons coroutine rest =>
      have hMem : coroutine ∈ state.pending := hPending ▸ List.mem_cons_self
      obtain ⟨stmt, hStmt, hTask⟩ := hRun.home coroutine.task
        (List.mem_append_right _ (List.mem_map_of_mem hMem))
      have hFound : scheduler.dsl.stmt? coroutine.task.ref = some stmt :=
        hTask ▸ DSLInput.stmt?_eq_some_of_mem hNodup hStmt
      obtain ⟨outcome, segment, hAllows, hResume⟩ := @exists_outcome scheduler oracle state
        coroutine stmt _ _ (hRun.running coroutine hMem stmt hStmt hTask).2
      refine ⟨.resume 0 outcome, scheduler.settle 0 coroutine segment, ?_, ?_⟩
      · intro other otherStmt hOther hOtherStmt
        rw [hPending] at hOther
        cases hOther
        cases hFound.symm.trans hOtherStmt
        exact hAllows
      · simp [step, hPending, hFound, hResume]

theorem maxPendingTasks_pos {dsl : DSLInput} {maxPendingTasks : Nat}
    {validateStored : Json → Option (StoredObject Json)}
    (hNew : DSLScheduler.new dsl maxPendingTasks validateStored = .ok scheduler) :
    0 < scheduler.maxPendingTasks := by
  unfold DSLScheduler.new at hNew
  rw [throw_if_eq_ok] at hNew
  obtain ⟨hSlots, hNew⟩ := hNew
  split at hNew
  · cases hNew
  split at hNew
  · cases hNew
  · obtain ⟨regions, -, hOk⟩ := bind_eq_ok.mp hNew
    cases hOk
    exact Nat.not_lt.mp hSlots

end DSLScheduler

/-- Every run of a plain workflow ends: as long as no exception stops it, it takes six steps for
each action and two for each condition that is false at most, and when it does not go on, it is
finished. -/
theorem plain_workflow_terminates {dsl : DSLInput} {maxPendingTasks : Nat}
    {validateStored : Json → Option (StoredObject Json)} {scheduler : DSLScheduler}
    {context : ExecutionContext} {oracle : Oracle} {events : List Event} {state : State}
    (hAccepted : dsl.Accepted) (hPlain : dsl.IsPlain)
    (hDistinct : ∀ stmt ∈ dsl.actions, stmt.deps.Nodup)
    (hNew : DSLScheduler.new dsl maxPendingTasks validateStored = .ok scheduler)
    (hRun : Run (fun state event next => scheduler.Follows oracle state event ∧
      scheduler.step state event = some next) (State.init scheduler context) events state)
    (hLive : state.taskExceptions.entries = []) :
    events.length ≤ 6 * dsl.actions.length + 2 * events.countP DSLScheduler.isFalse ∧
      (state.Finished ∨ ∃ event next, scheduler.Follows oracle state event ∧
        scheduler.step state event = some next) := by
  have hSlots := DSLScheduler.maxPendingTasks_pos hNew
  obtain ⟨hBuilt, rfl⟩ := DSLScheduler.built_of_new hAccepted hNew
  have hValidated := hBuilt.placed.validated
  have hBoth : scheduler.ReachableWith context (scheduler.Follows oracle) state ∧
      ((state.control scheduler).halted ∨
        events.length + (state.control scheduler).left scheduler.dsl state.notes ≤
          6 * scheduler.dsl.actions.length + 2 * events.countP DSLScheduler.isFalse) := by
    clear hLive
    induction hRun with
    | nil =>
        let start := State.init scheduler context
        have hFresh : scheduler.dsl.actions.countP
            ((start.control scheduler).fresh start.notes) ≤ scheduler.dsl.actions.length :=
          List.countP_le_length
        refine ⟨.init, Or.inr ?_⟩
        show 0 + (6 * scheduler.dsl.actions.countP
          ((start.control scheduler).fresh start.notes) + 0) ≤ _ + 2 * 0
        omega
    | @cons events state next event hRun hTaken ih =>
        obtain ⟨hReach, hBound⟩ := ih
        refine ⟨.step event hReach hTaken.1 hTaken.2, ?_⟩
        by_cases hNext : (next.control scheduler).halted
        · exact Or.inl hNext
        have hBefore : ¬ (state.control scheduler).halted := fun hHalted =>
          hNext (DSLScheduler.halted_of_step hPlain
            (DSLScheduler.tracked_of_reachable (hReach.reachable scheduler)) hTaken.2 hHalted)
        obtain ⟨hDagRun, hDag⟩ := DSLScheduler.dagStep_of_reachable hValidated hPlain hDistinct
          hReach hBefore hTaken.1 hTaken.2
        have hNearer := hDagRun.left_step hDag hNext
        have hSoFar := hBound.resolve_left hBefore
        rw [List.length_cons, List.countP_cons]
        omega
  have hOpen : ¬ (state.control scheduler).halted := fun hHalted => hHalted hLive
  have hDagRun := (DSLScheduler.dagRun_of_reachable hValidated hPlain hDistinct
    hBoth.1).resolve_left hOpen
  refine ⟨by have hBound := hBoth.2.resolve_left hOpen; omega, ?_⟩
  by_cases hFinished : state.Finished
  · exact Or.inl hFinished
  · exact Or.inr (DSLScheduler.exists_step hSlots hValidated.refs_nodup hDagRun hLive hFinished)

theorem DSLScheduler.ReachableWith.exists_run {scheduler : DSLScheduler}
    {context : ExecutionContext} {allowed : State → Event → Prop} {state : State}
    (hReach : scheduler.ReachableWith context allowed state) :
    ∃ events, Run (fun state event next => allowed state event ∧
      scheduler.step state event = some next) (State.init scheduler context) events state := by
  induction hReach with
  | init => exact ⟨[], .nil⟩
  | step event _ hAllowed hStep ih =>
      obtain ⟨events, hRun⟩ := ih
      exact ⟨event :: events, .cons event hRun ⟨hAllowed, hStep⟩⟩

set_option maxRecDepth 20000 in
/-- A run of the three actions, one of which has failed. -/
theorem handledFailure_terminates : ∃ (scheduler : DSLScheduler) (events : List Event)
    (state : State), DSLScheduler.new handledFailure.dsl 8 (fun _ => none) = .ok scheduler ∧
    state.notes ⟨"report", rootStream⟩ ≠ [] ∧
    events.length ≤ 18 + 2 * events.countP DSLScheduler.isFalse := by
  have hReaches : handledFailure.reaches (DSLScheduler.followsTest onlyFetchFails)
      (fun _ state => state.taskExceptions.entries.isEmpty &&
        !(state.notes ⟨"report", rootStream⟩).isEmpty) = true := by
    decide +kernel
  obtain ⟨hAccepted, scheduler, state, hNew, hReach, hFinal⟩ :=
    Scenario.exists_of_reaches hReaches
  simp only [Bool.and_eq_true, List.isEmpty_iff, Bool.not_eq_true', ← Bool.not_eq_true] at hFinal
  obtain ⟨events, hRun⟩ := (hReach.mono scheduler fun _ _ hTest =>
    DSLScheduler.follows_of_test hTest).exists_run
  have hPlain : handledFailure.dsl.IsPlain := by
    simp [DSLInput.IsPlain, handledFailure, ActionType.isPlain, ActionType.isOpener,
      ActionType.isCloser]
  exact ⟨scheduler, events, state, hNew, hFinal.2,
    (plain_workflow_terminates hAccepted hPlain (by decide +kernel) hNew hRun hFinal.1).1⟩

end Tracecat
