import Tracecat.Scheduler.DagRun
import Tracecat.Scheduler.Move

/-!
# Plain workflows have a declarative meaning

In a workflow without scatters and loops, the order in which the pending tasks
complete does not matter: a run that ends without an exception has scheduled
every action once, and its markers and verdicts are the only solution of the
equations of the graph.
-/

namespace Tracecat

/-- Every action has ended with its verdict: it was scheduled once, and then
skipped, found unreachable, or executed. -/
def State.Classifies (scheduler : DSLScheduler) (state : State) (verdicts : Ref → Verdict) :
    Prop :=
  ∀ stmt ∈ scheduler.dsl.actions, (verdicts stmt.ref).Ends (state.notes stmt.rootTask)

namespace Control

variable {scheduler : DSLScheduler} {oracle : Oracle} {control : Control}
  {notes : Task → List Note}

/-- In a run that has ended every action has ended: an action that waits would
wait for an action of lower rank. -/
theorem DagRun.all_ended {assigned : ActionScopes}
    (hRun : control.DagRun scheduler oracle notes) (hPlaced : scheduler.dsl.Placed assigned)
    (hActive : control.active = []) :
    ∀ stmt ∈ scheduler.dsl.actions, control.Ended scheduler oracle notes stmt := by
  obtain ⟨rank, hRank⟩ := hPlaced.exists_dep_rank
  have hBelow (bound : Nat) : ∀ stmt ∈ scheduler.dsl.actions, rank stmt.ref < bound →
      control.Ended scheduler oracle notes stmt := by
    induction bound with
    | zero => exact fun stmt _ hBound => absurd hBound (Nat.not_lt_zero _)
    | succ bound ih =>
        intro stmt hStmt hBound
        refine (hRun.idle stmt hStmt (by simp [hActive])).resolve_left fun hWaiting => ?_
        obtain ⟨dep, hDep⟩ := List.exists_mem_of_ne_nil _ hWaiting.deps_ne
        obtain ⟨hMem, hPending⟩ := mem_pendingDeps.mp hDep
        obtain ⟨source, hSource⟩ := hPlaced.validated.stmt?_dep hStmt hMem
        obtain ⟨hSourceMem, hRef⟩ := DSLInput.stmt?_some_mem hSource
        have hLower : rank source.ref < rank stmt.ref := hRef ▸ hRank stmt hStmt dep hMem
        have hEnded := ih source hSourceMem (by omega)
        have hEdge : (stmt.ref, dep.2) ∈ scheduler.dsl.adj source.ref :=
          hRef ▸ mem_adj_of_dep hStmt hMem
        have hMarked := hEnded.marked _ hEdge
        have hStill : control.marking rootStream source.ref (stmt.ref, dep.2) = .pending :=
          hRef ▸ hPending
        rw [hStill] at hMarked
        -- the source has marked the edge, for its failure was caught
        unfold DSLInput.outMarker at hMarked
        have hCaught := hEnded.caught
        unfold DSLScheduler.hasErrorEdge at hCaught
        cases hFailure : (source.verdict (control.marking rootStream) oracle).isFailure with
        | true =>
            rw [hFailure, hCaught hFailure] at hMarked
            simp only [Bool.not_true, Bool.and_false, Bool.false_eq_true, if_false] at hMarked
            split at hMarked <;> cases hMarked
        | false =>
            rw [hFailure] at hMarked
            simp only [Bool.false_and, Bool.false_eq_true, if_false] at hMarked
            split at hMarked <;> cases hMarked
  exact fun stmt hStmt => hBelow _ stmt hStmt (Nat.lt_succ_self _)

theorem DagRun.verdict_eq {assigned : ActionScopes}
    (hRun : control.DagRun scheduler oracle notes) (hPlaced : scheduler.dsl.Placed assigned)
    {marking : Marking} {verdicts : Ref → Verdict}
    (hSolves : scheduler.dsl.Solves oracle marking verdicts) {stmt : ActionStatement}
    (hStmt : stmt ∈ scheduler.dsl.actions) (hDeps : control.pendingDeps stmt rootStream = []) :
    stmt.verdict (control.marking rootStream) oracle = verdicts stmt.ref := by
  obtain ⟨rank, hRank⟩ := hPlaced.exists_dep_rank
  induction hBound : rank stmt.ref using Nat.strongRecOn generalizing stmt with
  | _ bound ih =>
      subst hBound
      rw [hSolves.verdict stmt hStmt]
      refine stmt.verdict_congr oracle fun dep hDep => ?_
      obtain ⟨source, hSource⟩ := hPlaced.validated.stmt?_dep hStmt hDep
      obtain ⟨hMem, hRef⟩ := DSLInput.stmt?_some_mem hSource
      have hEdge := mem_adj_of_dep hStmt hDep
      have hLower := hRank stmt hStmt dep hDep
      have hMarked : control.marking rootStream dep.1 (stmt.ref, dep.2) ≠ .pending :=
        fun hPending => List.not_mem_nil (hDeps ▸ mem_pendingDeps.mpr ⟨hDep, hPending⟩)
      unfold ActionStatement.inMarker
      rw [← hRef] at hEdge hLower hMarked ⊢
      -- the source has marked the edge, so it has ended
      have hIdle : source.rootTask ∉ control.active := fun hActive =>
        hMarked ((hRun.active source hMem hActive).2 _ hEdge)
      have hEnded := (hRun.idle source hMem hIdle).resolve_left fun hWaiting =>
        hMarked (hWaiting.unmarked _ hEdge)
      rw [hEnded.marked _ hEdge, hSolves.marker source hMem _ hEdge,
        ih _ hLower hMem hEnded.deps_eq rfl]

theorem DagRun.solves (hNodup : (scheduler.dsl.actions.map ActionStatement.ref).Nodup)
    (hEnded : ∀ stmt ∈ scheduler.dsl.actions, control.Ended scheduler oracle notes stmt) :
    ∃ verdicts, scheduler.dsl.Solves oracle (control.marking rootStream) verdicts ∧
      ∀ stmt ∈ scheduler.dsl.actions, (verdicts stmt.ref).Ends (notes stmt.rootTask) := by
  let verdicts (ref : Ref) : Verdict :=
    ((scheduler.dsl.stmt? ref).map fun stmt =>
      stmt.verdict (control.marking rootStream) oracle).getD .skipped
  have hVerdict : ∀ stmt ∈ scheduler.dsl.actions,
      verdicts stmt.ref = stmt.verdict (control.marking rootStream) oracle := by
    intro stmt hStmt
    simp only [verdicts, DSLInput.stmt?_eq_some_of_mem hNodup hStmt, Option.map_some,
      Option.getD_some]
  refine ⟨verdicts, ⟨hVerdict, fun stmt hStmt next hNext => ?_⟩, fun stmt hStmt => ?_⟩
  · rw [hVerdict stmt hStmt]
    exact (hEnded stmt hStmt).marked next hNext
  · rw [hVerdict stmt hStmt]
    exact (hEnded stmt hStmt).ends

end Control

theorem Verdict.Ends.scheduled_once {verdict : Verdict} {notes : List Note}
    (hEnds : verdict.Ends notes) : notes.count .scheduling = 1 := by
  cases verdict with
  | skipped | unreachable | succeeded =>
      rw [hEnds]
      rfl
  | failed =>
      obtain ⟨className, rfl⟩ := hEnds
      simp

/-- When the run of a plain workflow returns `None`, the markers and the ends
of the actions are the one solution of the equations, whatever the order of
the events was. -/
theorem plain_workflow_solution {dsl : DSLInput} {maxPendingTasks : Nat}
    {validateStored : Json → Option (StoredObject Json)} {scheduler : DSLScheduler}
    {context : ExecutionContext} {oracle : Oracle} {state : State} (hAccepted : dsl.Accepted)
    (hPlain : dsl.IsPlain) (hDistinct : ∀ stmt ∈ dsl.actions, stmt.deps.Nodup)
    (hNew : DSLScheduler.new dsl maxPendingTasks validateStored = .ok scheduler)
    (hReach : scheduler.ReachableWith context (scheduler.Follows oracle) state)
    (hFinished : state.Finished) :
    (∀ stmt ∈ dsl.actions, (state.notes stmt.rootTask).count .scheduling = 1) ∧
    ∃ verdicts,
      dsl.Solves oracle ((state.control scheduler).marking rootStream) verdicts ∧
      state.Classifies scheduler verdicts ∧
      ∀ marking otherVerdicts, dsl.Solves oracle marking otherVerdicts →
        ∀ stmt ∈ dsl.actions, otherVerdicts stmt.ref = verdicts stmt.ref ∧
          ∀ next ∈ dsl.adj stmt.ref, marking stmt.ref next =
            (state.control scheduler).marking rootStream stmt.ref next := by
  obtain ⟨hBuilt, rfl⟩ := DSLScheduler.built_of_new hAccepted hNew
  have hValidated := hBuilt.placed.validated
  obtain ⟨hQueue, hPending, hExceptions⟩ := hFinished
  have hLive : ¬ (state.control scheduler).halted := fun hHalted => hHalted hExceptions
  have hRun := (DSLScheduler.dagRun_of_reachable hValidated hPlain hDistinct
    hReach).resolve_left hLive
  have hActive : (state.control scheduler).active = [] := by
    simp [Control.active, State.control, hQueue, hPending]
  obtain ⟨verdicts, hSolves, hEnds⟩ := Control.DagRun.solves hValidated.refs_nodup
    (hRun.all_ended hBuilt.placed hActive)
  refine ⟨fun stmt hStmt => (hEnds stmt hStmt).scheduled_once, verdicts, hSolves, hEnds,
    fun marking otherVerdicts hOther => ?_⟩
  exact hOther.unique hBuilt.placed hSolves

/-- Whether a plain workflow fails does not depend on the order of the events: its verdicts are
fixed by the oracle, a run that ends has handled every failure among them, and what stops a
run is one that no error edge handles. -/
theorem plain_workflow_outcome {dsl : DSLInput} {maxPendingTasks : Nat}
    {validateStored : Json → Option (StoredObject Json)} {scheduler : DSLScheduler}
    (oracle : Oracle) (hAccepted : dsl.Accepted) (hPlain : dsl.IsPlain)
    (hDistinct : ∀ stmt ∈ dsl.actions, stmt.deps.Nodup)
    (hNew : DSLScheduler.new dsl maxPendingTasks validateStored = .ok scheduler) :
    ∃ marking verdicts, dsl.Solves oracle marking verdicts ∧
      ∀ context state, scheduler.ReachableWith context (fun state event =>
          scheduler.Follows oracle state event ∧ DSLScheduler.isPlatformError event = false) state →
        (state.Finished → state.Classifies scheduler verdicts ∧
          ∀ stmt ∈ dsl.actions, (verdicts stmt.ref).isFailure = true →
            scheduler.hasErrorEdge stmt.ref = true) ∧
        (state.taskExceptions.entries ≠ [] → ∃ stmt ∈ dsl.actions,
          (verdicts stmt.ref).isFailure = true ∧ scheduler.hasErrorEdge stmt.ref = false) := by
  obtain ⟨hBuilt, rfl⟩ := DSLScheduler.built_of_new hAccepted hNew
  have hValidated := hBuilt.placed.validated
  obtain ⟨marking, verdicts, hSolves⟩ := DSLInput.exists_solves hBuilt.placed oracle
  refine ⟨marking, verdicts, hSolves, fun context state hReach => ⟨fun hFinished => ?_, ?_⟩⟩
  · obtain ⟨hQueue, hPending, hExceptions⟩ := hFinished
    have hFollows := hReach.mono scheduler fun _ _ hAllowed => hAllowed.1
    have hRun := (DSLScheduler.dagRun_of_reachable hValidated hPlain hDistinct
      hFollows).resolve_left fun hHalted => hHalted hExceptions
    have hEnded := hRun.all_ended hBuilt.placed (by
      simp [Control.active, State.control, hQueue, hPending])
    have hVerdict (stmt : ActionStatement) (hStmt : stmt ∈ scheduler.dsl.actions) :=
      hRun.verdict_eq hBuilt.placed hSolves hStmt (hEnded stmt hStmt).deps_eq
    refine ⟨fun stmt hStmt => ?_, fun stmt hStmt hFailure => ?_⟩
    · rw [← hVerdict stmt hStmt]
      exact (hEnded stmt hStmt).ends
    · rw [← hVerdict stmt hStmt] at hFailure
      exact (hEnded stmt hStmt).caught hFailure
  · -- the step that stops the run is that of an action without error edge
    induction hReach with
    | init => exact fun hHalted => absurd rfl hHalted
    | @step state next event hReach hAllowed hStep ih =>
        intro hHalted
        by_cases hLive : (state.control scheduler).halted
        · exact ih hLive
        have hFollows := hReach.mono scheduler fun _ _ hAllowed => hAllowed.1
        obtain ⟨hRun, hDag⟩ := DSLScheduler.dagStep_of_reachable hValidated hPlain hDistinct
          hFollows hLive hAllowed.1 hStep
        obtain ⟨stmt, hStmt, hDeps, hFailure, hEdge⟩ := hDag.unhandled hRun hAllowed.2 hLive
          hHalted
        rw [hRun.verdict_eq hBuilt.placed hSolves hStmt hDeps] at hFailure
        exact ⟨stmt, hStmt, hFailure, hEdge⟩

/-- `Oracle.allows`, as a test. -/
def Oracle.permits (oracle : Oracle) (stmt : ActionStatement) : PC → Outcome → Bool
  | .runIf, .truthy value => value = oracle.runIf stmt.ref
  | .runIf, .raised _ => false
  | .executing, .returned _ => stmt.retryUntil.isSome || oracle.succeeds stmt.ref
  | .executing, .executorRaised _ _ _ => !oracle.succeeds stmt.ref
  | .retryUntil _, .truthy true => oracle.succeeds stmt.ref
  | .retryUntil _, .raised _ => !oracle.succeeds stmt.ref
  | _, _ => true

theorem Oracle.allows_of_permits {oracle : Oracle} {stmt : ActionStatement} {pc : PC}
    {outcome : Outcome} (hPermits : oracle.permits stmt pc outcome = true) :
    oracle.allows stmt pc outcome := by
  cases pc with
  | runIf => cases outcome <;> simp_all [permits, allows]
  | executing =>
      cases outcome <;> simp_all [permits, allows]
      exact fun hNone => hPermits.resolve_left (by simp [hNone])
  | retryUntil result =>
      cases outcome with
      | truthy value => cases value <;> simp_all [permits, allows]
      | _ => simp_all [permits, allows]
  | _ => exact trivial

/-- `DSLScheduler.Follows`, as a test. -/
def DSLScheduler.followsTest (oracle : Oracle) (scheduler : DSLScheduler) (state : State) :
    Event → Bool
  | .spawn => true
  | .resume index outcome =>
      match state.pending[index]? with
      | none => true
      | some coroutine =>
          match scheduler.dsl.stmt? coroutine.task.ref with
          | none => true
          | some stmt => oracle.permits stmt coroutine.pc outcome

theorem DSLScheduler.follows_of_test {oracle : Oracle} {scheduler : DSLScheduler} {state : State}
    {event : Event} (hTest : scheduler.followsTest oracle state event = true) :
    scheduler.Follows oracle state event := by
  cases event with
  | spawn => exact trivial
  | resume index outcome =>
      intro coroutine stmt hPending hStmt
      simp only [followsTest, hPending, hStmt] at hTest
      exact Oracle.allows_of_permits hTest

/-- An action that fails, one that handles its error, and one that follows its
success. -/
def handledFailure : Scenario where
  dsl := {
    actions := [
      { ref := "fetch", action := .udf "core.http_request", runIf := some {} },
      { ref := "report", action := .udf "core.noop", dependsOn := ["fetch.error"] },
      { ref := "store", action := .udf "core.noop", dependsOn := ["fetch", "report.error"] }] }
  events := [.spawn, .resume 0 .resumed, .resume 0 (.truthy true),
    .resume 0 (.executorRaised none (.other "ActionError" "503") false),
    .spawn, .resume 0 .resumed, .resume 0 (.returned (.fromResult (.json .null))),
    .spawn, .resume 0 .resumed]

/-- Only `fetch` fails. -/
def onlyFetchFails : Oracle where
  runIf _ := true
  succeeds ref := ref ≠ "fetch"

set_option maxRecDepth 20000 in
/-- The run ends, so its verdicts are those of the equations. -/
theorem handledFailure_solution : ∃ (scheduler : DSLScheduler) (state : State),
    DSLScheduler.new handledFailure.dsl 8 (fun _ => none) = .ok scheduler ∧
    (state.notes ⟨"report", rootStream⟩).count .scheduling = 1 ∧
    ∃ verdicts, handledFailure.dsl.Solves onlyFetchFails
      ((state.control scheduler).marking rootStream) verdicts := by
  have hReaches : handledFailure.reaches (DSLScheduler.followsTest onlyFetchFails)
      (fun _ state => state.queue.isEmpty && state.pending.isEmpty &&
        state.taskExceptions.entries.isEmpty) = true := by
    decide +kernel
  obtain ⟨hAccepted, scheduler, state, hNew, hReach, hFinal⟩ :=
    Scenario.exists_of_reaches hReaches
  simp only [Bool.and_eq_true, List.isEmpty_iff] at hFinal
  have hFollows := DSLScheduler.ReachableWith.mono scheduler hReach
    fun _ _ hTest => DSLScheduler.follows_of_test hTest
  have hPlain : handledFailure.dsl.IsPlain := by
    simp [DSLInput.IsPlain, handledFailure, ActionType.isPlain, ActionType.isOpener,
      ActionType.isCloser]
  have hDistinct : ∀ stmt ∈ handledFailure.dsl.actions, stmt.deps.Nodup := by decide +kernel
  obtain ⟨hOnce, verdicts, hSolves, -⟩ := plain_workflow_solution hAccepted hPlain hDistinct hNew
    hFollows ⟨hFinal.1.1, hFinal.1.2, hFinal.2⟩
  have hReport := hOnce
    { ref := "report", action := .udf "core.noop", dependsOn := ["fetch.error"] }
    (by simp [handledFailure])
  exact ⟨scheduler, state, hNew, hReport, verdicts, hSolves⟩

set_option maxRecDepth 20000 in
/-- `report` handles the failure of `fetch` in every run of the workflow. -/
theorem handledFailure_outcome : ∃ (scheduler : DSLScheduler) (state : State),
    DSLScheduler.new handledFailure.dsl 8 (fun _ => none) = .ok scheduler ∧ state.Finished ∧
    ∃ verdicts, state.Classifies scheduler verdicts ∧
      ∀ stmt ∈ handledFailure.dsl.actions, (verdicts stmt.ref).isFailure = true →
        scheduler.hasErrorEdge stmt.ref = true := by
  have hReaches : handledFailure.reaches (fun scheduler state event =>
        DSLScheduler.followsTest onlyFetchFails scheduler state event &&
          !DSLScheduler.isPlatformError event)
      (fun _ state => state.queue.isEmpty && state.pending.isEmpty &&
        state.taskExceptions.entries.isEmpty) = true := by
    decide +kernel
  obtain ⟨hAccepted, scheduler, state, hNew, hReach, hFinal⟩ :=
    Scenario.exists_of_reaches hReaches
  simp only [Bool.and_eq_true, List.isEmpty_iff] at hFinal
  have hFinished : state.Finished := ⟨hFinal.1.1, hFinal.1.2, hFinal.2⟩
  have hAllowed := hReach.mono scheduler fun state event hTest => by
    rw [Bool.and_eq_true, Bool.not_eq_true'] at hTest
    exact And.intro (DSLScheduler.follows_of_test hTest.1) hTest.2
  have hPlain : handledFailure.dsl.IsPlain := by
    simp [DSLInput.IsPlain, handledFailure, ActionType.isPlain, ActionType.isOpener,
      ActionType.isCloser]
  obtain ⟨_, verdicts, -, hOutcome⟩ := plain_workflow_outcome onlyFetchFails hAccepted hPlain
    (by decide +kernel) hNew
  exact ⟨scheduler, state, hNew, hFinished, verdicts, (hOutcome _ state hAllowed).1 hFinished⟩

end Tracecat
