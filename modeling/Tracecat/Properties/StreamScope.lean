import Tracecat.Scheduler.Executions
import Tracecat.Scheduler.Move

/-!
# Streams and scopes agree

An action is executed in a stream whose segments are the scatters around it,
and never below a skip segment, as long as no branch is taken that leaves the
wrong stream behind.
-/

namespace Tracecat

/-- The stream of every execution in the log has the shape of the action, and
no skip segment.  A finalized gather is an action of the scope it leaves. -/
def StreamScopeAgreement (scheduler : DSLScheduler) (log : List LogEntry) : Prop :=
  ∀ newer older task, log = newer ++ .executing task :: older →
    task.stream.hasSkip = false ∧
      (.gathered task ∈ older →
        task.stream.scatters = DSLInput.outPath scheduler.assigned task.ref) ∧
      (.gathered task ∉ older →
        task.stream.scatters = scheduler.dsl.path scheduler.assigned task.ref)

namespace DSLScheduler

variable (scheduler : DSLScheduler)

/-- A step that takes none of the branches that choose a wrong stream. -/
structure StreamSafe (state : State) (event : Event) : Prop where
  contained : scheduler.Contained state event
  skips : scheduler.KeepsSkips state event
  unmixed : ∀ resumption, scheduler.resumed? state event = some resumption →
    ¬ scheduler.dsl.IsMixedGather scheduler.assigned resumption.coroutine.task.ref

end DSLScheduler

/-- The invariant behind the agreement. -/
structure State.Scoped (scheduler : DSLScheduler) (state : State) : Prop where
  fitted : (state.control scheduler).Fitted scheduler
  shaped : (state.control scheduler).Shaped scheduler
  quiet : (state.control scheduler).SkipsQuiet scheduler
  agrees : StreamScopeAgreement scheduler state.executions
  gathered : ∀ task, .gathered task ∈ state.executions →
    task.stream.scatters = DSLInput.outPath scheduler.assigned task.ref

namespace StreamScopeAgreement

variable {scheduler : DSLScheduler} {log : List LogEntry}

theorem cons {entry : LogEntry} (hAgrees : StreamScopeAgreement scheduler log)
    (hEntry : ∀ task, entry = .executing task → task.stream.hasSkip = false ∧
      (.gathered task ∈ log →
        task.stream.scatters = DSLInput.outPath scheduler.assigned task.ref) ∧
      (.gathered task ∉ log →
        task.stream.scatters = scheduler.dsl.path scheduler.assigned task.ref)) :
    StreamScopeAgreement scheduler (entry :: log) := by
  intro newer older task hLog
  cases newer with
  | nil =>
      obtain ⟨rfl, rfl⟩ := List.cons.inj hLog
      exact hEntry task rfl
  | cons first rest =>
      obtain ⟨rfl, hRest⟩ := List.cons.inj hLog
      exact hAgrees rest older task hRest

theorem of_executions {state : State}
    (hAgrees : StreamScopeAgreement scheduler state.executions) :
    StreamScopeAgreement scheduler state.log := by
  intro newer older task hLog
  have hGathered : .gathered task ∈ older ↔
      .gathered task ∈ older.filter LogEntry.isExecution := by
    simp [List.mem_filter, LogEntry.isExecution]
  have hSplit : state.executions = newer.filter LogEntry.isExecution ++
      .executing task :: older.filter LogEntry.isExecution := by
    unfold State.executions
    rw [hLog, List.filter_append, List.filter_cons_of_pos rfl]
  rw [hGathered]
  exact hAgrees _ _ task hSplit

end StreamScopeAgreement

namespace DSLScheduler

variable {scheduler : DSLScheduler} {state next : State} {event : Event}

theorem scoped_executions (hBuilt : scheduler.Built) (hScoped : state.Scoped scheduler)
    {resumption : Resumption} (hResumed : scheduler.resumed? state event = some resumption)
    (hSafe : scheduler.StreamSafe state event) :
    StreamScopeAgreement scheduler resumption.segment.state.executions ∧
      ∀ task, .gathered task ∈ resumption.segment.state.executions →
        task.stream.scatters = DSLInput.outPath scheduler.assigned task.ref := by
  obtain ⟨outcome, -, hPending, hStmt, hSegment⟩ := scheduler.resumed?_eq_some hResumed
  have hMem : resumption.coroutine ∈ (state.control scheduler).pending :=
    List.mem_of_getElem? hPending
  have hFits := hScoped.fitted _ hMem _ hStmt
  have hUnmixed := hSafe.unmixed _ hResumed
  have hShape := hScoped.shaped.shape_of_coroutine hMem hUnmixed
  have hParentShape (hAction : resumption.stmt.action = .transformGather) {parent : StreamID}
      (hParent : resumption.coroutine.pc.parent? = some parent) :=
    hScoped.shaped.shape_of_parent hBuilt hMem hStmt hAction hUnmixed hParent
  obtain ⟨added, hAdds, hExecutions⟩ := resume_executions hFits hSegment
  rw [hExecutions]
  cases hAdds with
  | none => exact ⟨hScoped.agrees, hScoped.gathered⟩
  | dispatch hPc hReachable =>
      -- in a skip stream the task would be unreachable
      have hOutside : resumption.coroutine.task.stream.hasSkip = false := by
        by_contra hSkip
        rw [Bool.not_eq_false] at hSkip
        have hDeps := (hScoped.quiet.tasks _ (Or.inr ⟨_, hMem, rfl⟩) hSkip).2 _ hStmt
        have hUnreachable := isReachable_eq_false state resumption.coroutine.task
          hDeps
          fun edge hEdge => hScoped.quiet.unvisited edge (hEdge ▸ hSkip)
        rcases hReachable with hSleeping | hReachable
        · rcases hScoped.quiet.points _ hMem hSkip with hPoint | hPoint | ⟨_, hPoint, -⟩ <;>
            simp [hSleeping] at hPoint
        · simp [hUnreachable] at hReachable
      refine ⟨hScoped.agrees.cons fun task hTask => ?_, fun task hGathered => ?_⟩
      · cases hTask
        exact ⟨hOutside, hScoped.gathered _, fun _ => hShape⟩
      · simp only [List.singleton_append, List.mem_cons, reduceCtorEq, false_or] at hGathered
        exact hScoped.gathered task hGathered
  | @gather parent hPc hAction =>
      have hParent := hParentShape hAction hPc
      have hOutside : parent.hasSkip = false := by
        by_cases hSkip : resumption.coroutine.task.stream.hasSkip
        · rcases hScoped.quiet.points _ hMem hSkip with hPoint | hPoint | ⟨_, hPoint, hNone⟩
          · simp [hPoint, PC.parent?] at hPc
          · simp [hPoint, PC.parent?] at hPc
          · rw [hPoint] at hPc
            cases hPc
            exact hNone
        · obtain ⟨scope, index, hStream⟩ := hScoped.shaped.waiting _ hMem parent hPc
          rw [hStream] at hSkip
          simp only [StreamID.hasSkip, Bool.or_eq_true, not_or, Bool.not_eq_true] at hSkip
          exact hSkip.2
      refine ⟨(hScoped.agrees.cons (by simp)).cons fun task hTask => ?_,
        fun task hGathered => ?_⟩
      · cases hTask
        exact ⟨hOutside, fun _ => hParent, fun hNone => absurd List.mem_cons_self hNone⟩
      · simp only [List.cons_append, List.nil_append, List.mem_cons, reduceCtorEq,
          LogEntry.gathered.injEq, false_or] at hGathered
        rcases hGathered with rfl | hGathered
        · exact hParent
        · exact hScoped.gathered task hGathered
  | @emptyGather parent hPc hAction =>
      have hParent := hParentShape hAction hPc
      refine ⟨hScoped.agrees.cons (by simp), fun task hGathered => ?_⟩
      simp only [List.singleton_append, List.mem_cons, LogEntry.gathered.injEq] at hGathered
      rcases hGathered with rfl | hGathered
      · exact hParent
      · exact hScoped.gathered task hGathered

theorem scoped_step (hBuilt : scheduler.Built) (hScoped : state.Scoped scheduler)
    (hSafe : scheduler.StreamSafe state event) (hStep : scheduler.step state event = some next) :
    next.Scoped scheduler := by
  have hMove := scheduler.step_move hScoped.fitted hSafe.contained hStep
  have hLog : StreamScopeAgreement scheduler next.executions ∧
      ∀ task, .gathered task ∈ next.executions →
        task.stream.scatters = DSLInput.outPath scheduler.assigned task.ref := by
    rcases scheduler.step_eq_some.mp hStep with ⟨rfl, hSpawn⟩ | ⟨resumption, hResumed, rfl⟩
    · obtain ⟨head, rest, -, -, -, rfl⟩ := step_spawn_eq_some hSpawn
      exact ⟨hScoped.agrees, hScoped.gathered⟩
    · rw [executions_settle]
      exact scoped_executions hBuilt hScoped hResumed hSafe
  refine ⟨hMove.fitted hScoped.fitted, hMove.shaped hBuilt hScoped.shaped fun coroutine hLabel => ?_,
    skipsQuiet_step hBuilt hScoped.quiet hScoped.shaped hScoped.fitted hSafe.contained
      hSafe.skips hStep, hLog.1, hLog.2⟩
  obtain ⟨resumption, hResumed, rfl⟩ := Option.map_eq_some_iff.mp hLabel
  exact hSafe.unmixed resumption hResumed

theorem scoped_of_reachable (hBuilt : scheduler.Built) {context : ExecutionContext}
    (hReach : scheduler.ReachableWith context scheduler.StreamSafe state) :
    state.Scoped scheduler := by
  induction hReach with
  | init =>
      refine ⟨by simp [Control.Fitted, State.control, State.init], State.shaped_init hBuilt context,
        State.skipsQuiet_init context, ?_, by simp [State.executions, State.init]⟩
      intro newer older task hLog
      simp [State.executions, State.init] at hLog
  | step event _ hSafe hStep ih => exact scoped_step hBuilt ih hSafe hStep

end DSLScheduler

/-- Whenever a run of safe steps executes an action, the stream agrees with the
scope of the action. -/
theorem executing_stream_scope {dsl : DSLInput} {maxPendingTasks : Nat}
    {validateStored : Json → Option (StoredObject Json)} {scheduler : DSLScheduler}
    {context : ExecutionContext} {state : State} (hAccepted : dsl.Accepted)
    (hNew : DSLScheduler.new dsl maxPendingTasks validateStored = .ok scheduler)
    (hReach : scheduler.ReachableWith context scheduler.StreamSafe state) :
    StreamScopeAgreement scheduler state.log :=
  (DSLScheduler.scoped_of_reachable (DSLScheduler.built_of_new hAccepted hNew).1
    hReach).agrees.of_executions

namespace DSLScheduler

/-- A step outside skip streams that raises nothing and resumes no mixed gather. -/
def calmStep (scheduler : DSLScheduler) (state : State) (event : Event) : Bool :=
  match scheduler.resumed? state event with
  | none => true
  | some resumption =>
      !resumption.coroutine.task.stream.hasSkip && !resumption.segment.raises &&
        decide (resumption.stmt.action = .transformGather →
          (DSLInput.depScopes scheduler.assigned resumption.stmt).length ≤ 1)

theorem streamSafe_of_calmStep {scheduler : DSLScheduler} {state : State} {event : Event}
    (hCalm : scheduler.calmStep state event = true) : scheduler.StreamSafe state event := by
  have hSteady (resumption : Resumption)
      (hResumed : scheduler.resumed? state event = some resumption) :
      resumption.coroutine.task.stream.hasSkip = false ∧ resumption.segment.raises = false ∧
        (resumption.stmt.action = .transformGather →
          (DSLInput.depScopes scheduler.assigned resumption.stmt).length ≤ 1) := by
    simpa [calmStep, hResumed, and_assoc, imp_iff_not_or] using hCalm
  refine ⟨⟨fun resumption hResumed _ => (hSteady resumption hResumed).2.1,
    fun resumption hResumed _ hRaises => ?_,
    fun resumption hResumed _ _ base scatter parent hSkip => ?_⟩,
    ⟨fun resumption hResumed _ => (hSteady resumption hResumed).2.1,
    fun resumption hResumed _ hSkip => ?_⟩, fun resumption hResumed hMixed => ?_⟩
  · simp [(hSteady resumption hResumed).2.1] at hRaises
  · have hOutside := (hSteady resumption hResumed).1
    simp [hSkip, StreamID.hasSkip] at hOutside
  · simp [(hSteady resumption hResumed).1] at hSkip
  · obtain ⟨-, -, -, hStmt, -⟩ := scheduler.resumed?_eq_some hResumed
    obtain ⟨stmt, hFound, hAction, hMany⟩ := hMixed
    rw [hStmt] at hFound
    cases hFound
    have hOne := (hSteady resumption hResumed).2.2 hAction
    omega

end DSLScheduler

/-- A loop with a scatter whose stream runs one action. -/
def loopedScatter : DSLInput where
  actions := [
    { ref := "loop", action := .loopStart },
    { ref := "scatter", action := .transformScatter, args := .scatter { collection := {} },
      dependsOn := ["loop"] },
    { ref := "body", action := .udf "core.noop", dependsOn := ["scatter"] },
    { ref := "gather", action := .transformGather, args := .gather { items := {} },
      dependsOn := ["body"] },
    { ref := "end", action := .loopEnd, args := .loopEnd { condition := {} },
      dependsOn := ["gather"] },
    { ref := "report", action := .udf "core.noop", dependsOn := ["end"] }]

/-- One iteration over one item, up to the condition of the loop. -/
def loopedScatterIteration (continues : Bool) : List Event :=
  [.spawn, .resume 0 .resumed, .resume 0 .resumed,
    .spawn, .resume 0 .resumed, .resume 0 (.collection (.inline (.arr [.null]))),
    .resume 0 .resumed,
    .spawn, .resume 0 .resumed, .resume 0 (.returned { result := .external "body" }),
    .spawn, .resume 0 .resumed, .resume 0 (.item (.external "item")),
    .resume 0 (.finalized (.inline (.json (.arr [.null]))) []), .resume 0 .resumed,
    .spawn, .resume 0 .resumed, .resume 0 (.truthy continues), .resume 0 .resumed]

/-- Two iterations, and the action after the loop. -/
def twoScatters : Scenario where
  dsl := loopedScatter
  events := loopedScatterIteration true ++ loopedScatterIteration false ++
    [.spawn, .resume 0 .resumed]

set_option maxRecDepth 20000 in
/-- The body of the scatter runs in the stream of its item, and the action after
the loop in the root stream. -/
theorem twoScatters_stream_scope : ∃ (scheduler : DSLScheduler) (state : State),
    DSLScheduler.new twoScatters.dsl 8 (fun _ => none) = .ok scheduler ∧
      .executing ⟨"body", .child .root "scatter" (.item 0)⟩ ∈ state.log ∧
      .executing ⟨"report", .root⟩ ∈ state.log ∧
      StreamScopeAgreement scheduler state.log := by
  have hReaches : twoScatters.reaches DSLScheduler.calmStep (fun _ state =>
      state.log.any (LogEntry.executes ⟨"body", .child .root "scatter" (.item 0)⟩) &&
        state.log.any (LogEntry.executes ⟨"report", .root⟩)) = true := by
    decide +kernel
  obtain ⟨hAccepted, scheduler, state, hNew, hReach, hLog⟩ :=
    Scenario.exists_of_reaches hReaches
  have hSafe : scheduler.ReachableWith twoScatters.context scheduler.StreamSafe state :=
    DSLScheduler.ReachableWith.mono scheduler hReach fun _ _ hCalm =>
      DSLScheduler.streamSafe_of_calmStep hCalm
  rw [Bool.and_eq_true, any_executes, any_executes] at hLog
  exact ⟨scheduler, state, hNew, hLog.1, hLog.2, executing_stream_scope hAccepted hNew hSafe⟩

/-- A loop whose scatter is skipped in the only iteration.  The loop end sees
only skips, in the skip stream of the scatter, and goes on there. -/
def skippedScatterInLoop : Scenario where
  dsl := {
    actions := [
      { ref := "loop", action := .loopStart },
      { ref := "scatter", action := .transformScatter,
        args := .scatter { collection := {} }, dependsOn := ["loop"], runIf := some {} },
      { ref := "body", action := .udf "core.noop", dependsOn := ["scatter"] },
      { ref := "gather", action := .transformGather, args := .gather { items := {} },
        dependsOn := ["body"] },
      { ref := "end", action := .loopEnd, args := .loopEnd { condition := {} },
        dependsOn := ["gather"] },
      { ref := "report", action := .udf "core.noop", dependsOn := ["end"] }] }
  events := [.spawn, .resume 0 .resumed, .resume 0 .resumed,
    .spawn, .resume 0 .resumed, .resume 0 (.truthy false),
    .spawn, .resume 0 .resumed, .spawn, .resume 0 .resumed, .spawn, .resume 0 .resumed,
    .spawn, .resume 0 .resumed]

set_option maxRecDepth 20000 in
/-- The agreement fails on accepted definitions: the action after the loop is
executed in the skip stream of the scatter. -/
theorem not_forall_stream_scope : ¬ ∀ (dsl : DSLInput) (maxPendingTasks : Nat)
    (scheduler : DSLScheduler) (context : ExecutionContext) (state : State), dsl.Accepted →
    DSLScheduler.new dsl maxPendingTasks (fun _ => none) = .ok scheduler →
    scheduler.Reachable context state → StreamScopeAgreement scheduler state.log := by
  intro hAll
  have hReaches : skippedScatterInLoop.reaches (fun _ _ _ => true) (fun _ state =>
      state.log.any (LogEntry.executes ⟨"report", .child .root "scatter" .skip⟩)) = true := by
    decide +kernel
  obtain ⟨hAccepted, scheduler, state, hNew, hReach, hLog⟩ :=
    Scenario.exists_of_reaches hReaches
  have hAgrees := hAll _ _ scheduler _ state hAccepted hNew hReach.reachable
  obtain ⟨newer, older, hSplit⟩ := List.append_of_mem (any_executes.mp hLog)
  have hOutside := (hAgrees newer older _ hSplit).1
  exact absurd hOutside (by decide)

end Tracecat
