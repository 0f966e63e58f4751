import Tracecat.Scheduler.DagRun
import Tracecat.Scheduler.LoopInvariant
import Tracecat.Scheduler.Move

/-!
# Iterations of loops

In every stream, on every entry of a loop, the passes are given the iteration
indices `0, 1, 2, ...`, at most `max_iterations` of them, as long as every
restart is clean.
-/

namespace Tracecat

namespace DSLScheduler

/-- A loop end that restarts its loop in the step finds a clean state. -/
def IterationSafe (scheduler : DSLScheduler) (state : State) (event : Event) : Prop :=
  ∀ resumption index region, scheduler.resumed? state event = some resumption →
    resumption.coroutine.pc = .loopEndExec index true → resumption.segment.raises = false →
    scheduler.regionByEnd? resumption.coroutine.task.ref = some region →
      CleanRestart scheduler state region resumption.coroutine.task.stream

end DSLScheduler

/-- Every loop end that gives a `max_iterations` gives at least one. -/
def DSLInput.LoopsCapped (dsl : DSLInput) : Prop :=
  ∀ stmt ∈ dsl.actions, ∀ args, stmt.args = .loopEnd args → 1 ≤ args.maxIterations

theorem State.claims_init {scheduler : DSLScheduler} (hValidated : scheduler.dsl.Validated)
    (context : ExecutionContext) (points : PC → Bool) (task : Task) :
    (State.init scheduler context).claims scheduler points task ≤ 1 := by
  have hPending : (State.init scheduler context).pending = [] := rfl
  have hQueue : (State.init scheduler context).queue.map DelayedTask.task =
      (scheduler.dsl.actions.filter fun stmt => stmt.dependsOn.length = 0).map
        ActionStatement.rootTask := by
    simp [State.init, Function.comp_def, ActionStatement.rootTask]
  have hCount : (State.init scheduler context).queue.countP (fun queued => queued.task = task) =
      ((scheduler.dsl.actions.filter fun stmt => stmt.dependsOn.length = 0).map
        ActionStatement.rootTask).count task := by
    rw [← hQueue, List.count, List.countP_map]
    exact List.countP_congr fun queued _ => by simp
  unfold State.claims
  rw [State.control_due, hCount, hPending, List.countP_nil, Nat.add_zero]
  by_cases hQueued : task ∈ (scheduler.dsl.actions.filter fun stmt =>
      stmt.dependsOn.length = 0).map ActionStatement.rootTask
  · -- a queued task waits for nothing, and its ref is queued once
    obtain ⟨stmt, hStmt, rfl⟩ := List.mem_map.mp hQueued
    obtain ⟨hMem, hNone⟩ := List.mem_filter.mp hStmt
    have hNodup : ((scheduler.dsl.actions.filter fun stmt =>
        stmt.dependsOn.length = 0).map ActionStatement.rootTask).Nodup := by
      refine List.Nodup.of_map Task.ref ?_
      rw [List.map_map]
      exact (List.filter_sublist.map _).nodup hValidated.refs_nodup
    have hOnce := List.nodup_iff_count_le_one.mp hNodup stmt.rootTask
    have hZero : (State.init scheduler context).indegree scheduler stmt.rootTask = 0 := by
      rw [DSLScheduler.indegree_init hValidated context hMem, hValidated.deps_length hMem]
      exact_mod_cast of_decide_eq_true hNone
    rw [hZero, if_neg (lt_irrefl 0)]
    omega
  · rw [List.count_eq_zero_of_not_mem hQueued]
    split <;> omega

namespace LoopTracked

variable {scheduler : DSLScheduler} {region : LoopRegion} {stream : StreamID}
  {startStmt endStmt : ActionStatement} {state next : State} {context : ExecutionContext}

theorem init (hValidated : scheduler.dsl.Validated) (context : ExecutionContext) :
    LoopTracked scheduler region stream (State.init scheduler context) := by
  have hClaims := State.claims_init hValidated context
  refine ⟨hClaims _ _, fun hInside => ?_, hClaims _ _, rfl, ?_, fun hSome => absurd rfl hSome,
    Or.inl rfl, ⟨?_, ?_⟩⟩
  · cases hInside
  · intro coroutine hMem
    cases hMem
  · intro entry hEntry
    cases hEntry
  · intro entry hEntry
    cases hEntry

theorem step (hTracked : LoopTracked scheduler region stream state)
    (hBuilt : scheduler.Built) (hRegion : scheduler.HasRegion region startStmt endStmt)
    (hCapped : scheduler.dsl.LoopsCapped) (hContexts : state.Tracked scheduler context)
    {event : Event} (hSafe : scheduler.IterationSafe state event)
    (hStep : scheduler.step state event = some next) :
    LoopTracked scheduler region stream next := by
  rcases scheduler.step_eq_some.mp hStep with ⟨rfl, hSpawn⟩ | ⟨resumption, hResumed, rfl⟩
  · exact hTracked.spawn hSpawn
  obtain ⟨outcome, -, hIndex, hStmt, hResume⟩ := scheduler.resumed?_eq_some hResumed
  have hFits := (hContexts.waits _ (List.mem_of_getElem? hIndex) _ hStmt).1
  have hEffect := DSLScheduler.resume_loopEffect hFits hStmt hResume
  obtain ⟨index, coroutine, stmt, segment⟩ := resumption
  simp only at hIndex hStmt hEffect ⊢
  have hCapped' (stmt : ActionStatement) (args : LoopEndArgs)
      (hFound : scheduler.dsl.stmt? region.endRef = some stmt)
      (hArgs : stmt.args = .loopEnd args) : 1 ≤ args.maxIterations :=
    hCapped stmt (DSLInput.stmt?_some_mem hFound).1 args hArgs
  have hOwnRegion {found : LoopRegion} (hTask : coroutine.task = ⟨region.endRef, stream⟩)
      (hFound : scheduler.regionByEnd? coroutine.task.ref = some found) : found = region := by
    rw [hTask, hRegion.regionByEnd?_eq hBuilt] at hFound
    exact (Option.some.inj hFound).symm
  cases hEffect with
  | steady hSteady hCaptured =>
      obtain ⟨hKeeps, hEarly⟩ := hSteady.spec
      refine hTracked.unnoticed hIndex hKeeps.toKeepsDue hEarly (by rw [hKeeps.events])
        (by rw [hKeeps.events]) ?_ fun after pc hSegment hTask captured hPoint => ?_
      · unfold State.loopIndex
        rw [hKeeps.indices]
      · have hAction : stmt.action = .loopEnd := by
          rw [hTask, hRegion.end_stmt] at hStmt
          cases hStmt
          exact hRegion.joins.end_action
        rcases hCaptured hAction after pc captured hSegment hPoint with hOld | ⟨found, hFound, rfl⟩
        · exact hTracked.captured coroutine (List.mem_of_getElem? hIndex) hTask captured hOld
        · rw [hOwnRegion hTask hFound, hTask]
          rfl
  | @begins after hAction hEarly hBegins =>
      by_cases hTask : coroutine.task = ⟨region.startRef, stream⟩
      · exact hTracked.start_begins hCapped' hIndex hEarly hTask hBegins
      · have hElsewhere := DSLScheduler.loopPhase_other_pass scheduler region stream
          (iterationResult (state.loopIndices.getD (coroutine.task.ref, coroutine.task.stream) 0))
          (scheduler.loopEvents state) hTask
        rw [← hBegins.events] at hElsewhere
        refine hTracked.unnoticed hIndex hBegins.toKeepsDue (fun other pc hSegment hPoint => ?_)
          hElsewhere.2 hElsewhere.1 ?_ fun other pc hSegment _ captured hPoint => ?_
        · cases hSegment
          cases hPoint
        · exact congrArg (·.getD (region.startRef, stream) 0) hBegins.indices
        · cases hSegment
          cases hPoint
  | @leaves after found added hAction hFound hSome hReports hIndices =>
      obtain ⟨hEntries, hPhase⟩ := DSLScheduler.loopPhase_reports scheduler region stream
        (scheduler.loopEvents state) hReports.own
      rw [← hReports.events] at hEntries hPhase
      by_cases hTask : coroutine.task = ⟨region.endRef, stream⟩
      · rw [if_pos ⟨hTask, hSome⟩] at hPhase
        refine hTracked.end_leaves hIndex hTask (by simp) hReports.toKeepsDue hPhase hEntries ?_
        simp only [Segment.state, State.loopIndex, hIndices, hOwnRegion hTask hFound, hTask]
        simp [Dict.getD]
      · rw [if_neg fun h => hTask h.1] at hPhase
        refine hTracked.unnoticed hIndex hReports.toKeepsDue (by simp) hPhase hEntries ?_ (by simp)
        -- another loop is left, or this one in another stream
        obtain ⟨hEnd, _, _, hHas⟩ := DSLScheduler.HasRegion.of_regionByEnd? hBuilt hFound
        have hKey : (region.startRef, stream) ≠ (found.startRef, coroutine.task.stream) := by
          intro hEq
          obtain ⟨hStart, hStream⟩ := Prod.mk.inj hEq
          obtain rfl := hRegion.eq_of_startRef hHas hStart
          exact hTask (by rw [hEnd, hStream])
        simp only [Segment.state, State.loopIndex, hIndices]
        simp [Dict.getD, hKey]
  | @misses after exc platform added hAction hSome hReports hIndices hReason =>
      obtain ⟨hEntries, hPhase⟩ := DSLScheduler.loopPhase_reports scheduler region stream
        (scheduler.loopEvents state) hReports.own
      rw [← hReports.events] at hEntries hPhase
      have hSame : (Segment.raise after exc platform).state.loopIndex region stream =
          state.loopIndex region stream :=
        congrArg (·.getD (region.startRef, stream) 0) hIndices
      by_cases hTask : coroutine.task = ⟨region.endRef, stream⟩
      · rw [if_pos ⟨hTask, hSome⟩] at hPhase
        refine hTracked.end_leaves hIndex hTask (by simp) hReports.toKeepsDue hPhase hEntries ?_
        rw [hSame]
        have hOwnFound : scheduler.regionByEnd? coroutine.task.ref = some region := by
          rw [hTask]
          exact hRegion.regionByEnd?_eq hBuilt
        rcases hReason region hOwnFound with hMissing | hInvalid
        · by_cases hOutside : scheduler.loopPhase region stream
              (scheduler.loopEvents state) = .outside
          · have hCounted := hTracked.counted
            rwa [hOutside] at hCounted
          · have hAlive := hTracked.alive hOutside
            rw [hTask] at hMissing
            simp [hMissing] at hAlive
        · refine hTracked.capped.resolve_right ?_
          rintro ⟨endFound, args, hEndFound, hArgs, -⟩
          rw [hTask, hEndFound] at hStmt
          cases hStmt
          exact hInvalid args hArgs
      · rw [if_neg fun h => hTask h.1] at hPhase
        exact hTracked.unnoticed hIndex hReports.toKeepsDue (by simp) hPhase hEntries hSame
          (by simp)
  | @restarts outer args current hAction hPc hFound hArgs hBound =>
      obtain ⟨hEnd, outerStart, outerEnd, hOuter⟩ :=
        DSLScheduler.HasRegion.of_regionByEnd? hBuilt hFound
      have hClean := hSafe _ current outer hResumed hPc rfl hFound
      obtain ⟨task, delay, pc⟩ := coroutine
      obtain ⟨ref, base⟩ := task
      obtain rfl : outer.endRef = ref := hEnd
      by_cases hOwn : (region.startRef, stream) = (outer.startRef, base)
      · obtain ⟨hStart, rfl⟩ := Prod.mk.inj hOwn
        obtain rfl := hRegion.eq_of_startRef hOuter hStart
        have hStmtEq : stmt = endStmt := by
          rw [hRegion.end_stmt] at hStmt
          exact (Option.some.inj hStmt).symm
        have hInside := hClean.running
        rw [← hRegion.loopPhase_filter] at hInside
        refine hTracked.restarted hRegion hBuilt hContexts.linked hIndex rfl ?_
          (hStmtEq ▸ hArgs) hBound hInside
        rw [hPc]
        rfl
      · by_cases hClears : (region.startRef ∈ outer.members ∧ base.within stream) ∨
            stream ∈ state.removedStreams outer base
        · refine hTracked.cleared hOuter hContexts.linked hIndex hOwn
            (hClean.idle region stream hRegion.lookup hOwn hClears) hClears (fun hNot hRemoved => ?_)
            (hRegion.endRef_ne hOuter)
          rw [DSLScheduler.loopEvents, hRegion.loopPhase_filter]
          exact hClean.left region stream hRegion.lookup hNot hRemoved
        · exact hTracked.uncleared hRegion hOuter hBuilt hIndex hOwn hClears

end LoopTracked

/-- In every run whose restarts are clean, every loop obeys the iteration law in
every stream. -/
theorem loop_iteration_law {dsl : DSLInput} {maxPendingTasks : Nat}
    {validateStored : Json → Option (StoredObject Json)} {scheduler : DSLScheduler}
    {context : ExecutionContext} {state : State} (hAccepted : dsl.Accepted)
    (hNew : DSLScheduler.new dsl maxPendingTasks validateStored = .ok scheduler)
    (hCapped : dsl.LoopsCapped)
    (hReach : scheduler.ReachableWith context scheduler.IterationSafe state)
    {key : Ref} {region : LoopRegion} (hRegion : scheduler.loopRegions.lookup key = some region)
    (stream : StreamID) : scheduler.LoopLaw region stream state.log := by
  obtain ⟨hBuilt, rfl⟩ := DSLScheduler.built_of_new hAccepted hNew
  obtain ⟨-, startStmt, endStmt, hHas⟩ := hBuilt.hasRegion hRegion
  have hTracked : LoopTracked scheduler region stream state := by
    induction hReach with
    | init => exact LoopTracked.init hBuilt.placed.validated context
    | step event hPrevious hSafe hStep ih =>
        exact ih.step hBuilt hHas hCapped
          (DSLScheduler.tracked_of_reachable (hPrevious.reachable scheduler)) hSafe hStep
  have hLaw := hTracked.law
  refine ⟨?_, ?_⟩
  · rw [← hHas.loopEntries_filter]
    exact hLaw.consecutive
  · rw [← hHas.loopEntries_filter]
    exact hLaw.bounded

namespace DSLScheduler

/-- A step that is safe because nothing but the loop end itself is left when it
restarts its loop. -/
def aloneStep (scheduler : DSLScheduler) (state : State) (event : Event) : Bool :=
  match scheduler.resumed? state event with
  | none => true
  | some resumption =>
      match resumption.coroutine.pc, scheduler.regionByEnd? resumption.coroutine.task.ref with
      | .loopEndExec _ true, some region =>
          decide (scheduler.loopPhase region resumption.coroutine.task.stream state.log = .inside) &&
            state.queue.isEmpty && decide (state.pending.length = 1) &&
            (state.removedStreams region resumption.coroutine.task.stream).isEmpty
      | _, _ => true

theorem iterationSafe_of_aloneStep {scheduler : DSLScheduler} {state : State} {event : Event}
    (hBuilt : scheduler.Built) (hAlone : scheduler.aloneStep state event = true) :
    scheduler.IterationSafe state event := by
  intro resumption index region hResumed hPc _ hFound
  obtain ⟨outcome, -, hIndex, -, -⟩ := scheduler.resumed?_eq_some hResumed
  obtain ⟨hEnd, _, _, hOuter⟩ := HasRegion.of_regionByEnd? hBuilt hFound
  unfold aloneStep at hAlone
  simp only [hResumed, hPc, hFound, Bool.and_eq_true, decide_eq_true_eq, List.isEmpty_iff] at hAlone
  obtain ⟨⟨⟨hInside, hQueue⟩, hLength⟩, hRemoved⟩ := hAlone
  have hOnly : ∀ other ∈ state.pending, other = resumption.coroutine := by
    obtain ⟨only, hPending⟩ := List.length_eq_one_iff.mp hLength
    have hMem := List.mem_of_getElem? hIndex
    intro other hOther
    rw [hPending, List.mem_singleton] at hOther hMem
    rw [hOther, hMem]
  refine ⟨hInside, fun other stream hOther hNe _ => ⟨?_, fun coroutine hMem => ?_⟩,
    fun other stream _ _ hMem => ?_⟩
  · simp [hQueue]
  · obtain ⟨-, _, _, hHas⟩ := hBuilt.hasRegion hOther
    rw [hOnly coroutine hMem]
    refine ⟨fun hTask => ?_, fun hTask => ?_⟩
    · exact hOuter.endRef_ne hHas (by rw [hEnd, hTask])
    · obtain rfl := hHas.eq_of_endRef hOuter (by rw [hEnd, hTask])
      exact hNe (by rw [hTask])
  · rw [hRemoved] at hMem
    cases hMem

end DSLScheduler

/-- A loop with one action that runs twice. -/
def twoPasses : Scenario where
  dsl := {
    actions := [
      { ref := "loop", action := .loopStart },
      { ref := "body", action := .udf "core.noop", dependsOn := ["loop"] },
      { ref := "end", action := .loopEnd,
        args := .loopEnd { condition := {}, maxIterations := 2 }, dependsOn := ["body"] }] }
  events := [.spawn, .resume 0 .resumed, .resume 0 .resumed,
    .spawn, .resume 0 .resumed, .resume 0 (.returned (.fromResult (.json .null))),
    .spawn, .resume 0 .resumed, .resume 0 (.truthy true), .resume 0 .resumed,
    .spawn, .resume 0 .resumed, .resume 0 .resumed,
    .spawn, .resume 0 .resumed, .resume 0 (.returned (.fromResult (.json .null))),
    .spawn, .resume 0 .resumed, .resume 0 (.truthy false), .resume 0 .resumed]

set_option maxRecDepth 20000 in
/-- The two passes are one entry and obey the law. -/
theorem twoPasses_loop_iteration_law : ∃ (scheduler : DSLScheduler) (state : State)
    (region : LoopRegion),
    DSLScheduler.new twoPasses.dsl 8 (fun _ => none) = .ok scheduler ∧
      scheduler.loopRegions.lookup "loop" = some region ∧
      (scheduler.loopEntries region rootStream state.log).map List.length = [2] ∧
      scheduler.LoopLaw region rootStream state.log := by
  have hReaches : twoPasses.reaches DSLScheduler.aloneStep
      (fun scheduler state => (scheduler.loopRegions.lookup "loop").any fun region =>
        (scheduler.loopEntries region rootStream state.log).map List.length = [2]) = true := by
    decide +kernel
  obtain ⟨hAccepted, scheduler, state, hNew, hReach, hPasses⟩ :=
    Scenario.exists_of_reaches hReaches
  have hBuilt := (DSLScheduler.built_of_new hAccepted hNew).1
  have hSafe : scheduler.ReachableWith twoPasses.context scheduler.IterationSafe state :=
    DSLScheduler.ReachableWith.mono scheduler hReach fun _ _ hAlone =>
      DSLScheduler.iterationSafe_of_aloneStep hBuilt hAlone
  have hCapped : twoPasses.dsl.LoopsCapped := by
    intro stmt hStmt args hArgs
    simp only [twoPasses, List.mem_cons, List.not_mem_nil, or_false] at hStmt
    rcases hStmt with rfl | rfl | rfl <;> cases hArgs
    decide
  cases hRegion : scheduler.loopRegions.lookup "loop" with
  | none => simp [hRegion] at hPasses
  | some region =>
      simp only [hRegion, Option.any_some, decide_eq_true_eq] at hPasses
      exact ⟨scheduler, state, region, hNew, hRegion, hPasses,
        loop_iteration_law hAccepted hNew hCapped hSafe hRegion rootStream⟩

/-- The index that a pass has been given. -/
def TaskResult.iteration? (result : TaskResult) : Option Int :=
  match result.result with
  | .inline (.json (.obj [(_, .int index)])) => some index
  | _ => none

/-- A loop inside a loop; the scatter of the inner loop is skipped.  The inner
loop end sees only skips, in the skip stream of the scatter, and goes on there,
and so does the outer loop end, which restarts the outer loop in that stream. -/
def skippedScatterInInnerLoop : Scenario where
  dsl := {
    actions := [
      { ref := "outer", action := .loopStart },
      { ref := "inner", action := .loopStart, dependsOn := ["outer"] },
      { ref := "scatter", action := .transformScatter,
        args := .scatter { collection := {} }, dependsOn := ["inner"], runIf := some {} },
      { ref := "gather", action := .transformGather, args := .gather { items := {} },
        dependsOn := ["scatter"] },
      { ref := "innerEnd", action := .loopEnd, args := .loopEnd { condition := {} },
        dependsOn := ["gather"] },
      { ref := "outerEnd", action := .loopEnd, args := .loopEnd { condition := {} },
        dependsOn := ["innerEnd"] }] }
  events := [.spawn, .resume 0 .resumed, .resume 0 .resumed,
    .spawn, .resume 0 .resumed, .resume 0 .resumed,
    .spawn, .resume 0 .resumed, .resume 0 (.truthy false),
    .spawn, .resume 0 .resumed, .spawn, .resume 0 .resumed,
    .spawn, .resume 0 .resumed, .resume 0 (.truthy true), .resume 0 .resumed,
    .spawn, .resume 0 .resumed]

set_option maxRecDepth 20000 in
/-- The law fails on accepted definitions: in the skip stream the outer loop
begins with the index 1. -/
theorem not_forall_loop_iteration_law : ¬ ∀ (dsl : DSLInput) (maxPendingTasks : Nat)
    (scheduler : DSLScheduler) (context : ExecutionContext) (state : State) (key : Ref)
    (region : LoopRegion) (stream : StreamID), dsl.Accepted →
    DSLScheduler.new dsl maxPendingTasks (fun _ => none) = .ok scheduler →
    scheduler.Reachable context state → scheduler.loopRegions.lookup key = some region →
    scheduler.LoopLaw region stream state.log := by
  intro hAll
  have hReaches : skippedScatterInInnerLoop.reaches (fun _ _ _ => true)
      (fun scheduler state => (scheduler.loopRegions.lookup "outer").any fun region =>
        (scheduler.loopEntries region (.child .root "scatter" .skip)
          state.log).any fun entry => entry.map TaskResult.iteration? = [some 1]) = true := by
    decide +kernel
  obtain ⟨hAccepted, scheduler, state, hNew, hReach, hPasses⟩ :=
    Scenario.exists_of_reaches hReaches
  cases hRegion : scheduler.loopRegions.lookup "outer" with
  | none => simp [hRegion] at hPasses
  | some region =>
      have hLaw := hAll _ _ scheduler _ state "outer" region (.child .root "scatter" .skip)
        hAccepted hNew (hReach.reachable scheduler) hRegion
      simp only [hRegion, Option.any_some, List.any_eq_true, decide_eq_true_eq] at hPasses
      obtain ⟨entry, hEntry, hIndices⟩ := hPasses
      have hLength : entry.length = 1 := by simpa using congrArg List.length hIndices
      have hFirst := hLaw.consecutive entry hEntry
      rw [hLength] at hFirst
      rw [hFirst] at hIndices
      exact absurd hIndices (by decide)

end Tracecat
