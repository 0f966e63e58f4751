import Tracecat.Scheduler.History
import Tracecat.Scheduler.Move

/-!
# What an expression refers to

The places of the workflow that evaluate a templated field, with the operand
that each of them builds, and the meaning that a reference should have: the
nearest result along the hierarchy, and the trigger inputs and environment of
the workflow.  The operands of three kinds of sites agree with it to different
extents.
-/

namespace Tracecat

/-- A place of the workflow that evaluates a templated field. -/
inductive EvalSite
  /-- `_task_should_skip` -/
  | runIf
  /-- `condition` in `_handle_loop_end` -/
  | loopCondition
  /-- the arguments of a registry action -/
  | actionArgs
  /-- `environment` in `_run_action` and in the agent activities -/
  | environment
  /-- the arguments of an agent -/
  | agentArgs
  /-- `_execute_task_until_condition` -/
  | retryUntil
  /-- `handle_scatter_input_activity` -/
  | scatterCollection
  /-- `items` in `_handle_gather` -/
  | gatherItems
  /-- the arguments in `prepare_subflow_activity` -/
  | childArgs
  /-- `for_each` in `prepare_subflow_activity` -/
  | childForEach
  /-- `trigger_inputs` in `_execute_child_workflow_prepared` -/
  | childTriggerInputs
  deriving DecidableEq, Repr

namespace EvalSite

/-- The field that is evaluated. -/
def template (stmt : ActionStatement) : EvalSite → Template
  | runIf => stmt.runIf.getD {}
  | environment => stmt.environment.getD {}
  | retryUntil => stmt.retryUntil.getD {}
  | childForEach => stmt.forEach.getD {}
  | actionArgs => ⟨stmt.args.template.refs ++ (stmt.forEach.getD {}).refs⟩
  | childTriggerInputs =>
      match stmt.args with
      | .other entries => ⟨(entries.filter fun entry => entry.1 = "trigger_inputs").flatMap
          fun entry => entry.2.refs⟩
      | _ => {}
  | loopCondition | agentArgs | scatterCollection | gatherItems | childArgs =>
      stmt.args.template

/-- The operand is `build_stream_aware_context(stmt, stream)`. -/
def isStreamAware : EvalSite → Bool
  | runIf | loopCondition | actionArgs | environment | agentArgs => true
  | _ => false

/-- The operand of the evaluation: the stream-aware context, `self.context`,
whose `ACTIONS` holds the result of the attempt, or the context of the stream. -/
def operand? (site : EvalSite) (state : State) (task : Task) (stmt : ActionStatement) :
    Option ExecutionContext :=
  if site.isStreamAware then state.buildStreamAwareContext stmt task.stream
  else if site = retryUntil then state.streams.lookup rootStream
  else state.streams.lookup task.stream

end EvalSite

/-- The sites that build their operand as the coroutine suspends. -/
def PC.sites : PC → List EvalSite
  | runIf => [.runIf]
  | loopEndCond _ => [.loopCondition]
  | retryUntil _ => [.retryUntil]
  | scatterInput => [.scatterCollection]
  | gatherItem _ => [.gatherItems]
  | _ => []

/-- The sites of the executor, which build their operand while it runs. -/
def ActionType.sites : ActionType → List EvalSite
  | childWorkflowExecute => [.childArgs, .childForEach, .childTriggerInputs]
  | aiAgent | aiPresetAgent | aiAction => [.agentArgs, .environment]
  | _ => [.actionArgs, .environment]

/-- In a run of the workflow, the state is one in which `site` builds its
operand for a task. -/
inductive Evaluates (scheduler : DSLScheduler) (context : ExecutionContext) :
    State → Task → ActionStatement → EvalSite → Prop
  | entering {state next after : State} {event : Event} {resumption : Resumption} {pc : PC}
      {site : EvalSite} (hReach : scheduler.Reachable context state)
      (hStep : scheduler.step state event = some next)
      (hResumed : scheduler.resumed? state event = some resumption)
      (hSuspend : resumption.segment = .suspend after pc) (hSite : site ∈ pc.sites) :
      Evaluates scheduler context next resumption.coroutine.task resumption.stmt site
  | executing {state : State} {coroutine : Coroutine} {stmt : ActionStatement}
      {site : EvalSite} (hReach : scheduler.Reachable context state)
      (hPending : coroutine ∈ state.pending)
      (hStmt : scheduler.dsl.stmt? coroutine.task.ref = some stmt)
      (hPc : coroutine.pc = .executing) (hSite : site ∈ stmt.action.sites) :
      Evaluates scheduler context state coroutine.task stmt site

/-! ## Meaning -/

/-- What a reference resolves to; no value is null. -/
inductive ExprValue
  | result (result : TaskResult)
  | trigger (inputs : StoredObject Json)
  | env (environment : DSLEnvironment)

/-- The value of a reference in an operand. -/
def ExecutionContext.value? (context : ExecutionContext) : ExprRef → Option ExprValue
  | .action ref => (context.actions.lookup ref).map .result
  | .trigger => context.trigger.map .trigger
  | .env => context.env.map .env

/-- The value that a reference means in a stream of a workflow. -/
def State.Means (state : State) (workflow : ExecutionContext) (stream : StreamID) :
    ExprRef → Option ExprValue → Prop
  | .action ref, value =>
      (∃ result, state.Nearest ref stream result ∧ value = some (.result result)) ∨
        (∀ result, ¬ state.Nearest ref stream result) ∧ value = none
  | .trigger, value => value = workflow.trigger.map .trigger
  | .env, value => value = workflow.env.map .env

/-- When the operand of the site serves a reference.  A stream-aware operand
always does.  The root context serves `retry_until` where it holds what the
stream sees.  The context of a stream below the root has no trigger inputs, no
environment, and only the results of that stream. -/
def EvalSite.Serves (site : EvalSite) (workflow : ExecutionContext) (state : State)
    (task : Task) : ExprRef → Prop
  | .action ref =>
      site.isStreamAware ∨ task.stream = rootStream ∨
        if site = .retryUntil then
          ref = task.ref ∨ ∀ result, state.Nearest ref task.stream result ↔
            state.entryAt? rootStream ref = some result
        else
          state.entryAt? task.stream ref ≠ none ∨
            ∀ result, ¬ state.Nearest ref task.stream result
  | .trigger =>
      site.isStreamAware ∨ task.stream = rootStream ∨ site = .retryUntil ∨
        workflow.trigger = none
  | .env =>
      site.isStreamAware ∨ task.stream = rootStream ∨ site = .retryUntil ∨
        workflow.env = none

/-! ## The stream-aware lookup -/

namespace State

variable {state : State} {ref : Ref} {stream : StreamID}

theorem Nearest.unique {first second : TaskResult} (hFirst : state.Nearest ref stream first)
    (hSecond : state.Nearest ref stream second) : first = second := by
  induction hFirst with
  | here hEntry =>
      cases hSecond with
      | here hOther =>
          rw [hEntry] at hOther
          exact Option.some.inj hOther
      | above hNone _ _ =>
          rw [hEntry] at hNone
          cases hNone
  | above hNone hParent _ ih =>
      cases hSecond with
      | here hOther =>
          rw [hNone] at hOther
          cases hOther
      | above _ hOther hNearest =>
          rw [hParent] at hOther
          cases hOther
          exact ih hNearest

theorem resultFrom_eq_some_iff (hLinked : state.tables.Linked) {result : TaskResult}
    (fuel : Nat) (hFuel : stream.depth < fuel) :
    state.resultFrom ref fuel stream = some result ↔ state.Nearest ref stream result := by
  induction fuel generalizing stream with
  | zero => omega
  | succ fuel ih =>
      unfold resultFrom
      cases hEntry : state.entryAt? stream ref with
      | some found =>
          constructor
          · intro hFound
            cases hFound
            exact .here hEntry
          · intro hNearest
            rw [Nearest.unique hNearest (.here hEntry)]
      | none =>
          simp only
          cases hParent : state.streamHierarchy.lookup stream with
          | none =>
              constructor
              · intro hFound
                cases hFound
              · intro hNearest
                cases hNearest with
                | here hOther => simp [hEntry] at hOther
                | above _ hOther _ => simp [hParent] at hOther
          | some parent? =>
              cases parent? with
              | none =>
                  constructor
                  · intro hFound
                    cases hFound
                  · intro hNearest
                    cases hNearest with
                    | here hOther => simp [hEntry] at hOther
                    | above _ hOther _ => simp [hParent] at hOther
              | some parent =>
                  obtain ⟨scope, index, rfl⟩ := hLinked.eq_child hParent
                  simp only [StreamID.depth] at hFuel
                  rw [ih (by omega)]
                  constructor
                  · exact .above hEntry hParent
                  · intro hNearest
                    cases hNearest with
                    | here hOther => simp [hEntry] at hOther
                    | above _ hOther hAbove =>
                        rw [hParent] at hOther
                        cases hOther
                        exact hAbove

theorem streamAwareActionResult_eq_some_iff (hLinked : state.tables.Linked)
    {result : TaskResult} :
    state.streamAwareActionResult ref stream = some result ↔
      state.Nearest ref stream result :=
  resultFrom_eq_some_iff hLinked _ (Nat.lt_succ_self _)

theorem nearest_root_iff (hLinked : state.tables.Linked) {result : TaskResult} :
    state.Nearest ref rootStream result ↔ state.entryAt? rootStream ref = some result := by
  constructor
  · intro hNearest
    cases hNearest with
    | here hEntry => exact hEntry
    | above _ hParent _ =>
        obtain ⟨scope, index, hEq⟩ := hLinked.eq_child hParent
        cases hEq
  · exact .here

end State

/-! ## The operands -/

theorem State.buildStreamAwareContext_value {state : State} {stmt : ActionStatement}
    {workflow operand : ExecutionContext} {stream : StreamID} {expr : ExprRef}
    (hLinked : state.tables.Linked) (hRecorded : state.tables.Recorded workflow)
    (hOperand : state.buildStreamAwareContext stmt stream = some operand)
    (hExpr : ∀ ref, expr = .action ref → ref ∈ stmt.actionRefs) :
    state.Means workflow stream expr (operand.value? expr) := by
  obtain ⟨root, hRoot, rfl⟩ := Option.map_eq_some_iff.mp hOperand
  obtain ⟨known, hKnown, hTrigger, hEnv⟩ := hRecorded.root
  have hSame : known = root := Option.some.inj (hKnown.symm.trans hRoot)
  subst hSame
  cases expr with
  | action ref =>
      simp only [ExecutionContext.value?, State.lookup_resolvedActions _ (hExpr ref rfl)]
      cases hResult : state.streamAwareActionResult ref stream with
      | some result =>
          exact Or.inl ⟨result,
            (streamAwareActionResult_eq_some_iff hLinked).mp hResult, rfl⟩
      | none =>
          refine Or.inr ⟨fun result hNearest => ?_, rfl⟩
          rw [(streamAwareActionResult_eq_some_iff hLinked).mpr hNearest] at hResult
          cases hResult
  | trigger => exact congrArg (Option.map ExprValue.trigger) hTrigger
  | env => exact congrArg (Option.map ExprValue.env) hEnv

/-- A field of a statement refers to actions that `extract_expressions` finds
in the statement. -/
theorem EvalSite.mem_actionRefs {site : EvalSite} (hSite : site.isStreamAware)
    {stmt : ActionStatement} {ref : Ref} (hRef : .action ref ∈ (site.template stmt).refs) :
    ref ∈ stmt.actionRefs := by
  have hActions (template : Template) (hMem : .action ref ∈ template.refs) :
      ref ∈ template.actionRefs :=
    List.mem_filterMap.mpr ⟨.action ref, hMem, rfl⟩
  unfold ActionStatement.actionRefs ActionStatement.exprFields
  cases site <;> simp only [isStreamAware, Bool.false_eq_true] at hSite <;>
    simp only [template] at hRef
  case actionArgs =>
    rcases List.mem_append.mp hRef with hRef | hRef <;> simp [hActions _ hRef]
  all_goals simp [hActions _ hRef]

theorem Evaluates.tracked {scheduler : DSLScheduler} {context : ExecutionContext}
    {state : State} {task : Task} {stmt : ActionStatement} {site : EvalSite}
    (hEvaluates : Evaluates scheduler context state task stmt site) :
    state.Tracked scheduler context ∧
      (site = .retryUntil → ∃ result, state.Attempted task result) := by
  cases hEvaluates with
  | @entering before _ after event resumption pc _ hReach hStep hResumed hSuspend hSite =>
      have hBefore := DSLScheduler.tracked_of_reachable hReach
      have hNext := DSLScheduler.tracked_step hBefore hStep
      refine ⟨hNext, fun hRetry => ?_⟩
      subst hRetry
      obtain ⟨hTouches, hWaits⟩ := DSLScheduler.resumed_touches hBefore hResumed
      obtain ⟨result, hPc⟩ : ∃ result, pc = .retryUntil result := by
        cases pc <;> simp [PC.sites] at hSite ⊢
      obtain ⟨hOwn, hRoot⟩ := (hWaits after pc hSuspend).2 result hPc
      have hStreams : state.streams = after.streams := by
        rcases scheduler.step_eq_some.mp hStep with ⟨rfl, -⟩ | ⟨other, hOther, rfl⟩
        · simp [DSLScheduler.resumed?] at hResumed
        · rw [hResumed] at hOther
          cases hOther
          rw [hSuspend]
          rfl
      refine ⟨result, ?_, ?_⟩
      · unfold State.entryAt?
        rw [hStreams]
        exact hOwn
      · unfold State.entryAt?
        rw [hStreams]
        exact hRoot
  | executing hReach hPending hStmt hPc hSite =>
      refine ⟨DSLScheduler.tracked_of_reachable hReach, fun hRetry => ?_⟩
      subst hRetry
      cases hAction : stmt.action <;> simp [hAction, ActionType.sites] at hSite

theorem State.means_action_iff {state : State} {workflow : ExecutionContext} {stream : StreamID}
    {ref : Ref} (found : Option TaskResult) :
    state.Means workflow stream (.action ref) (found.map .result) ↔
      ∀ result, state.Nearest ref stream result ↔ found = some result := by
  constructor
  · rintro (⟨nearest, hNearest, hValue⟩ | ⟨hNone, hValue⟩) result
    · obtain ⟨same, hFound, hSame⟩ := Option.map_eq_some_iff.mp hValue
      cases hSame
      rw [hFound, Option.some.injEq]
      constructor
      · exact fun hOther => hNearest.unique hOther
      · rintro rfl
        exact hNearest
    · rw [Option.map_eq_none_iff.mp hValue]
      simp [hNone result]
  · intro hAll
    cases found with
    | none => exact Or.inr ⟨fun result hNearest => by simpa using (hAll result).mp hNearest, rfl⟩
    | some result => exact Or.inl ⟨result, (hAll result).mpr rfl, rfl⟩

/-- The operand of a site gives a reference its meaning exactly when the site
serves it. -/
theorem EvalSite.means_iff_serves {scheduler : DSLScheduler} {context operand : ExecutionContext}
    {state : State} {task : Task} {stmt : ActionStatement} {site : EvalSite} {expr : ExprRef}
    (hTracked : state.Tracked scheduler context)
    (hAttempted : site = .retryUntil → ∃ result, state.Attempted task result)
    (hOperand : site.operand? state task stmt = some operand)
    (hExpr : expr ∈ (site.template stmt).refs) :
    state.Means context task.stream expr (operand.value? expr) ↔
      site.Serves context state task expr := by
  have hLinked := hTracked.linked
  obtain ⟨root, hRoot, hTrigger, hEnv⟩ := hTracked.recorded.root
  have hRootLookup : state.streams.lookup rootStream = some root := hRoot
  unfold operand? at hOperand
  by_cases hAware : site.isStreamAware
  · rw [if_pos hAware] at hOperand
    have hMeans := State.buildStreamAwareContext_value hLinked hTracked.recorded hOperand
      fun ref hAction => mem_actionRefs hAware (hAction ▸ hExpr)
    cases expr <;> simp [hMeans, Serves, hAware]
  rw [if_neg hAware] at hOperand
  -- otherwise the operand is the context of a stream: of the root, or of the task
  have hLocal {stream : StreamID} (hStream : state.streams.lookup stream = some operand)
      (ref : Ref) : operand.value? (.action ref) = (state.entryAt? stream ref).map .result := by
    simp [ExecutionContext.value?, State.entryAt?, hStream]
  have hOwn {stream : StreamID} {ref : Ref} {result : TaskResult}
      (hEntry : state.entryAt? stream ref = some result) (other : TaskResult) :
      state.Nearest ref stream other ↔ result = other := by
    constructor
    · exact fun hNearest => (State.Nearest.here hEntry).unique hNearest
    · rintro rfl
      exact .here hEntry
  by_cases hRetry : site = .retryUntil
  · subst hRetry
    rw [if_pos rfl, hRootLookup] at hOperand
    cases hOperand
    obtain ⟨result, hAttempt, hRootAttempt⟩ := hAttempted rfl
    have hRootEntry := hRootAttempt (by simp [hRootLookup])
    cases expr with
    | action ref =>
        rw [hLocal hRootLookup, State.means_action_iff]
        constructor
        · exact fun hAll => Or.inr (Or.inr (Or.inr hAll))
        · rintro (hFalse | hStream | rfl | hAll)
          · exact absurd hFalse hAware
          · rw [hStream]
            exact fun _ => State.nearest_root_iff hLinked
          · intro other
            rw [hOwn hAttempt, hRootEntry, Option.some.injEq]
          · exact hAll
    | trigger => simp [State.Means, ExecutionContext.value?, Serves, hTrigger]
    | env => simp [State.Means, ExecutionContext.value?, Serves, hEnv]
  · rw [if_neg hRetry] at hOperand
    by_cases hStream : task.stream = rootStream
    · rw [hStream, hRootLookup] at hOperand
      cases hOperand
      cases expr with
      | action ref =>
          rw [hLocal hRootLookup, State.means_action_iff, hStream]
          constructor
          · exact fun _ => Or.inr (Or.inl hStream)
          · exact fun _ _ => State.nearest_root_iff hLinked
      | trigger => simp [State.Means, ExecutionContext.value?, Serves, hTrigger, hStream]
      | env => simp [State.Means, ExecutionContext.value?, Serves, hEnv, hStream]
    · obtain ⟨hNoTrigger, hNoEnv⟩ := hTracked.recorded.bare task.stream operand hOperand hStream
      cases expr with
      | action ref =>
          rw [hLocal hOperand, State.means_action_iff]
          simp only [Serves, hAware, hStream, hRetry, Bool.false_eq_true, false_or, if_false]
          cases hEntry : state.entryAt? task.stream ref with
          | none => simp
          | some result => simp [hOwn hEntry]
      | trigger =>
          simp [State.Means, ExecutionContext.value?, Serves, hAware, hStream, hRetry,
            hNoTrigger]
      | env =>
          simp [State.Means, ExecutionContext.value?, Serves, hAware, hStream, hRetry, hNoEnv]

/-- Where a site builds its operand in a run, the references of the field have
their meaning exactly when the site serves every one of them. -/
theorem evaluation_meaning_iff {scheduler : DSLScheduler} {context operand : ExecutionContext}
    {state : State} {task : Task} {stmt : ActionStatement} {site : EvalSite}
    (hEvaluates : Evaluates scheduler context state task stmt site)
    (hOperand : site.operand? state task stmt = some operand) :
    (∀ expr ∈ (site.template stmt).refs,
        state.Means context task.stream expr (operand.value? expr)) ↔
      ∀ expr ∈ (site.template stmt).refs, site.Serves context state task expr := by
  obtain ⟨hTracked, hAttempted⟩ := hEvaluates.tracked
  exact forall₂_congr fun expr hExpr =>
    EvalSite.means_iff_serves hTracked hAttempted hOperand hExpr

/-- A child workflow in the stream of a scatter. -/
def childStatement (args : Template) : ActionStatement where
  ref := "child"
  action := .childWorkflowExecute
  args := .other [("trigger_inputs", args)]
  dependsOn := ["scatter"]

/-- A run that starts a child workflow in the stream of the only item. -/
def childInStream (args : Template) : Scenario where
  dsl := {
    actions := [
      { ref := "scatter", action := .transformScatter,
        args := .scatter { collection := {} } },
      childStatement args] }
  context := { trigger := some (.inline .null), env := some { environment := "default" } }
  events := [.spawn, .resume 0 .resumed,
    .resume 0 (.collection (.inline (.arr [.null]))), .spawn, .resume 1 .resumed]

def childTask : Task := ⟨"child", .child .root "scatter" (.item 0)⟩

/-- The child workflow is being executed, in a stream that has a context. -/
def executesChild (args : Template) (scheduler : DSLScheduler) (state : State) : Bool :=
  decide (scheduler.dsl.stmt? "child" = some (childStatement args)) &&
    (state.streams.lookup childTask.stream).isSome &&
    state.pending.any fun coroutine => match coroutine.pc with
      | .executing => coroutine.task = childTask
      | _ => false

theorem evaluates_of_executesChild {args : Template} {scheduler : DSLScheduler}
    {context : ExecutionContext} {state : State} (hReach : scheduler.Reachable context state)
    (hExecutes : executesChild args scheduler state = true) :
    Evaluates scheduler context state childTask (childStatement args) .childTriggerInputs ∧
      ∃ operand, EvalSite.childTriggerInputs.operand? state childTask (childStatement args) =
        some operand := by
  unfold executesChild at hExecutes
  simp only [Bool.and_eq_true, decide_eq_true_eq, List.any_eq_true] at hExecutes
  obtain ⟨⟨hStmt, hContext⟩, coroutine, hMem, hCoroutine⟩ := hExecutes
  obtain ⟨operand, hOperand⟩ := Option.isSome_iff_exists.mp hContext
  refine ⟨?_, operand, hOperand⟩
  cases hPc : coroutine.pc <;> simp only [hPc, Bool.false_eq_true, decide_eq_true_eq] at hCoroutine
  have hTaskStmt : scheduler.dsl.stmt? coroutine.task.ref = some (childStatement args) := by
    rw [hCoroutine]
    exact hStmt
  rw [← hCoroutine]
  exact .executing hReach hMem hTaskStmt hPc (by simp [childStatement, ActionType.sites])

set_option maxRecDepth 20000 in
/-- A child workflow in a stream is given the item of its stream. -/
theorem childInStream_meaning_iff : ∃ (state : State) (operand : ExecutionContext),
    EvalSite.childTriggerInputs.operand? state childTask
        (childStatement ⟨[.action "scatter"]⟩) = some operand ∧
      ((∀ expr ∈ [ExprRef.action "scatter"],
          state.Means (childInStream ⟨[.action "scatter"]⟩).context childTask.stream expr
            (operand.value? expr)) ↔
        ∀ expr ∈ [ExprRef.action "scatter"],
          EvalSite.childTriggerInputs.Serves (childInStream ⟨[.action "scatter"]⟩).context
            state childTask expr) := by
  have hReaches : (childInStream ⟨[.action "scatter"]⟩).reaches (fun _ _ _ => true)
      (executesChild ⟨[.action "scatter"]⟩) = true := by
    decide +kernel
  obtain ⟨-, scheduler, state, -, hReach, hExecutes⟩ := Scenario.exists_of_reaches hReaches
  obtain ⟨hEvaluates, operand, hOperand⟩ :=
    evaluates_of_executesChild hReach.reachable hExecutes
  exact ⟨state, operand, hOperand, evaluation_meaning_iff hEvaluates hOperand⟩

set_option maxRecDepth 20000 in
/-- Some references lose their meaning: the trigger inputs of a child workflow
in a stream cannot refer to the trigger inputs of the workflow. -/
theorem not_forall_meaning : ¬ ∀ (dsl : DSLInput) (maxPendingTasks : Nat)
    (scheduler : DSLScheduler) (context : ExecutionContext) (state : State) (task : Task)
    (stmt : ActionStatement) (site : EvalSite) (operand : ExecutionContext), dsl.Accepted →
    DSLScheduler.new dsl maxPendingTasks (fun _ => none) = .ok scheduler →
    Evaluates scheduler context state task stmt site →
    site.operand? state task stmt = some operand →
    ∀ expr ∈ (site.template stmt).refs,
      state.Means context task.stream expr (operand.value? expr) := by
  intro hAll
  have hReaches : (childInStream ⟨[.trigger]⟩).reaches (fun _ _ _ => true)
      (executesChild ⟨[.trigger]⟩) = true := by
    decide +kernel
  obtain ⟨hAccepted, scheduler, state, hNew, hReach, hExecutes⟩ :=
    Scenario.exists_of_reaches hReaches
  obtain ⟨hEvaluates, operand, hOperand⟩ :=
    evaluates_of_executesChild hReach.reachable hExecutes
  have hMeans := hAll _ _ scheduler _ state _ _ _ operand hAccepted hNew hEvaluates hOperand
  obtain ⟨hTracked, hAttempted⟩ := hEvaluates.tracked
  have hExpr : .trigger ∈ (EvalSite.childTriggerInputs.template
      (childStatement ⟨[.trigger]⟩)).refs := by
    simp [EvalSite.template, childStatement]
  have hServes := (EvalSite.means_iff_serves hTracked hAttempted hOperand hExpr).mp
    (hMeans .trigger hExpr)
  simp [EvalSite.Serves, EvalSite.isStreamAware, childTask, childInStream] at hServes

end Tracecat
