import Tracecat.Lib.Assoc
import Tracecat.Lib.Logged

/-!
# Template actions

The two executors of template actions of `executor/service.py`: `run_template_action` runs
a template in the process, `_execute_template_action` gives each of its steps to a backend.
What evaluates expressions and validates arguments is the same for both and a parameter
here, and so is the result of each function that a step calls.
-/

namespace Tracecat
namespace Templates

/-! ## Definitions -/

abbrev Arguments (Value : Type) : Type := List (Value × Value)

/-- `ActionStep`. -/
structure ActionStep (Expr : Type) where
  ref : String
  action : String
  args : Expr

/-- `TemplateActionDefinition`; `expects` is a dictionary. -/
structure TemplateActionDefinition (Expr Field : Type) where
  action : String
  expects : List (String × Field)
  steps : List (ActionStep Expr)
  returns : Expr

inductive ActionImplementation (Expr Field : Type)
  | udf
  | template (definition : TemplateActionDefinition Expr Field)

/-- `TemplateExecutionContext`. -/
structure TemplateExecutionContext (Value : Type) where
  secrets : Value
  env : Value
  vars : Value
  inputs : Arguments Value
  steps : List (String × Value)

/-- `ExecutionContext`, as far as templates read it. -/
structure ExecutionContext (Value : Type) where
  secrets : Option Value
  env : Option Value
  vars : Option Value

/-- What a run calls: the templates that it enters, and functions with their arguments. -/
inductive Invocation (Value : Type)
  | template (action : String)
  | udf (action : String) (args : Arguments Value)

inductive RunError (Fault : Type)
  | evaluation (fault : Fault)
  | validation (key : String) (fault : Fault)
  | notBound (action : String)
  | resolvedContext
  | function (fault : Fault)
  | execution (action : String) (cause : RunError Fault)
  /-- The templates are nested deeper than the fuel. -/
  | unfinished

/-- `ExecutionError` with the information of an exception; one that already is an
`ExecutionError` is raised again. -/
def RunError.inStep {Fault : Type} (action : String) : RunError Fault → RunError Fault
  | unfinished => unfinished
  | execution inner cause => execution inner cause
  | cause => execution action cause

variable {Expr Field Value Fault : Type}

/-- What both executors call: the evaluation of templated objects, the validation of
arguments, the registry and the functions of its actions. -/
structure Services (Expr Field Value Fault : Type) where
  /-- `eval_templated_object` on the arguments of a step. -/
  evalArgs : Expr → TemplateExecutionContext Value → Except Fault (Arguments Value)
  /-- `eval_templated_object` on what a template returns. -/
  evalReturns : Expr → TemplateExecutionContext Value → Except Fault Value
  /-- `create_expectation_model`, `model_validate` and `model_dump(mode="json")`. -/
  validate : List (String × Field) → Arguments Value → Except Fault (Arguments Value)
  /-- The implementation of an action of the registry. -/
  load : String → Option (ActionImplementation Expr Field)
  /-- The result of a function for its arguments. -/
  call : String → Arguments Value → Except Fault Value
  /-- `TaskResult.from_result(result).to_materialized_dict()`. -/
  taskResult : Value → Value
  /-- `{}` and `DSLEnvironment()`. -/
  empty : Value
  /-- `isinstance(key, str)`. -/
  isText : Value → Bool

/-- Code of an executor: it logs what it calls. -/
abbrev RunM (Value Fault α : Type) : Type := Logged Unit (Invocation Value) (RunError Fault) α

variable (services : Services Expr Field Value Fault)

/-! ## In the process -/

/-- `load_action_impl`. -/
def loadActionImpl (action : String) : RunM Value Fault (ActionImplementation Expr Field) :=
  match services.load action with
  | some implementation => pure implementation
  | none => Logged.raise (.notBound action)

/-- `_run_action_direct`. -/
def runActionDirect (action : String) (args : Arguments Value) : RunM Value Fault Value := do
  Logged.tell (.udf action args)
  Logged.ofExcept .function (services.call action args)

/-- `_run_template_steps`, given `_run_single_template_step`. -/
def runTemplateSteps
    (runSingleTemplateStep : String → ActionImplementation Expr Field → Arguments Value →
      TemplateExecutionContext Value → RunM Value Fault Value)
    (definition : TemplateActionDefinition Expr Field) (context : TemplateExecutionContext Value) :
    RunM Value Fault Value := do
  let steps ← definition.steps.foldlM (fun steps step => do
    let context := { context with steps := steps }
    let args ← Logged.ofExcept .evaluation (services.evalArgs step.args context)
    let implementation ← loadActionImpl services step.action
    let result ← runSingleTemplateStep step.action implementation args context
    return Assoc.set step.ref (services.taskResult result) steps) context.steps
  Logged.ofExcept .evaluation (services.evalReturns definition.returns { context with steps := steps })

/-- The arguments of a template in the process: without `expects` there are none. -/
def validatedArgs (definition : TemplateActionDefinition Expr Field) (args : Arguments Value) :
    RunM Value Fault (Arguments Value) :=
  if definition.expects.isEmpty then pure []
  else Logged.ofExcept (.validation definition.action) (services.validate definition.expects args)

/-- `_run_single_template_step`, on templates that are nested so deep. -/
def runSingleTemplateStep : Nat → String → ActionImplementation Expr Field → Arguments Value →
    TemplateExecutionContext Value → RunM Value Fault Value
  | 0, _, _, _, _ => Logged.raise .unfinished
  | _ + 1, action, .udf, args, _ => runActionDirect services action args
  | depth + 1, action, .template definition, args, context => do
      Logged.tell (.template action)
      let inputs ← validatedArgs services definition args
      runTemplateSteps services (runSingleTemplateStep depth) definition
        { secrets := context.secrets
          env := context.env
          vars := context.vars
          inputs := inputs
          steps := [] }

/-- `run_template_action`. -/
def runTemplateAction (depth : Nat) (definition : TemplateActionDefinition Expr Field)
    (args : Arguments Value) (context : Option (ExecutionContext Value)) :
    RunM Value Fault Value := do
  let inputs ← validatedArgs services definition args
  runTemplateSteps services (runSingleTemplateStep services depth) definition
    { secrets := (context.bind ExecutionContext.secrets).getD services.empty
      env := (context.bind ExecutionContext.env).getD services.empty
      vars := (context.bind ExecutionContext.vars).getD services.empty
      inputs := inputs
      steps := [] }

/-! ## Through a backend -/

/-- `ResolvedContext`, as far as templates read it. -/
structure ResolvedContext (Expr Field Value : Type) where
  secrets : Value
  variables_ : Value
  actionName : String
  actionImpl : ActionImplementation Expr Field
  evaluatedArgs : Arguments Value

/-- `_prepare_step_context`; the arguments of a `ResolvedContext` are keyed by texts. -/
def prepareStepContext (stepAction : String) (evaluatedArgs : Arguments Value)
    (parent : ResolvedContext Expr Field Value) :
    RunM Value Fault (ResolvedContext Expr Field Value) := do
  let implementation ←
    match services.load stepAction with
    | some implementation => pure implementation
    | none => Logged.raise (.notBound stepAction)
  if evaluatedArgs.all fun entry => services.isText entry.1 then
    return { secrets := parent.secrets
             variables_ := parent.variables_
             actionName := stepAction
             actionImpl := implementation
             evaluatedArgs := evaluatedArgs }
  else Logged.raise .resolvedContext

/-- The steps of `_execute_template_action` and what it returns, given `_invoke_step`. -/
def executeTemplateSteps
    (invokeStep : ResolvedContext Expr Field Value → RunM Value Fault Value)
    (definition : TemplateActionDefinition Expr Field)
    (resolved : ResolvedContext Expr Field Value) (context : TemplateExecutionContext Value) :
    RunM Value Fault Value := do
  let steps ← definition.steps.foldlM (fun steps step => do
    let args ← Logged.ofExcept .evaluation
      (services.evalArgs step.args { context with steps := steps })
    let stepResolved ← prepareStepContext services step.action args resolved
    let result ← Logged.mapError (RunError.inStep step.action) (invokeStep stepResolved)
    return Assoc.set step.ref (services.taskResult result) steps) context.steps
  Logged.ofExcept .evaluation
    (services.evalReturns definition.returns { context with steps := steps })

/-- The arguments of a template through a backend: without `expects` they are taken as they
are. -/
def validatedInputArgs (definition : TemplateActionDefinition Expr Field)
    (evaluatedArgs : Arguments Value) : RunM Value Fault (Arguments Value) :=
  if definition.expects.isEmpty then pure evaluatedArgs
  else
    Logged.ofExcept (.validation definition.action)
      (services.validate definition.expects evaluatedArgs)

/-- `_execute_template_action`, given `_invoke_step`; `env` is `ENV` of the execution context
of the input. -/
def executeTemplate (env : Option Value)
    (invokeStep : ResolvedContext Expr Field Value → RunM Value Fault Value)
    (definition : TemplateActionDefinition Expr Field)
    (resolved : ResolvedContext Expr Field Value) : RunM Value Fault Value := do
  let inputs ← validatedInputArgs services definition resolved.evaluatedArgs
  executeTemplateSteps services invokeStep definition resolved
    { secrets := resolved.secrets
      env := env.getD services.empty
      vars := resolved.variables_
      inputs := inputs
      steps := [] }

/-- `backend.execute` and what `_invoke_step` makes of its result. -/
def backendExecute (resolved : ResolvedContext Expr Field Value) : RunM Value Fault Value := do
  Logged.tell (.udf resolved.actionName resolved.evaluatedArgs)
  Logged.ofExcept (fun fault => .execution resolved.actionName (.function fault))
    (services.call resolved.actionName resolved.evaluatedArgs)

/-- `_invoke_step`, on templates that are nested so deep. -/
def invokeStep (env : Option Value) :
    Nat → ResolvedContext Expr Field Value → RunM Value Fault Value
  | 0, _ => Logged.raise .unfinished
  | depth + 1, resolved =>
      match resolved.actionImpl with
      | .template definition => do
          Logged.tell (.template resolved.actionName)
          executeTemplate services env (invokeStep env depth) definition resolved
      | .udf => backendExecute services resolved

/-- `_execute_template_action`. -/
def executeTemplateAction (depth : Nat) (env : Option Value)
    (definition : TemplateActionDefinition Expr Field)
    (resolved : ResolvedContext Expr Field Value) : RunM Value Fault Value :=
  executeTemplate services env (invokeStep services env depth) definition resolved

end Templates
end Tracecat
