import Tracecat.Dsl.Values
import Tracecat.Executor.Templates
import Tracecat.Lib.Acyclic

/-!
# The two executors of template actions

Both executors go through a template in the same way, step by step and template by template.
They differ in what a template without `expects` has as its inputs, and the backend also
refuses arguments that are not keyed by texts.  Where neither shows, they call the same
functions with the same arguments and end alike.
-/

namespace Tracecat
namespace Templates

variable {Expr Field Value Fault : Type} {services : Services Expr Field Value Fault}

/-! ## Agreement -/

/-- Neither run is cut off, or both are. -/
def BothEnd (error other : RunError Fault) : Prop := error = .unfinished ↔ other = .unfinished

/-- The runs call the same templates and functions with the same arguments, and return the
same value or both fail. -/
abbrev Agree (inProcess backend : RunM Value Fault Value) : Prop :=
  Logged.Alike BothEnd inProcess backend

/-- The run is not cut off. -/
def Finishes {α : Type} (run : RunM Value Fault α) : Prop :=
  ∀ world, (run world).result ≠ .error .unfinished

/-- A step of the first template runs the second one. -/
def RunsTemplate (services : Services Expr Field Value Fault)
    (definition nested : TemplateActionDefinition Expr Field) : Prop :=
  ∃ step ∈ definition.steps, services.load step.action = some (.template nested)

def inputsOf (services : Services Expr Field Value Fault)
    (definition : TemplateActionDefinition Expr Field) (args : Arguments Value) :
    Except Fault (Arguments Value) :=
  if definition.expects.isEmpty then .ok [] else services.validate definition.expects args

/-- The templates that a run enters, with their arguments: the program, and those of steps
whose arguments are evaluated on some results of the steps before. -/
inductive Entered (services : Services Expr Field Value Fault) (secrets env vars : Value)
    (root : TemplateActionDefinition Expr Field) (rootArgs : Arguments Value) :
    TemplateActionDefinition Expr Field → Arguments Value → Prop
  | program : Entered services secrets env vars root rootArgs root rootArgs
  | step {definition nested : TemplateActionDefinition Expr Field}
      {args inputs stepArgs : Arguments Value} {step : ActionStep Expr}
      {results : List (String × Value)} :
      Entered services secrets env vars root rootArgs definition args →
      inputsOf services definition args = .ok inputs → step ∈ definition.steps →
      services.evalArgs step.args ⟨secrets, env, vars, inputs, results⟩ = .ok stepArgs →
      services.load step.action = some (.template nested) →
      Entered services secrets env vars root rootArgs nested stepArgs

/-- The template evaluates the same on two inputs. -/
structure SameReading (services : Services Expr Field Value Fault)
    (definition : TemplateActionDefinition Expr Field) (context : TemplateExecutionContext Value)
    (inputs : Arguments Value) : Prop where
  args : ∀ step ∈ definition.steps, ∀ results,
    services.evalArgs step.args { context with inputs := inputs, steps := results } =
      services.evalArgs step.args { context with steps := results }
  returns : ∀ results,
    services.evalReturns definition.returns { context with inputs := inputs, steps := results } =
      services.evalReturns definition.returns { context with steps := results }

/-- Every template that the run enters has `expects`, or evaluates the same on its arguments
as on no inputs; and the evaluated arguments of every step are keyed by texts. -/
structure SameInputs (services : Services Expr Field Value Fault) (secrets env vars : Value)
    (root : TemplateActionDefinition Expr Field) (rootArgs : Arguments Value) : Prop where
  inputs : ∀ definition args, Entered services secrets env vars root rootArgs definition args →
    definition.expects = [] →
      SameReading services definition ⟨secrets, env, vars, [], []⟩ args
  texts : ∀ definition args, Entered services secrets env vars root rootArgs definition args →
    ∀ inputs, inputsOf services definition args = .ok inputs → ∀ step ∈ definition.steps,
      ∀ results stepArgs,
        services.evalArgs step.args ⟨secrets, env, vars, inputs, results⟩ = .ok stepArgs →
          ∀ entry ∈ stepArgs, services.isText entry.1 = true

/-! ## Steps -/

theorem BothEnd.refl (error : RunError Fault) : BothEnd error error := Iff.rfl

theorem BothEnd.inStep (action : String) (error other : RunError Fault)
    (hErrors : BothEnd error other) : BothEnd error (other.inStep action) := by
  cases other with
  | unfinished => exact hErrors
  | evaluation | validation | notBound | resolvedContext | function | execution =>
      refine ⟨fun hUnfinished => ?_, fun hInStep => ?_⟩
      · cases hErrors.mp hUnfinished
      · cases hInStep

theorem agree_ofExcept {α : Type} {error other : Fault → RunError Fault}
    (hErrors : ∀ fault, BothEnd (error fault) (other fault)) (outcome : Except Fault α) :
    Logged.Alike BothEnd
      (Logged.ofExcept error outcome : RunM Value Fault α) (Logged.ofExcept other outcome) := by
  cases outcome with
  | ok value => exact Logged.Alike.refl BothEnd.refl _
  | error fault => exact Logged.Alike.raise (hErrors fault)

theorem agree_function (action : String) (args : Arguments Value)
    (resolved : ResolvedContext Expr Field Value) (hName : resolved.actionName = action)
    (hArgs : resolved.evaluatedArgs = args) :
    Agree (runActionDirect services action args) (backendExecute services resolved) := by
  subst hName hArgs
  unfold runActionDirect backendExecute
  refine Logged.Alike.bind (Logged.Alike.refl BothEnd.refl _) fun _ => ?_
  exact agree_ofExcept (fun fault => by simp [BothEnd]) _

theorem agree_steps {runStep : String → ActionImplementation Expr Field → Arguments Value →
      TemplateExecutionContext Value → RunM Value Fault Value}
    {invoke : ResolvedContext Expr Field Value → RunM Value Fault Value}
    {definition : TemplateActionDefinition Expr Field}
    {resolved : ResolvedContext Expr Field Value} {context : TemplateExecutionContext Value}
    {inputs : Arguments Value} (hReading : SameReading services definition context inputs)
    (hSteps : ∀ step ∈ definition.steps, ∀ results args,
      services.evalArgs step.args { context with steps := results } = .ok args →
      (∀ entry ∈ args, services.isText entry.1 = true) ∧
      ∀ implementation, services.load step.action = some implementation →
        Agree (runStep step.action implementation args { context with steps := results })
          (invoke { resolved with
            actionName := step.action, actionImpl := implementation, evaluatedArgs := args })) :
    Agree (runTemplateSteps services runStep definition context)
      (executeTemplateSteps services invoke definition resolved
        { context with inputs := inputs }) := by
  unfold runTemplateSteps executeTemplateSteps
  refine Logged.Alike.bind (Logged.Alike.foldlM (fun results step hStep => ?_) _) fun results => ?_
  · simp only [hReading.args step hStep]
    cases hEval : services.evalArgs step.args { context with steps := results } with
    | error fault => exact Logged.Alike.refl BothEnd.refl _
    | ok args =>
        obtain ⟨hTexts, hRun⟩ := hSteps step hStep results args hEval
        have hAll : args.all (fun entry => services.isText entry.1) = true :=
          List.all_eq_true.mpr hTexts
        simp only [Logged.ofExcept_ok, Logged.pure_then, loadActionImpl, prepareStepContext]
        cases hLoad : services.load step.action with
        | none => exact Logged.Alike.refl BothEnd.refl _
        | some implementation =>
            simp only [Logged.pure_then, hAll, if_true]
            refine Logged.Alike.bind ?_ fun result => Logged.Alike.refl BothEnd.refl _
            exact (hRun implementation hLoad).mapError (BothEnd.inStep step.action)
  · rw [hReading.returns]
    exact agree_ofExcept (fun _ => Iff.rfl) _

/-! ## Templates -/

section Runs

variable {root : TemplateActionDefinition Expr Field} {rootArgs : Arguments Value}
  {secrets env vars : Value} (hSame : SameInputs services secrets env vars root rootArgs)
include hSame

/-- A template agrees when its steps do, on the inputs that it has in the process. -/
theorem agree_template {definition : TemplateActionDefinition Expr Field}
    {args : Arguments Value}
    (hEntered : Entered services secrets env vars root rootArgs definition args)
    {next next' : Arguments Value → RunM Value Fault Value}
    (hNext : ∀ inputs inputs', inputsOf services definition args = .ok inputs →
      SameReading services definition ⟨secrets, env, vars, inputs, []⟩ inputs' →
        Agree (next inputs) (next' inputs')) :
    Agree (validatedArgs services definition args >>= next)
      (validatedInputArgs services definition args >>= next') := by
  unfold validatedArgs validatedInputArgs
  by_cases hExpects : definition.expects = []
  · have hInputs : inputsOf services definition args = .ok [] := by simp [inputsOf, hExpects]
    simp only [hExpects, List.isEmpty_nil, if_true, Logged.pure_then]
    exact hNext [] args hInputs (hSame.inputs definition args hEntered hExpects)
  · have hSome : definition.expects.isEmpty = false := by simpa using hExpects
    have hInputs : inputsOf services definition args =
        services.validate definition.expects args := by simp [inputsOf, hSome]
    simp only [hSome, Bool.false_eq_true, if_false]
    cases hValid : services.validate definition.expects args with
    | error fault => exact Logged.Alike.refl BothEnd.refl _
    | ok inputs =>
        simp only [Logged.ofExcept_ok, Logged.pure_then]
        exact hNext inputs inputs (hInputs.trans hValid) ⟨fun _ _ _ => rfl, fun _ => rfl⟩

/-- What runs below a step agrees, by induction on how deep the templates are nested. -/
theorem agree_nested (depth : Nat) {definition : TemplateActionDefinition Expr Field}
    {args inputs stepArgs : Arguments Value}
    (hEntered : Entered services secrets env vars root rootArgs definition args)
    (hInputs : inputsOf services definition args = .ok inputs) {step : ActionStep Expr}
    (hStep : step ∈ definition.steps) {results : List (String × Value)}
    (hArgs : services.evalArgs step.args ⟨secrets, env, vars, inputs, results⟩ = .ok stepArgs)
    {implementation : ActionImplementation Expr Field}
    (hLoad : services.load step.action = some implementation) :
    Agree (runSingleTemplateStep services depth step.action implementation stepArgs
        ⟨secrets, env, vars, inputs, results⟩)
      (invokeStep services (some env) depth
        ⟨secrets, vars, step.action, implementation, stepArgs⟩) := by
  induction depth generalizing definition step args inputs stepArgs results implementation with
  | zero => exact Logged.Alike.raise Iff.rfl
  | succ depth ih =>
      cases implementation with
      | udf => exact agree_function step.action stepArgs _ rfl rfl
      | template nested =>
          have hNested := hEntered.step hInputs hStep hArgs hLoad
          refine Logged.Alike.bind (Logged.Alike.refl BothEnd.refl _) fun _ => ?_
          refine agree_template hSame hNested fun nestedInputs inputs' hNestedInputs hReading => ?_
          refine @agree_steps _ _ _ _ services _ _ nested _ ⟨secrets, env, vars, nestedInputs, []⟩
            inputs' hReading fun inner hInner innerResults innerArgs hEval => ⟨?_, ?_⟩
          · exact hSame.texts nested stepArgs hNested nestedInputs hNestedInputs inner hInner
              innerResults innerArgs hEval
          · intro innerImplementation hInnerLoad
            exact ih hNested hNestedInputs hInner hEval hInnerLoad

theorem agree_program (depth : Nat) :
    Agree
      (runTemplateAction services depth root rootArgs (some ⟨some secrets, some env, some vars⟩))
      (executeTemplateAction services depth (some env) root
        ⟨secrets, vars, root.action, .template root, rootArgs⟩) := by
  refine agree_template hSame .program fun inputs inputs' hInputs hReading => ?_
  refine @agree_steps _ _ _ _ services _ _ root _ ⟨secrets, env, vars, inputs, []⟩ inputs' hReading
    fun step hStep results args hEval => ⟨?_, ?_⟩
  · exact hSame.texts root rootArgs .program inputs hInputs step hStep results args hEval
  · intro implementation hLoad
    exact agree_nested hSame depth .program hInputs hStep hEval hLoad

end Runs

/-! ## The depth of templates -/

section Depth

variable {α β : Type}

theorem Finishes.bind {first : RunM Value Fault α} {rest : α → RunM Value Fault β}
    (hFirst : Finishes first) (hRest : ∀ value, Finishes (rest value)) :
    Finishes (first >>= rest) := by
  intro world
  cases hRun : first world with
  | mk result log next =>
      cases result with
      | error error =>
          rw [Logged.bind_error hRun]
          have hError := hFirst world
          rw [hRun] at hError
          simpa using hError
      | ok value =>
          rw [Logged.bind_ok hRun]
          exact hRest value next

theorem Finishes.foldlM {item : Type} {step : β → item → RunM Value Fault β} {items : List item}
    (hStep : ∀ state, ∀ entry ∈ items, Finishes (step state entry)) (start : β) :
    Finishes (items.foldlM step start) := by
  induction items generalizing start with
  | nil =>
      intro world hError
      cases hError
  | cons first rest ih =>
      rw [List.foldlM_cons]
      refine Finishes.bind (hStep start first (List.mem_cons_self ..)) fun state => ?_
      exact ih (fun other entry hEntry => hStep other entry (List.mem_cons_of_mem _ hEntry)) state

theorem finishes_pure (value : α) : Finishes (pure value : RunM Value Fault α) := by
  intro world hError
  cases hError

theorem finishes_ofExcept {fault : Fault → RunError Fault}
    (hFault : ∀ error, fault error ≠ .unfinished) (outcome : Except Fault α) :
    Finishes (Logged.ofExcept fault outcome : RunM Value Fault α) := by
  cases outcome with
  | ok value => exact finishes_pure value
  | error error =>
      intro world hError
      exact hFault error (Except.error.inj hError)

theorem finishes_steps {runStep : String → ActionImplementation Expr Field → Arguments Value →
      TemplateExecutionContext Value → RunM Value Fault Value}
    {definition : TemplateActionDefinition Expr Field} (context : TemplateExecutionContext Value)
    (hSteps : ∀ step ∈ definition.steps, ∀ implementation,
      services.load step.action = some implementation →
        ∀ args context, Finishes (runStep step.action implementation args context)) :
    Finishes (runTemplateSteps services runStep definition context) := by
  refine Finishes.bind (Finishes.foldlM (fun results step hStep => ?_) _) fun results => ?_
  · refine Finishes.bind (finishes_ofExcept (by simp) _) fun args => ?_
    unfold loadActionImpl
    cases hLoad : services.load step.action with
    | none =>
        intro world hError
        cases hError
    | some implementation =>
        simp only [Logged.pure_then]
        refine Finishes.bind (hSteps step hStep implementation hLoad args _) fun result => ?_
        exact finishes_pure _
  · exact finishes_ofExcept (by simp) _

theorem finishes_tell (entry : Invocation Value) :
    Finishes (Logged.tell entry : RunM Value Fault Unit) := by
  intro world hError
  cases hError

theorem finishes_validatedArgs (definition : TemplateActionDefinition Expr Field)
    (args : Arguments Value) : Finishes (validatedArgs services definition args) := by
  unfold validatedArgs
  split
  · exact finishes_pure _
  · exact finishes_ofExcept (by simp) _

/-- A step of a template from which no chain of so many templates starts is not cut off. -/
theorem finishes_single (depth : Nat) {definition : TemplateActionDefinition Expr Field}
    (hChain : ¬ Chain (RunsTemplate services) depth definition) {step : ActionStep Expr}
    (hStep : step ∈ definition.steps) {implementation : ActionImplementation Expr Field}
    (hLoad : services.load step.action = some implementation) (args : Arguments Value)
    (context : TemplateExecutionContext Value) :
    Finishes (runSingleTemplateStep services depth step.action implementation args context) := by
  induction depth generalizing definition step implementation args context with
  | zero => exact absurd (.nil definition) hChain
  | succ depth ih =>
      cases implementation with
      | udf =>
          refine Finishes.bind (finishes_tell _) fun _ => ?_
          exact finishes_ofExcept (by simp) _
      | template nested =>
          have hNested : ¬ Chain (RunsTemplate services) depth nested :=
            fun hRest => hChain (.cons ⟨step, hStep, hLoad⟩ hRest)
          refine Finishes.bind (finishes_tell _) fun _ => ?_
          refine Finishes.bind (finishes_validatedArgs nested args) fun inputs => ?_
          refine finishes_steps _ fun inner hInner innerImplementation hInnerLoad => ?_
          exact ih hNested hInner hInnerLoad

theorem finishes_program (depth : Nat) {definition : TemplateActionDefinition Expr Field}
    (hChain : ¬ Chain (RunsTemplate services) depth definition) (args : Arguments Value)
    (context : Option (ExecutionContext Value)) :
    Finishes (runTemplateAction services depth definition args context) := by
  refine Finishes.bind (finishes_validatedArgs definition args) fun inputs => ?_
  exact finishes_steps _ fun step hStep implementation hLoad =>
    finishes_single depth hChain hStep hLoad

theorem Finishes.of_agree {inProcess backend : RunM Value Fault Value}
    (hAgree : Agree inProcess backend) (hFinishes : Finishes inProcess) : Finishes backend := by
  intro world hUnfinished
  rcases (hAgree world).result with ⟨value, -, hOk⟩ | ⟨error, other, hError, hOther, hEnd⟩
  · rw [hUnfinished] at hOk
    cases hOk
  · rw [hUnfinished] at hOther
    cases hOther
    exact hFinishes world (hError.trans (congrArg _ (hEnd.mpr rfl)))

end Depth

/-- The executors agree unless a template without `expects` has arguments that it reads, or a
step arguments that are not keyed by texts.  With templates that are nested less deep, neither
run is cut off. -/
theorem templateExecutors_agree {root : TemplateActionDefinition Expr Field}
    {rootArgs : Arguments Value} {secrets env vars : Value}
    (hSame : SameInputs services secrets env vars root rootArgs) (depth : Nat) :
    Agree
        (runTemplateAction services depth root rootArgs (some ⟨some secrets, some env, some vars⟩))
        (executeTemplateAction services depth (some env) root
          ⟨secrets, vars, root.action, .template root, rootArgs⟩) ∧
      (¬ Chain (RunsTemplate services) depth root →
        Finishes (runTemplateAction services depth root rootArgs
          (some ⟨some secrets, some env, some vars⟩)) ∧
        Finishes (executeTemplateAction services depth (some env) root
          ⟨secrets, vars, root.action, .template root, rootArgs⟩)) := by
  have hAgree := agree_program hSame depth
  refine ⟨hAgree, fun hChain => ?_⟩
  have hFinishes := finishes_program depth hChain rootArgs (some ⟨some secrets, some env, some vars⟩)
  exact ⟨hFinishes, hFinishes.of_agree hAgree⟩

namespace Sample

/-- The value of an input, `None` if there is none. -/
def inputValue (inputs : Arguments Json) (name : String) : Json :=
  (inputs.findSome? fun entry =>
    match entry.1 with
    | .str key => if key = name then some entry.2 else none
    | _ => none).getD .null

/-- Arguments that are the inputs of these names, and a function that returns nothing. -/
def sampleServices (load : String →
    Option (ActionImplementation (List (String × String)) Unit)) :
    Services (List (String × String)) Unit Json String where
  evalArgs names context :=
    .ok (names.map fun entry => (.str entry.1, inputValue context.inputs entry.2))
  evalReturns _ _ := .ok .null
  validate _ args := .ok args
  load := load
  call _ _ := .ok .null
  taskResult result := .obj [("result", result)]
  empty := .obj []
  isText value := match value with
    | .str _ => true
    | _ => false

/-- A template that hands an input on to a function. -/
def template (expects : List (String × Unit)) :
    TemplateActionDefinition (List (String × String)) Unit where
  action := "testing.hand_on"
  expects := expects
  steps := [⟨"only", "core.transform.reshape", [("value", "x")]⟩]
  returns := []

def load : String → Option (ActionImplementation (List (String × String)) Unit)
  | "core.transform.reshape" => some .udf
  | _ => none

def args : Arguments Json := [(.str "x", .int 1)]

theorem sameInputs_expects :
    SameInputs (sampleServices load) .null .null .null (template [("x", ())]) args := by
  have hOnly : ∀ definition given, Entered (sampleServices load) .null .null .null
      (template [("x", ())]) args definition given → definition = template [("x", ())] := by
    intro definition given hEntered
    induction hEntered with
    | program => rfl
    | step _ _ hStep _ hLoad ih =>
        subst ih
        obtain rfl := List.mem_singleton.mp hStep
        cases hLoad
  constructor
  · intro definition given hEntered hExpects
    rw [hOnly definition given hEntered] at hExpects
    cases hExpects
  · intro definition given hEntered inputs hInputs step hStep results stepArgs hArgs entry hEntry
    cases hArgs
    obtain ⟨names, -, rfl⟩ := List.mem_map.mp hEntry
    rfl

theorem expects_agree :
    Agree
        (runTemplateAction (sampleServices load) 1 (template [("x", ())]) args
          (some ⟨some .null, some .null, some .null⟩))
        (executeTemplateAction (sampleServices load) 1 (some .null) (template [("x", ())])
          ⟨.null, .null, "testing.hand_on", .template (template [("x", ())]), args⟩) ∧
      (¬ Chain (RunsTemplate (sampleServices load)) 1 (template [("x", ())]) →
        Finishes (runTemplateAction (sampleServices load) 1 (template [("x", ())]) args
          (some ⟨some .null, some .null, some .null⟩)) ∧
        Finishes (executeTemplateAction (sampleServices load) 1 (some .null) (template [("x", ())])
          ⟨.null, .null, "testing.hand_on", .template (template [("x", ())]), args⟩)) :=
  templateExecutors_agree sameInputs_expects 1

/-- Without `expects` the function gets `None` in the process and the argument through a
backend. -/
theorem no_expects_disagree :
    ¬ Agree
        (runTemplateAction (sampleServices load) 1 (template []) args
          (some ⟨some .null, some .null, some .null⟩))
        (executeTemplateAction (sampleServices load) 1 (some .null) (template [])
          ⟨.null, .null, "testing.hand_on", .template (template []), args⟩) := by
  intro hAgree
  have hLog : [Invocation.udf "core.transform.reshape" [(Json.str "value", Json.null)]] =
      [.udf "core.transform.reshape" [(.str "value", .int 1)]] := (hAgree ()).log
  simp at hLog

end Sample

end Templates
end Tracecat
