import Mathlib.Data.List.Dedup
import Mathlib.Data.List.Sort
import Mathlib.Data.Rat.Defs
import Mathlib.Data.String.Basic
import Tracecat.Lib.Search
import Tracecat.Dsl.Validation
import Tracecat.Workflow.Graph
import Tracecat.Workflow.Slug

/-!
# The editable draft of a workflow definition

`WorkflowsManagementService.create_actions_from_dsl` and
`_workflow_fields_from_dsl` write a definition into the rows of a workflow and
its actions, `build_dsl_from_workflow` reads it back.  Statements carry the
texts of their fields here; a reader of expressions says what references a text
holds, and gives the statement that validation works on.
-/

namespace Tracecat
namespace Workflow

/-! ## Statements -/

/-- `ActionInteraction`. -/
inductive ActionInteraction
  | response (timeout : Option Rat)
  | approval (timeout : Option Rat) (requiredApprovers : Int) (approverGroups : List String)
      (message : String) (approveIf : Option String)
  deriving DecidableEq, Repr

def ActionInteraction.texts : ActionInteraction → List String
  | response _ => []
  | approval _ _ approverGroups message approveIf => approverGroups ++ message :: approveIf.toList

/-- `ActionRetryPolicy`. -/
structure ActionRetryPolicy where
  maxAttempts : Int := 1
  timeout : Int := 300
  retryUntil : Option String := none
  deriving DecidableEq, Repr

/-- `for_each`: one expression, or a list of them. -/
inductive ForEach
  | one (expr : String)
  | many (exprs : List String)
  deriving DecidableEq, Repr

def ForEach.texts : ForEach → List String
  | one expr => [expr]
  | many exprs => exprs

/-- `bool(for_each)`. -/
def ForEach.truthy : ForEach → Bool
  | one expr => expr ≠ ""
  | many exprs => exprs ≠ []

/-- `ACTION_TYPE_PATTERN`, which the actions with a constructor of their own match. -/
def matchesActionTypePattern : ActionType → Bool
  | .udf name => name ≠ "" && name.toList.all fun char => isRefChar char || char = '.'
  | _ => true

/-- `ActionStatement`. -/
structure ActionStatement (Args : Type) where
  ref : Ref
  description : String := ""
  action : ActionType
  args : Args
  dependsOn : List String := []
  interaction : Option ActionInteraction := none
  runIf : Option String := none
  forEach : Option ForEach := none
  retryPolicy : ActionRetryPolicy := {}
  startDelay : Rat := 0
  waitUntil : Option String := none
  joinStrategy : JoinStrategy := .all
  environment : Option String := none
  maskOutput : Bool := false

/-- `DSLConfig`, without the excluded `scheduler`. -/
structure DSLConfig where
  environment : String := "default"
  timeout : Rat := 0
  deriving DecidableEq, Repr

/-- `DSLInput`. -/
structure DSLInput (Args : Type) where
  title : String
  description : String
  expects : Option Json := none
  actions : List (ActionStatement Args)
  config : DSLConfig := {}
  returns : Option Json := none
  errorHandler : Option String := none

/-- What `extract_expressions` finds in a text, and what the argument models of
control flow read in an argument mapping. -/
structure ExpressionReader (Args : Type) where
  template : String → Template
  actionArgs : Args → ActionArgs

inductive DraftError
  /-- a pydantic `ValidationError`, with the fields that it names -/
  | invalidFields (model : String) (fields : List String)
  | invalidEdgeType (dep : String)
  | validation (message : String)
  | invalidDsl (error : DSLError)
  deriving DecidableEq, Repr

namespace ExpressionReader

variable {Args : Type} (reader : ExpressionReader Args)

/-- The references in several texts. -/
def templates (texts : List String) : Template :=
  ⟨texts.flatMap fun text => (reader.template text).refs⟩

end ExpressionReader

namespace ActionStatement

variable {Args : Type} (stmt : ActionStatement Args)

/-- The statement as control flow sees it. -/
def controlFlow (reader : ExpressionReader Args) : Tracecat.ActionStatement where
  ref := stmt.ref
  action := stmt.action
  args := reader.actionArgs stmt.args
  dependsOn := stmt.dependsOn
  description := reader.template stmt.description
  interaction := stmt.interaction.map fun interaction => reader.templates interaction.texts
  runIf := stmt.runIf.map reader.template
  forEach := stmt.forEach.map fun forEach => reader.templates forEach.texts
  retryUntil := stmt.retryPolicy.retryUntil.map reader.template
  waitUntil := stmt.waitUntil.map reader.template
  joinStrategy := stmt.joinStrategy
  environment := stmt.environment.map reader.template

def badFields : List String :=
  (if matchesSlugPattern stmt.ref then [] else ["ref"]) ++
  (if matchesActionTypePattern stmt.action then [] else ["action"])

/-- The validation of `ActionStatement`. -/
def validate : Except DraftError Unit :=
  if stmt.badFields ≠ [] then .error (.invalidFields "ActionStatement" stmt.badFields)
  else if stmt.interaction.isSome && (stmt.forEach.map ForEach.truthy).getD false then
    .error (.validation "Interaction is not allowed when for_each is provided.")
  else .ok ()

end ActionStatement

namespace DSLInput

variable {Args : Type} (dsl : DSLInput Args)

/-- The definition as control flow sees it. -/
def controlFlow (reader : ExpressionReader Args) : Tracecat.DSLInput :=
  ⟨dsl.actions.map fun stmt => stmt.controlFlow reader⟩

/-- `DSLInput(...)`: the model validator runs on the fields. -/
def construct (reader : ExpressionReader Args) : Except DraftError (DSLInput Args) :=
  match (dsl.controlFlow reader).validateStructure with
  | .error error => .error (.invalidDsl error)
  | .ok () => .ok dsl

/-- The definition passes validation. -/
structure Accepted (reader : ExpressionReader Args) : Prop where
  statements : ∀ stmt ∈ dsl.actions, stmt.validate = .ok ()
  structured : (dsl.controlFlow reader).Accepted

end DSLInput

/-! ## Rows -/

/-- `ActionControlFlow`. -/
structure ActionControlFlow where
  runIf : Option String := none
  forEach : Option ForEach := none
  joinStrategy : JoinStrategy := .all
  retryPolicy : ActionRetryPolicy := {}
  startDelay : Rat := 0
  waitUntil : Option String := none
  environment : Option String := none
  maskOutput : Bool := false
  deriving DecidableEq, Repr

/-- `max_length` of `run_if` and `for_each`. -/
def maxControlFlowLength : Nat := 1000

/-- `len(for_each)`. -/
def ForEach.length : ForEach → Nat
  | one expr => expr.length
  | many exprs => exprs.length

namespace ActionControlFlow

/-- The fields that fail their checks.  `parsesDate` tells which texts
`dateparser` reads a date in. -/
def badFields (parsesDate : String → Bool) (flow : ActionControlFlow) : List String :=
  (if (flow.runIf.map String.length).getD 0 ≤ maxControlFlowLength then [] else ["run_if"]) ++
  (if (flow.forEach.map ForEach.length).getD 0 ≤ maxControlFlowLength then [] else ["for_each"]) ++
  (if (flow.waitUntil.map parsesDate).getD true then [] else ["wait_until"])

/-- `ActionControlFlow.model_validate`. -/
def validate (parsesDate : String → Bool) (flow : ActionControlFlow) :
    Except DraftError ActionControlFlow :=
  match flow.badFields parsesDate with
  | [] => .ok flow
  | fields => .error (.invalidFields "ActionControlFlow" fields)

end ActionControlFlow

/-- An `Action` row: what the import writes and the build reads. -/
structure Action (Id : Type) where
  id : Id
  type : ActionType
  inputs : String
  title : String
  description : String
  controlFlow : ActionControlFlow
  isInteractive : Bool := false
  interaction : Option ActionInteraction := none
  upstreamEdges : List EdgeData := []

/-- `Action.ref`. -/
def Action.ref {Id : Type} (action : Action Id) : Ref :=
  slugify action.title

/-- The `Workflow` row, with its actions in the order in which the database
returns them. -/
structure Draft (Id : Type) where
  title : String
  description : String
  expects : Option Json
  returns : Option Json
  config : DSLConfig
  errorHandler : Option String
  actions : List (Action Id)

/-- `yaml.dump` and `_load_action_inputs_yaml`. -/
structure Yaml (Args : Type) where
  dump : Args → String
  /-- `none` for a document that is falsy; an error for a text that is not YAML, or where the
  statement has a document that is not a mapping -/
  load : String → Except DraftError (Option Args)
  empty : Args
  load_dump : ∀ args, (load (dump args)).map (fun loaded => loaded.getD empty) = .ok args

/-- `_load_action_inputs_yaml(inputs) or {}`. -/
def Yaml.loadInputs {Args : Type} (yaml : Yaml Args) (inputs : String) :
    Except DraftError Args :=
  (yaml.load inputs).map fun loaded => loaded.getD yaml.empty

/-- `uuid.UUID`: no text of a UUID is empty or names a trigger. -/
structure PyUuid (Id : Type) extends UuidText Id where
  parse_empty : parse "" = none
  parse_trigger : ∀ text, parse ("trigger-" ++ text) = none

/-! ## Import -/

section Import

variable {Id Args : Type} (uuid : PyUuid Id) (yaml : Yaml Args) (parsesDate : String → Bool)

/-- The control flow that an imported action stores. -/
def ActionStatement.storedControlFlow (stmt : ActionStatement Args) : ActionControlFlow where
  runIf := stmt.runIf
  forEach := stmt.forEach
  retryPolicy := stmt.retryPolicy
  startDelay := stmt.startDelay
  waitUntil := stmt.waitUntil
  joinStrategy := stmt.joinStrategy
  maskOutput := stmt.maskOutput

/-- `ActionEdge` from the action of a dependency. -/
def udfEdge (sourceId : Id) (type : EdgeType) : EdgeData where
  sourceId := .str (uuid.str sourceId)
  sourceType := .str "udf"
  sourceHandle := .str type.value

/-- `ActionEdge` from the trigger. -/
def triggerEdge (workflowId : Id) : EdgeData where
  sourceId := .str ("trigger-" ++ uuid.str workflowId)
  sourceType := .str "trigger"
  sourceHandle := .missing

namespace DSLInput

variable (dsl : DSLInput Args)

/-- `_workflow_fields_from_dsl`. -/
def workflowFieldsFromDsl (actions : List (Action Id)) : Draft Id where
  title := dsl.title
  description := dsl.description
  expects := dsl.expects
  returns := dsl.returns
  config := dsl.config
  errorHandler := dsl.errorHandler
  actions := actions

/-- The edge of one dependency.  `draw` is the UUID that `uuid4` returns for the
action of a ref, and `ref_to_action` holds the refs of the definition. -/
def edgeOfDep (draw : Ref → Id) (dep : String) : Except DraftError (Option EdgeData) :=
  match edgeComponentsFromDep dep with
  | none => .error (.invalidEdgeType dep)
  | some (src, type) =>
      if src ∈ dsl.actions.map ActionStatement.ref then
        .ok (some (udfEdge uuid (draw src) type))
      else .ok none

def upstreamEdges (draw : Ref → Id) (workflowId : Id) (stmt : ActionStatement Args) :
    Except DraftError (List EdgeData) :=
  if stmt.dependsOn.isEmpty then .ok [triggerEdge uuid workflowId]
  else do
    let edges ← stmt.dependsOn.mapM (dsl.edgeOfDep uuid draw)
    return edges.reduceOption

/-- The row of one action, before its edges are set. -/
def newAction (draw : Ref → Id) (stmt : ActionStatement Args) :
    Except DraftError (Action Id) := do
  let controlFlow ← stmt.storedControlFlow.validate parsesDate
  return {
    id := draw stmt.ref
    type := stmt.action
    inputs := yaml.dump stmt.args
    title := titleOfRef stmt.ref
    description := stmt.description
    controlFlow := controlFlow }

/-- The second loop: the edges of a row. -/
def setEdges (draw : Ref → Id) (workflowId : Id) (entry : ActionStatement Args × Action Id) :
    Except DraftError (Action Id) := do
  let edges ← dsl.upstreamEdges uuid draw workflowId entry.1
  return { entry.2 with upstreamEdges := edges }

/-- `create_actions_from_dsl`: all rows first, then their edges. -/
def createActionsFromDsl (draw : Ref → Id) (workflowId : Id) :
    Except DraftError (List (Action Id)) := do
  let actions ← dsl.actions.mapM (newAction yaml parsesDate draw)
  (dsl.actions.zip actions).mapM (dsl.setEdges uuid draw workflowId)

end DSLInput
end Import

/-! ## Build -/

/-- `UpstreamEdgeData`, once it is validated. -/
structure UpstreamEdgeData where
  sourceId : String
  sourceType : Option EdgeSourceType
  sourceHandle : Option EdgeHandle
  deriving DecidableEq, Repr

/-- A literal field that may be missing. -/
def validateLiteral {α : Type} (values : List (String × α)) :
    JsonField → Except Unit (Option α)
  | .missing => .ok none
  | .str value =>
      match values.find? fun entry => entry.1 = value with
      | some entry => .ok (some entry.2)
      | none => .error ()
  | _ => .error ()

/-- `UpstreamEdgeDataValidator.validate_python`. -/
def validateUpstreamEdge (edge : EdgeData) : Except DraftError UpstreamEdgeData :=
  match edge.sourceId,
      validateLiteral [("trigger", EdgeSourceType.trigger), ("udf", .udf)] edge.sourceType,
      validateLiteral [("success", EdgeHandle.success), ("error", .error)] edge.sourceHandle with
  | .str sourceId, .ok sourceType, .ok sourceHandle => .ok ⟨sourceId, sourceType, sourceHandle⟩
  | sourceId, sourceType, sourceHandle =>
      .error (.invalidFields "UpstreamEdgeData"
        ((match sourceId with | .str _ => [] | _ => ["source_id"]) ++
          (match sourceType with | .ok _ => [] | _ => ["source_type"]) ++
          (match sourceHandle with | .ok _ => [] | _ => ["source_handle"])))

/-- `dep_from_edge_components`. -/
def depFromEdgeComponents (srcRef : Ref) (type : EdgeType) : String :=
  srcRef ++ "." ++ type.value

section Build

variable {Id Args : Type} [DecidableEq Id] (uuid : PyUuid Id) (yaml : Yaml Args)
  (parsesDate : String → Bool)

namespace UpstreamEdgeData

variable (edge : UpstreamEdgeData)

/-- The edge makes its target a root: it comes from the trigger, in the present
or the legacy format. -/
def fromTrigger : Bool :=
  edge.sourceId ≠ "" &&
    (edge.sourceType = some .trigger ||
      (edge.sourceType = none && "trigger-".toList.isPrefixOf edge.sourceId.toList))

/-- The source that an edge adds to the adjacency. -/
def sourceAction? : Option Id :=
  if edge.sourceId = "" || edge.fromTrigger then none else uuid.parse edge.sourceId

end UpstreamEdgeData

/-- A row with its validated edges. -/
abbrev EdgedAction (Id : Type) : Type := Action Id × List UpstreamEdgeData

def validateEdges (action : Action Id) : Except DraftError (EdgedAction Id) := do
  let edges ← action.upstreamEdges.mapM validateUpstreamEdge
  return (action, edges)

/-- `trigger_roots`. -/
def triggerRoots (actions : List (EdgedAction Id)) : List Id :=
  ((actions.filter fun action => action.2.any UpstreamEdgeData.fromTrigger).map
    fun action => action.1.id).dedup

/-- `adjacency.get(source_id, set())`. -/
def adjacentActionIds (actions : List (EdgedAction Id)) (sourceId : Id) : List Id :=
  (actions.filter fun action =>
    (actions.map fun action => action.1.id).contains sourceId &&
      action.2.any fun edge => edge.sourceAction? uuid = some sourceId).map
    fun action => action.1.id

/-- `get_reachable_action_ids`. -/
def reachableActionIds (actions : List (EdgedAction Id)) : List Id :=
  let ids := actions.map fun action => action.1.id
  let roots := triggerRoots actions
  if roots.isEmpty then ids
  else Search.flood (adjacentActionIds uuid actions) ids.length roots roots

/-- The dependency that one edge adds. -/
def dependencyOf (actions : List (EdgedAction Id)) (reachable : List Id)
    (edge : UpstreamEdgeData) : Option String :=
  if edge.sourceId = "" then none
  else do
    let sourceId ← uuid.parse edge.sourceId
    let source ← actions.find? fun action => action.1.id = sourceId
    if sourceId ∈ reachable then
      if edge.sourceHandle = some .error then
        some (depFromEdgeComponents source.1.ref .error)
      else some source.1.ref
    else none

/-- The `ActionStatement(...)` of one row. -/
def statementOfRow (actions : List (EdgedAction Id)) (reachable : List Id)
    (action : EdgedAction Id) (controlFlow : ActionControlFlow) (args : Args) :
    ActionStatement Args where
  ref := action.1.ref
  action := action.1.type
  args := args
  dependsOn := (action.2.filterMap (dependencyOf uuid actions reachable)).insertionSort
    fun dep dep' => dep ≤ dep'
  runIf := controlFlow.runIf
  forEach := controlFlow.forEach
  retryPolicy := controlFlow.retryPolicy
  startDelay := controlFlow.startDelay
  waitUntil := controlFlow.waitUntil
  joinStrategy := controlFlow.joinStrategy
  interaction := if action.1.isInteractive then action.1.interaction else none
  environment := controlFlow.environment
  maskOutput := controlFlow.maskOutput

/-- One turn of the loop over the rows. -/
def buildActionStatement (actions : List (EdgedAction Id)) (reachable : List Id)
    (action : EdgedAction Id) : Except DraftError (ActionStatement Args) := do
  let controlFlow ← action.1.controlFlow.validate parsesDate
  let args ← yaml.loadInputs action.1.inputs
  let stmt := statementOfRow uuid actions reachable action controlFlow args
  stmt.validate
  return stmt

/-- `build_action_statements_from_actions`. -/
def buildActionStatementsFromActions (actions : List (Action Id)) :
    Except DraftError (List (ActionStatement Args)) := do
  let edged ← actions.mapM validateEdges
  let reachable := reachableActionIds uuid edged
  (edged.filter fun action => action.1.id ∈ reachable).mapM
    (buildActionStatement uuid yaml parsesDate edged reachable)

/-- `build_dsl_from_workflow`. -/
def buildDslFromWorkflow (reader : ExpressionReader Args) (workflow : Draft Id) :
    Except DraftError (DSLInput Args) :=
  if workflow.actions.isEmpty then
    .error (.validation
      "Workflow has no actions. Please add an action to the workflow before saving.")
  else do
    let actions ← buildActionStatementsFromActions uuid yaml parsesDate workflow.actions
    let dsl : DSLInput Args :=
      { title := workflow.title
        description := workflow.description
        expects := workflow.expects
        actions := actions
        config := workflow.config
        returns := workflow.returns
        errorHandler := workflow.errorHandler }
    dsl.construct reader

end Build
end Workflow
end Tracecat
