import Tracecat.Lib.Assoc
import Tracecat.Sync.Mappings

/-!
# References to child workflows

The rewriting of child workflow ids in `workspace_sync/workflow.py`: local ids become
source ids on export, and source ids become local ids on import.
-/

namespace Tracecat
namespace Sync

/-- An argument of an action: a text, or a value of another type. -/
inductive ArgValue (ν : Type)
  | text (text : String)
  | other (value : ν)
  deriving DecidableEq, Repr

/-- `ActionStatement`, with the fields that no reference is in. -/
structure ActionSpec (ρ ν : Type) where
  action : String
  args : List (String × ArgValue ν)
  fields : ρ
  deriving DecidableEq, Repr

/-- `DSLInput`, with the fields besides its actions. -/
structure DefinitionSpec (δ ρ ν : Type) where
  actions : List (ActionSpec ρ ν)
  fields : δ
  deriving DecidableEq, Repr

/-- `WorkflowResourceSpec`; the triggers are its schedules, webhook and case trigger. -/
structure WorkflowSpec (τ δ ρ ν : Type) where
  id : String
  alias_ : Option String
  folderPath : Option String
  tags : Option (List String)
  triggers : τ
  definition : DefinitionSpec δ ρ ν
  deriving DecidableEq, Repr

/-- `RemoteWorkflowDefinition`. -/
structure RemoteDefinition (τ δ ρ ν : Type) where
  id : String
  alias_ : Option String
  folderPath : Option String
  tags : Option (List String)
  triggers : τ
  definition : DefinitionSpec δ ρ ν
  deriving DecidableEq, Repr

/-- `PlatformAction.CHILD_WORKFLOW_EXECUTE`. -/
def childWorkflowExecute : String := "core.workflow.execute"

variable {τ δ ρ ν : Type}

/-- The text that an action names its child workflow with. -/
def ActionSpec.childReference (action : ActionSpec ρ ν) : Option String :=
  if action.action ≠ childWorkflowExecute then none
  else
    match action.args.lookup "workflow_id" with
    | some (.text workflowId) => some workflowId
    | some (.other _) | none => none

/-- `{**action.args, "workflow_id": reference}`. -/
def ActionSpec.withReference (action : ActionSpec ρ ν) (reference : String) : ActionSpec ρ ν :=
  { action with args := Assoc.set "workflow_id" (.text reference) action.args }

/-- The action with its reference rewritten, where it has one that resolves. -/
def rewriteAction (resolve : String → Option String) (action : ActionSpec ρ ν) :
    Option (ActionSpec ρ ν) :=
  (action.childReference.bind resolve).map action.withReference

/-- The loop over the actions, which leaves the definition as it is where no action changes. -/
def rewriteDefinition (resolve : String → Option String) (definition : DefinitionSpec δ ρ ν) :
    DefinitionSpec δ ρ ν :=
  let changed := definition.actions.any fun action => (rewriteAction resolve action).isSome
  if !changed then definition
  else
    { definition with
      actions := definition.actions.map fun action => (rewriteAction resolve action).getD action }

/-! ## Export -/

/-- `_normalized_source_workflow_ids`. -/
def normalizedSourceWorkflowIds (sourceWorkflowIds : List (WorkflowUUID × String)) :
    List (String × String) :=
  Assoc.ofPairs (sourceWorkflowIds.flatMap fun entry =>
    [(entry.1.str, entry.2), (entry.1.short, entry.2)])

/-- `value` where the text is not empty. -/
def truthy (value : Option String) : Option String :=
  value.filter (· ≠ "")

/-- `_source_workflow_id_for_reference`. -/
def sourceWorkflowIdForReference (workflowId : String)
    (sourceWorkflowIds : List (String × String)) : Option String :=
  match truthy (sourceWorkflowIds.lookup workflowId) with
  | some sourceId => some sourceId
  | none =>
      match WorkflowUUID.new workflowId with
      | none => none
      | some localId =>
          (truthy (sourceWorkflowIds.lookup localId.short)).or
            (sourceWorkflowIds.lookup localId.str)

/-- `_definition_with_source_workflow_ids`. -/
def definitionWithSourceWorkflowIds (definition : DefinitionSpec δ ρ ν)
    (sourceWorkflowIds : List (WorkflowUUID × String)) : DefinitionSpec δ ρ ν :=
  rewriteDefinition (fun workflowId => sourceWorkflowIdForReference workflowId
    (normalizedSourceWorkflowIds sourceWorkflowIds)) definition

/-- `workflow_spec_with_source_workflow_ids`. -/
def workflowSpecWithSourceWorkflowIds (spec : WorkflowSpec τ δ ρ ν)
    (sourceWorkflowIds : List (WorkflowUUID × String)) : WorkflowSpec τ δ ρ ν :=
  { spec with definition := definitionWithSourceWorkflowIds spec.definition sourceWorkflowIds }

/-! ## Import -/

/-- What a source id is indexed by: itself, and the short text of the id that it reads as. -/
def indexedBy (entry : String × WorkflowUUID) : List (String × WorkflowUUID) :=
  (entry.1, entry.2) ::
    match WorkflowUUID.new entry.1 with
    | some id => [(id.short, entry.2)]
    | none => []

/-- `_normalized_workflow_ids`. -/
def normalizedWorkflowIds (localWorkflowIds : List (String × WorkflowUUID)) :
    List (String × WorkflowUUID) :=
  Assoc.ofPairs (localWorkflowIds.flatMap indexedBy)

/-- `_local_workflow_id_for_reference`. -/
def localWorkflowIdForReference (workflowId : String)
    (localWorkflowIds : List (String × WorkflowUUID)) : Option WorkflowUUID :=
  match localWorkflowIds.lookup workflowId with
  | some localId => some localId
  | none =>
      match WorkflowUUID.new workflowId with
      | none => none
      | some id => localWorkflowIds.lookup id.short

/-- `_definition_with_local_workflow_ids`. -/
def definitionWithLocalWorkflowIds (definition : DefinitionSpec δ ρ ν)
    (localWorkflowIds : List (String × WorkflowUUID)) : DefinitionSpec δ ρ ν :=
  rewriteDefinition (fun workflowId => (localWorkflowIdForReference workflowId
    (normalizedWorkflowIds localWorkflowIds)).map WorkflowUUID.short) definition

/-- `workflow_spec_to_remote`. -/
def workflowSpecToRemote (spec : WorkflowSpec τ δ ρ ν) (localWorkflowId : WorkflowUUID)
    (localWorkflowIds : List (String × WorkflowUUID)) : RemoteDefinition τ δ ρ ν where
  id := localWorkflowId.short
  alias_ := spec.alias_
  folderPath := spec.folderPath
  tags := spec.tags
  triggers := spec.triggers
  definition :=
    if localWorkflowIds.isEmpty then spec.definition
    else definitionWithLocalWorkflowIds spec.definition localWorkflowIds

end Sync
end Tracecat
