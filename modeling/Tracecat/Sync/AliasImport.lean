import Mathlib.Data.List.Dedup
import Mathlib.Data.List.Sort
import Tracecat.Lib.Assoc
import Tracecat.Lib.Checks
import Tracecat.Lib.Fresh
import Tracecat.Lib.Logged
import Tracecat.Sync.Mappings

/-!
# Aliases in an import of workflows

`import_workflows` of `WorkflowImportService` (`workflow/store/import_service.py`), as far
as it writes aliases.  The aliases that change are parked under temporary names and then
given out one workflow after another.  Each row that is flushed is checked against the
unique constraint of the workspace; what is logged are the tables that are flushed.
-/

namespace Tracecat
namespace Sync

/-- A row of `workflow` of the workspace, with its alias. -/
structure WorkflowRow where
  id : WorkflowUUID
  alias_ : Option String
  deriving DecidableEq, Repr

abbrev Table : Type := List WorkflowRow

/-- `RemoteWorkflowDefinition` with its identifier read. -/
structure RemoteWorkflow where
  id : WorkflowUUID
  alias_ : Option String
  deriving DecidableEq, Repr

/-- `uq_workflow_alias_workspace_id`; aliases that are `NULL` do not meet. -/
def UniqueAliases (rows : Table) : Prop := (rows.filterMap WorkflowRow.alias_).Nodup

instance (rows : Table) : Decidable (UniqueAliases rows) :=
  inferInstanceAs (Decidable (List.Nodup _))

/-- The `ValueError`s of the import, and the `IntegrityError` of a flush. -/
inductive ImportError
  | duplicateAliases (aliases : List String)
  | aliasInUse (alias_ : String)
  | integrity
  deriving DecidableEq, Repr

/-- `str(error)`, with `repr` of a text. -/
def ImportError.message (repr : String → String) : ImportError → String
  | duplicateAliases aliases =>
      "Workflow import specs must have unique aliases: " ++ ", ".intercalate (aliases.map repr)
  | aliasInUse alias_ => "Workflow alias " ++ repr alias_ ++ " is already used by another workflow."
  | integrity => "duplicate key value violates unique constraint uq_workflow_alias_workspace_id"

/-- Code of the import: it changes the table, and every flush of a row is logged. -/
abbrev ImportM (α : Type) : Type := Logged Table Table ImportError α

def flushRow (change : Table → Table) : ImportM Unit := fun rows =>
  ⟨if UniqueAliases (change rows) then .ok () else .error .integrity, [change rows],
    if UniqueAliases (change rows) then change rows else rows⟩

/-- `UPDATE workflow SET alias`. -/
def updateAlias (id : WorkflowUUID) (alias_ : Option String) (rows : Table) : Table :=
  rows.map fun row => if row.id = id then { row with alias_ := alias_ } else row

/-! ## The release of aliases -/

/-- `_duplicates`, in the order in which values repeat. -/
def duplicates : List String → List String → List String
  | _, [] => []
  | seen, value :: values =>
      if value ∈ seen then value :: duplicates seen values else duplicates (value :: seen) values

/-- The names that `_unique_temporary_workflow_alias` tries. -/
def candidate (base : String) : Nat → String
  | 0 => base
  | suffix + 1 => Fresh.suffixed base "-" (suffix + 2)

/-- `_unique_temporary_workflow_alias`. -/
def uniqueTemporaryWorkflowAlias (id : WorkflowUUID) (reservedAliases : List String) : String :=
  Fresh.firstFree (candidate ("tracecat-sync-tmp-" ++ String.ofList id.hex))
    (· ∈ reservedAliases) 0 reservedAliases.length

/-- `target_aliases_by_id`. -/
def targetAliasesById (remoteWorkflows : List RemoteWorkflow) :
    List (WorkflowUUID × Option String) :=
  Assoc.ofPairs (remoteWorkflows.map fun remote => (remote.id, remote.alias_))

/-- `target_aliases_by_id[id]` for a workflow of the batch. -/
def targetAlias (targets : List (WorkflowUUID × Option String)) (id : WorkflowUUID) :
    Option String := (targets.lookup id).join

/-- The check of one workflow of the batch for a target that another one holds. -/
def checkConflict (targets : List (WorkflowUUID × Option String)) (rows : Table)
    (workflow : WorkflowRow) : Except ImportError Unit :=
  match targetAlias targets workflow.id with
  | none => .ok ()
  | some target =>
      if workflow.alias_ = some target then .ok ()
      else
        match rows.find? fun row => row.alias_ = some target ∧ row.id ≠ workflow.id with
        | none => .ok ()
        | some conflict =>
            if conflict.id ∉ targets.map Prod.fst ∨
                targetAlias targets conflict.id = some target then
              .error (.aliasInUse target)
            else .ok ()

def existingWorkflows (targets : List (WorkflowUUID × Option String)) (rows : Table) : Table :=
  rows.filter fun row => row.id ∈ targets.map Prod.fst

/-- The checks before anything changes. -/
def checkTargets (targets : List (WorkflowUUID × Option String)) (rows : Table) :
    Except ImportError Unit :=
  let duplicateAliases := (duplicates [] (targets.filterMap Prod.snd)).dedup.insertionSort (· ≤ ·)
  if duplicateAliases ≠ [] then .error (.duplicateAliases duplicateAliases)
  else (existingWorkflows targets rows).forM (checkConflict targets rows)

/-- `reserved_aliases`. -/
def reservedAliases (targets : List (WorkflowUUID × Option String)) (rows : Table) : List String :=
  rows.filterMap WorkflowRow.alias_ ++ targets.filterMap Prod.snd

/-- The temporary aliases of the workflows whose alias changes. -/
def parkedAliases (targets : List (WorkflowUUID × Option String)) :
    List String → Table → List (WorkflowUUID × String)
  | _, [] => []
  | reserved, workflow :: workflows =>
      if workflow.alias_ = targetAlias targets workflow.id then
        parkedAliases targets reserved workflows
      else
        let parked := uniqueTemporaryWorkflowAlias workflow.id reserved
        (workflow.id, parked) :: parkedAliases targets (parked :: reserved) workflows

/-- `_release_changing_workflow_aliases`. -/
def releaseChangingWorkflowAliases (remoteWorkflows : List RemoteWorkflow) : ImportM Unit := do
  let targets := targetAliasesById remoteWorkflows
  Logged.silent fun rows => (checkTargets targets rows, rows)
  let parked ← Logged.silent fun rows =>
    (.ok (parkedAliases targets (reservedAliases targets rows) (existingWorkflows targets rows)),
      rows)
  parked.forM fun entry => flushRow (updateAlias entry.1 (some entry.2))

/-! ## The import -/

/-- The alias of a workflow that `create_db_workflow_from_dsl` creates: the empty text
counts as none. -/
def createdAlias (alias_ : Option String) : Option String := alias_.filter (· ≠ "")

/-- The alias that a workflow of the batch gets: a new one takes the empty text for none. -/
def writtenAlias (before : Table) (remote : RemoteWorkflow) : Option String :=
  if remote.id ∈ before.map WorkflowRow.id then remote.alias_ else createdAlias remote.alias_

/-- `_import_single_workflow`, on the alias. -/
def importSingleWorkflow (remote : RemoteWorkflow) : ImportM Unit := do
  let exists_ ← Logged.silent fun rows => (.ok (rows.any fun row => row.id = remote.id), rows)
  if exists_ then flushRow (updateAlias remote.id remote.alias_)
  else flushRow (· ++ [⟨remote.id, createdAlias remote.alias_⟩])

/-- `import_workflows`. -/
def importWorkflows (remoteWorkflows : List RemoteWorkflow) : ImportM Unit := do
  releaseChangingWorkflowAliases remoteWorkflows
  remoteWorkflows.forM importSingleWorkflow

/-- The transaction around `import_workflows`: a failure rolls the table back. -/
def importTransaction (remoteWorkflows : List RemoteWorkflow) (rows : Table) :
    Except ImportError Unit × Table :=
  let run := importWorkflows remoteWorkflows rows
  match run.result with
  | .ok () => (.ok (), run.world)
  | .error error => (.error error, rows)

end Sync
end Tracecat
