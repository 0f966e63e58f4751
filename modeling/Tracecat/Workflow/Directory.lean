import Tracecat.Workflow.Folders

/-!
# Directory listings

`get_directory_items` of `WorkflowFolderService`: the folders and the workflows in a
folder.  The folders at the top are found by the slashes of their paths; those in a folder
have its path as a beginning, and are not matched by a pattern made of it.
-/

namespace Tracecat
namespace Folders

/-! ## Joined tables -/

/-- The columns of `workflow_definition` that a listing reads. -/
structure WorkflowDefinition where
  id : UUID
  workflowId : Option UUID
  version : Int
  deriving DecidableEq, Repr

/-- The columns of `case_trigger` that a listing reads. -/
structure CaseTrigger where
  workflowId : UUID
  status : String
  eventTypes : List String
  deriving DecidableEq, Repr

/-- The tables that workflows are joined with. -/
structure Joined where
  definitions : List WorkflowDefinition
  caseTriggers : List CaseTrigger

/-- `FolderDirectoryItem` or `WorkflowDirectoryItem`. -/
inductive DirectoryItem
  | folder (folder : WorkflowFolder) (numItems : Nat)
  | workflow (workflow : Workflow) (latestDefinition : Option (UUID × Int))
      (caseTriggerEventTypes : Option (List String))
  deriving DecidableEq, Repr

def DirectoryItem.folder? : DirectoryItem → Option WorkflowFolder
  | folder row _ => some row
  | workflow _ _ _ => none

def DirectoryItem.workflow? : DirectoryItem → Option Workflow
  | folder _ _ => none
  | workflow row _ _ => some row

/-- A `TracecatNotFoundError`. -/
structure NotFoundError where
  message : String
  deriving DecidableEq, Repr

namespace WorkflowFolderService

variable (workspaceId : UUID)

/-- `get_folder_by_path`. -/
def getFolderByPath (db : Database) (path : Text) : Option WorkflowFolder :=
  let path := normalizeFolderPath path
  db.folders.find? fun folder => folder.workspaceId = workspaceId ∧ folder.path = path

/-- `latest_defn_subq`: the largest version of the definitions of a workflow. -/
def latestVersion (definitions : List WorkflowDefinition) (workflowId : UUID) : Option Int :=
  ((definitions.filter fun definition =>
    definition.workflowId = some workflowId).map WorkflowDefinition.version).max?

/-- `workflow_statement`. -/
def selectWorkflows (db : Database) (joined : Joined) (folderId : Option UUID) :
    List ((Workflow × Option WorkflowDefinition) × Option CaseTrigger) :=
  let rows := db.workflows.filter fun workflow =>
    workflow.workspaceId = workspaceId ∧ workflow.folderId = folderId
  let withDefinitions := Sql.outerJoin rows joined.definitions fun workflow definition =>
    definition.workflowId = some workflow.id &&
      latestVersion joined.definitions workflow.id = some definition.version
  Sql.outerJoin withDefinitions joined.caseTriggers fun row trigger =>
    row.1.id = trigger.workflowId && trigger.status = "online"

/-- The path of a folder has exactly two slashes. -/
def isRootLevel (folder : WorkflowFolder) : Bool :=
  folder.workspaceId = workspaceId &&
    folder.path.length - (folder.path.filter (· ≠ '/')).length = 2

/-- A folder below a path that the pattern for nested folders does not match. -/
def isDirectChild (path : Text) (folder : WorkflowFolder) : Bool :=
  isDescendant workspaceId path folder &&
    !Sql.like '\\' (path ++ ['%', '/', '%', '/']) folder.path

/-- `folder_statement`. -/
def selectFolders (db : Database) (path : Text) : List WorkflowFolder :=
  if path = ['/'] then db.folders.filter (isRootLevel workspaceId)
  else db.folders.filter (isDirectChild workspaceId path)

def folderItem (db : Database) (folder : WorkflowFolder) : DirectoryItem :=
  .folder folder ((if hasChildren workspaceId db folder.path then 1 else 0) +
    if hasWorkflows workspaceId db folder.id then 1 else 0)

/-- The version 0 counts as no definition. -/
def workflowItem (row : (Workflow × Option WorkflowDefinition) × Option CaseTrigger) :
    DirectoryItem :=
  .workflow row.1.1
    ((row.1.2.filter fun definition => definition.version ≠ 0).map fun definition =>
      (definition.id, definition.version))
    (row.2.map CaseTrigger.eventTypes)

/-- `get_directory_items`. -/
def getDirectoryItems (db : Database) (joined : Joined) (path : Text) :
    Except NotFoundError (List DirectoryItem) :=
  let path := normalizeFolderPath path
  let items (folderId : Option UUID) : List DirectoryItem :=
    (selectFolders workspaceId db path).map (folderItem workspaceId db) ++
      (selectWorkflows workspaceId db joined folderId).map workflowItem
  if path = ['/'] then .ok (items none)
  else
    match getFolderByPath workspaceId db path with
    | none => .error ⟨s!"Folder {String.ofList path} not found"⟩
    | some folder => .ok (items (some folder.id))

end WorkflowFolderService

/-! ## Workflows that have a place -/

/-- Every workflow of the workspace is in no folder or in a folder of the workspace, as
the foreign key and the services that assign folders have it. -/
def Placed (workspaceId : UUID) (folders : List WorkflowFolder) (workflows : List Workflow) : Prop :=
  ∀ workflow ∈ workflows, workflow.workspaceId = workspaceId →
    ∀ folderId, workflow.folderId = some folderId →
      ∃ folder ∈ folders, folder.workspaceId = workspaceId ∧ folder.id = folderId

/-- A step at which other services leave the workflows placed. -/
structure PlacedStep (workspaceId : UUID) (session : Session) (event : FolderEvent)
    (next : Session) : Prop where
  step : FolderStep workspaceId session event next
  placed : ∀ rows, event = .workflows rows →
    Placed workspaceId session.current.folders rows ∧
      Placed workspaceId session.committed.folders rows

end Folders
end Tracecat
