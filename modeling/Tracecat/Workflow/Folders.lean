import Mathlib.Data.List.Nodup
import Tracecat.Lib.Sql

/-!
# Workflow folders

`WorkflowFolderService` (`workflow/management/folders/service.py`): folders as
rows with a materialized path, and the calls that create, rename, move and
delete them.  A database session is the committed rows and the rows as the
session sees them.  A call returns the session that it leaves with its result or
its error.
-/

namespace Tracecat
namespace Folders

/-- `uuid.UUID`, by its text. -/
abbrev UUID : Type := String

abbrev Text : Type := List Char

/-! ## Rows -/

/-- The columns of `workflow_folder`. -/
structure WorkflowFolder where
  id : UUID
  workspaceId : UUID
  name : Text
  path : Text
  deriving DecidableEq, Repr

/-- The columns of `workflow` that the folders refer to. -/
structure Workflow where
  id : UUID
  workspaceId : UUID
  folderId : Option UUID
  deriving DecidableEq, Repr

structure Database where
  folders : List WorkflowFolder
  workflows : List Workflow
  deriving DecidableEq, Repr

namespace Database

/-- The unique constraints of `workflow_folder`: `id`, and `path` in a
workspace. -/
def Constraints (db : Database) : Prop :=
  (db.folders.map WorkflowFolder.id).Nodup ∧
    (db.folders.map fun folder => (folder.workspaceId, folder.path)).Nodup

instance (db : Database) : Decidable db.Constraints :=
  inferInstanceAs (Decidable (_ ∧ _))

/-- `UPDATE workflow_folder` for the row of a folder. -/
def saveFolder (db : Database) (folder : WorkflowFolder) : Database :=
  { db with
    folders := db.folders.map fun row =>
      if row.id = folder.id then { row with name := folder.name, path := folder.path } else row }

/-- `DELETE FROM workflow_folder`.  The foreign key of `workflow` is
`ON DELETE CASCADE`, and so is the relationship of the mapped class. -/
def deleteFolders (db : Database) (doomed : WorkflowFolder → Bool) : Database where
  folders := db.folders.filter fun folder => !doomed folder
  workflows := db.workflows.filter fun workflow =>
    !(db.folders.any fun folder => doomed folder && workflow.folderId = some folder.id)

end Database

/-- A transaction: what is committed, and what the session has written on top
of it. -/
structure Session where
  committed : Database
  current : Database

namespace Session

def commit (session : Session) : Session where
  committed := session.current
  current := session.current

def rollback (session : Session) : Session where
  committed := session.committed
  current := session.committed

end Session

/-! ## Errors -/

/-- `WorkflowFolderErrorCode`. -/
inductive WorkflowFolderErrorCode
  | conflict
  | notFound
  | parentNotFound
  | invalid
  deriving DecidableEq, Repr

def WorkflowFolderErrorCode.value : WorkflowFolderErrorCode → String
  | conflict => "workflow_folder_conflict"
  | notFound => "workflow_folder_not_found"
  | parentNotFound => "workflow_folder_parent_not_found"
  | invalid => "workflow_folder_invalid"

/-- A `TracecatValidationError` with its code, or the `IntegrityError` of a
statement that the service does not guard. -/
inductive FolderError
  | validation (message : String) (code : WorkflowFolderErrorCode)
  | integrity
  deriving DecidableEq, Repr

/-! ## Names and paths -/

/-- `str.isspace` of one character. -/
def isSpace (char : Char) : Bool :=
  let code := char.toNat
  (9 ≤ code && code ≤ 13) || (28 ≤ code && code ≤ 32) || code = 0x85 || code = 0xa0 ||
    code = 0x1680 || (0x2000 ≤ code && code ≤ 0x200a) || code = 0x2028 || code = 0x2029 ||
    code = 0x202f || code = 0x205f || code = 0x3000

/-- `str.rstrip` with the characters to strip. -/
def rstrip (strips : Char → Bool) (text : Text) : Text :=
  (text.reverse.dropWhile strips).reverse

/-- `str.strip`. -/
def strip (text : Text) : Text :=
  rstrip isSpace (text.dropWhile isSpace)

theorem strip_of_visible {text : List Char} (hText : ∀ char ∈ text, isSpace char = false) :
    strip text = text := by
  have hDrop {other : List Char} (hOther : ∀ char ∈ other, isSpace char = false) :
      other.dropWhile isSpace = other := by
    cases other with
    | nil => rfl
    | cons char other =>
        rw [List.dropWhile_cons_of_neg]
        rw [hOther char List.mem_cons_self]
        exact Bool.false_ne_true
  unfold strip rstrip
  rw [hDrop hText, hDrop fun char hChar => hText char (List.mem_reverse.mp hChar),
    List.reverse_reverse]

/-- The head of `text.rpartition("/")`. -/
def rpartitionHead (text : Text) : Text :=
  ((text.reverse.dropWhile (· ≠ '/')).drop 1).reverse

/-- `_normalize_folder_path`. -/
def normalizeFolderPath (path : Text) : Text :=
  if path = [] ∨ path = ['/'] then ['/']
  else if ['/'] <:+ path then path
  else path ++ ['/']

/-- `_normalize_folder_name`. -/
def normalizeFolderName (name : Text) : Except FolderError Text :=
  let normalizedName := strip name
  if normalizedName = [] then
    .error (.validation "Folder name cannot be empty" .invalid)
  else if '/' ∈ normalizedName then
    .error (.validation "Folder name cannot contain slashes" .invalid)
  else .ok normalizedName

/-- `_get_parent_path`. -/
def getParentPath (path : Text) : Text :=
  let path := normalizeFolderPath path
  if path = ['/'] then ['/']
  else
    let parentPath := rpartitionHead (rstrip (· = '/') path)
    if parentPath = [] then ['/'] else parentPath ++ ['/']

/-- The path of a name in a folder, as each of the calls writes it. -/
def childPath (parentPath name : Text) : Text :=
  if parentPath ≠ ['/'] then parentPath ++ name ++ ['/'] else ['/'] ++ name ++ ['/']

namespace WorkflowFolderService

variable (workspaceId : UUID)

/-! ## Queries -/

/-- `get_folder`. -/
def getFolder (db : Database) (folderId : UUID) : Option WorkflowFolder :=
  db.folders.find? fun folder => folder.workspaceId = workspaceId ∧ folder.id = folderId

/-- `_folder_path_exists`. -/
def folderPathExists (db : Database) (path : Text) : Bool :=
  let path := normalizeFolderPath path
  db.folders.any fun folder => folder.workspaceId = workspaceId && folder.path = path

/-- The rows of the workspace below a path, as the statements select them. -/
def isDescendant (path : Text) (folder : WorkflowFolder) : Bool :=
  folder.workspaceId = workspaceId && Sql.startsWith path folder.path && folder.path ≠ path

/-- `_has_children`. -/
def hasChildren (db : Database) (path : Text) : Bool :=
  db.folders.any (isDescendant workspaceId (normalizeFolderPath path))

/-- `_has_workflows`. -/
def hasWorkflows (db : Database) (folderId : UUID) : Bool :=
  (db.workflows.filter fun workflow =>
    workflow.workspaceId = workspaceId ∧ workflow.folderId = some folderId).length > 0

/-! ## Writes -/

/-- `_write_folder_change`. -/
def writeFolderChange (conflictPath : Text) (commit : Bool) (session : Session) :
    Session × Except FolderError Unit :=
  if session.current.Constraints then
    (if commit then session.commit else session, .ok ())
  else
    (session.rollback, .error (.validation
      s!"Folder {String.ofList conflictPath} already exists" .conflict))

/-- The statement of `_update_descendant_paths` on one row. -/
def rewritePath (oldPath newPath : Text) (folder : WorkflowFolder) : WorkflowFolder :=
  if isDescendant workspaceId oldPath folder then
    { folder with path := newPath ++ folder.path.drop oldPath.length }
  else folder

/-- The unique constraint is not deferred: the rows are compared one by one, in
no fixed order, so a rewritten row may meet another before or after its turn. -/
def meetsRow (oldPath newPath : Text) (folders : List WorkflowFolder) : Bool :=
  folders.any fun folder =>
    isDescendant workspaceId oldPath folder && folders.any fun other =>
      let path := (rewritePath workspaceId oldPath newPath folder).path
      other.id ≠ folder.id && other.workspaceId = workspaceId &&
        (other.path = path || (rewritePath workspaceId oldPath newPath other).path = path)

/-- `_update_descendant_paths`.  The statement flushes the row of the folder
first; nothing here catches an `IntegrityError`. -/
def updateDescendantPaths (oldPath newPath : Text) (session : Session) :
    Session × Except FolderError Unit :=
  let oldPath := normalizeFolderPath oldPath
  let newPath := normalizeFolderPath newPath
  if ¬ session.current.Constraints then (session.rollback, .error .integrity)
  else if meetsRow workspaceId oldPath newPath session.current.folders then
    (session.rollback, .error .integrity)
  else
    ({ session with
        current :=
          { session.current with
            folders := session.current.folders.map (rewritePath workspaceId oldPath newPath) } },
      .ok ())

/-- The end of `rename_folder` and `move_folder`, from "Update this folder". -/
def applyFolderChange (folder : WorkflowFolder) (oldPath : Text) (session : Session) :
    Session × Except FolderError WorkflowFolder :=
  let session := { session with current := session.current.saveFolder folder }
  match
    if folder.path ≠ oldPath then
      updateDescendantPaths workspaceId oldPath folder.path session
    else (session, .ok ()) with
  | (session, .error error) => (session, .error error)
  | (session, .ok ()) =>
      match writeFolderChange folder.path true session with
      | (session, .error error) => (session, .error error)
      | (session, .ok ()) => (session, .ok folder)

/-! ## Calls -/

/-- `create_folder`.  `id` is the UUID that the row is given. -/
def createFolder (id : UUID) (name parentPath : Text) (commit : Bool) (session : Session) :
    Session × Except FolderError WorkflowFolder :=
  match normalizeFolderName name with
  | .error error => (session, .error error)
  | .ok normalizedName =>
      let parentPath := normalizeFolderPath parentPath
      if parentPath ≠ ['/'] ∧ folderPathExists workspaceId session.current parentPath = false then
        (session, .error (.validation
          s!"Parent path {String.ofList parentPath} not found" .parentNotFound))
      else
        let fullPath := childPath parentPath normalizedName
        if folderPathExists workspaceId session.current fullPath then
          (session, .error (.validation
            s!"Folder {String.ofList fullPath} already exists" .conflict))
        else
          let folder : WorkflowFolder :=
            { id := id, workspaceId := workspaceId, name := normalizedName, path := fullPath }
          let added : Session :=
            { session with
              current := { session.current with folders := session.current.folders ++ [folder] } }
          match writeFolderChange fullPath commit added with
          | (session, .error error) => (session, .error error)
          | (session, .ok ()) => (session, .ok folder)

/-- `rename_folder`. -/
def renameFolder (folderId : UUID) (newName : Text) (session : Session) :
    Session × Except FolderError WorkflowFolder :=
  match normalizeFolderName newName with
  | .error error => (session, .error error)
  | .ok normalizedName =>
      match getFolder workspaceId session.current folderId with
      | none => (session, .error (.validation s!"Folder {folderId} not found" .notFound))
      | some folder =>
          let newPath := childPath (getParentPath folder.path) normalizedName
          if newPath ≠ folder.path ∧ folderPathExists workspaceId session.current newPath then
            (session, .error (.validation
              s!"Folder {String.ofList newPath} already exists" .conflict))
          else
            applyFolderChange workspaceId { folder with name := normalizedName, path := newPath }
              folder.path session

/-- The destination of `move_folder`: the path of the new parent, or the reason
why it cannot be one. -/
def destination (db : Database) (folder : WorkflowFolder) : Option UUID → Except FolderError Text
  | none => .ok ['/']
  | some newParentId =>
      match getFolder workspaceId db newParentId with
      | none =>
          .error (.validation s!"Parent folder {newParentId} not found" .parentNotFound)
      | some newParent =>
          if folder.path = newParent.path then
            .error (.validation "Cannot make a folder its own child" .invalid)
          else if folder.path <+: newParent.path then
            .error (.validation "Cannot create cyclic folder structure" .invalid)
          else .ok newParent.path

/-- `move_folder`. -/
def moveFolder (folderId : UUID) (newParentId : Option UUID) (session : Session) :
    Session × Except FolderError WorkflowFolder :=
  match getFolder workspaceId session.current folderId with
  | none => (session, .error (.validation s!"Folder {folderId} not found" .notFound))
  | some folder =>
      match destination workspaceId session.current folder newParentId with
      | .error error => (session, .error error)
      | .ok newParentPath =>
          let newPath := childPath newParentPath folder.name
          if newPath ≠ folder.path ∧ folderPathExists workspaceId session.current newPath then
            (session, .error (.validation
              s!"Folder {String.ofList newPath} already exists" .conflict))
          else
            applyFolderChange workspaceId { folder with path := newPath } folder.path session

/-- `folder_ids`: the folders of a subtree. -/
def subtreeIds (path : Text) (db : Database) : List UUID :=
  (db.folders.filter fun folder =>
    folder.workspaceId = workspaceId && Sql.startsWith path folder.path).map WorkflowFolder.id

/-- `UPDATE workflow SET folder_id = NULL` on one row. -/
def leaveFolder (folderIds : List UUID) (workflow : Workflow) : Workflow :=
  if workflow.workspaceId = workspaceId ∧
      ∃ folderId ∈ folderIds, workflow.folderId = some folderId then
    { workflow with folderId := none }
  else workflow

/-- The two statements of a recursive deletion: the workflows of the subtree
leave their folders, then the folders below go. -/
def clearSubtree (path : Text) (db : Database) : Database :=
  let folderIds := subtreeIds workspaceId path db
  let detached : Database :=
    { db with workflows := db.workflows.map (leaveFolder workspaceId folderIds) }
  detached.deleteFolders (isDescendant workspaceId path)

/-- `delete_folder`. -/
def deleteFolder (folderId : UUID) (recursive : Bool) (session : Session) :
    Session × Except FolderError Unit :=
  match getFolder workspaceId session.current folderId with
  | none => (session, .error (.validation s!"Folder {folderId} not found" .notFound))
  | some folder =>
      if folder.path = ['/'] then
        (session, .error (.validation "Cannot delete root folder" .invalid))
      else if recursive = false ∧ (hasChildren workspaceId session.current folder.path ∨
          hasWorkflows workspaceId session.current folderId) then
        (session, .error (.validation
          "Folder is not empty. Please move or delete its contents first." .invalid))
      else
        let cleared :=
          if recursive then clearSubtree workspaceId folder.path session.current
          else session.current
        let deleted := cleared.deleteFolders fun row => row.id = folder.id
        ({ session with current := deleted }.commit, .ok ())

end WorkflowFolderService

/-! ## Sequences of calls -/

inductive FolderCall
  | createFolder (id : UUID) (name parentPath : Text) (commit : Bool)
  | renameFolder (folderId : UUID) (newName : Text)
  | moveFolder (folderId : UUID) (newParentId : Option UUID)
  | deleteFolder (folderId : UUID) (recursive : Bool)
  deriving DecidableEq, Repr

open WorkflowFolderService in
/-- The call in a workspace, and the folder that it returns. -/
def FolderCall.perform (workspaceId : UUID) (session : Session) :
    FolderCall → Session × Except FolderError (Option WorkflowFolder)
  | createFolder id name parentPath commit =>
      let (next, result) :=
        WorkflowFolderService.createFolder workspaceId id name parentPath commit session
      (next, result.map some)
  | renameFolder folderId newName =>
      let (next, result) := WorkflowFolderService.renameFolder workspaceId folderId newName session
      (next, result.map some)
  | moveFolder folderId newParentId =>
      let (next, result) := WorkflowFolderService.moveFolder workspaceId folderId newParentId session
      (next, result.map some)
  | deleteFolder folderId recursive =>
      let (next, result) := WorkflowFolderService.deleteFolder workspaceId folderId recursive session
      (next, result.map fun _ => none)

/-- The UUID of a created row is new. -/
def FolderCall.Fresh (session : Session) : FolderCall → Prop
  | createFolder id _ _ _ => ∀ folder ∈ session.current.folders, folder.id ≠ id
  | _ => True

instance (session : Session) : (folderCall : FolderCall) → Decidable (folderCall.Fresh session)
  | .createFolder id _ _ _ =>
      inferInstanceAs (Decidable (∀ folder ∈ session.current.folders, folder.id ≠ id))
  | .renameFolder .. | .moveFolder .. | .deleteFolder .. => inferInstanceAs (Decidable True)

/-- What happens in a workspace: a call, the end of a transaction that a call
has left open, and changes of the workflows by other services. -/
inductive FolderEvent
  | call (folderCall : FolderCall)
  | commit
  | rollback
  | workflows (rows : List Workflow)

inductive FolderStep (workspaceId : UUID) : Session → FolderEvent → Session → Prop
  | call {session : Session} (folderCall : FolderCall) (hFresh : folderCall.Fresh session) :
      FolderStep workspaceId session (.call folderCall)
        (folderCall.perform workspaceId session).1
  | commit {session : Session} : FolderStep workspaceId session .commit session.commit
  | rollback {session : Session} : FolderStep workspaceId session .rollback session.rollback
  | workflows {session : Session} (rows : List Workflow) :
      FolderStep workspaceId session (.workflows rows)
        { committed := { session.committed with workflows := rows }
          current := { session.current with workflows := rows } }

end Folders
end Tracecat
