import Tracecat.Properties.FolderTree
import Tracecat.Workflow.Directory

/-!
# What a directory listing shows

A listing shows the direct children of a folder, as long as the path of the folder, read
as a pattern, matches itself.  A backslash in a name is an escape character there, and the
folders below the children are shown too.
-/

namespace Tracecat
namespace Folders

open PathTree WorkflowFolderService

variable {workspaceId : UUID} {db : Database} {session : Session} {joined : Joined}

/-! ## Workflows keep their places -/

section Placed

/-- The workflows that a session shows and those that are committed are placed. -/
def PlacedSession (workspaceId : UUID) (session : Session) : Prop :=
  Placed workspaceId session.current.folders session.current.workflows ∧
    Placed workspaceId session.committed.folders session.committed.workflows

theorem Placed.mono {folders others : List WorkflowFolder} {workflows : List Workflow}
    (hPlaced : Placed workspaceId folders workflows)
    (hKept : ∀ folder ∈ folders, folder.workspaceId = workspaceId →
      ∃ other ∈ others, other.workspaceId = workspaceId ∧ other.id = folder.id) :
    Placed workspaceId others workflows := by
  intro workflow hWorkflow hOwn folderId hFolderId
  obtain ⟨folder, hFolder, hFolderOwn, rfl⟩ := hPlaced workflow hWorkflow hOwn folderId hFolderId
  exact hKept folder hFolder hFolderOwn

theorem Placed.map {folders : List WorkflowFolder} {workflows : List Workflow}
    (hPlaced : Placed workspaceId folders workflows) {change : WorkflowFolder → WorkflowFolder}
    (hId : ∀ folder, (change folder).id = folder.id)
    (hOwn : ∀ folder, (change folder).workspaceId = folder.workspaceId) :
    Placed workspaceId (folders.map change) workflows := by
  apply hPlaced.mono
  intro folder hFolder hFolderOwn
  exact ⟨change folder, List.mem_map_of_mem hFolder, (hOwn folder).trans hFolderOwn, hId folder⟩

theorem Placed.deleteFolders (hPlaced : Placed workspaceId db.folders db.workflows)
    (doomed : WorkflowFolder → Bool) :
    Placed workspaceId (db.deleteFolders doomed).folders (db.deleteFolders doomed).workflows := by
  intro workflow hWorkflow hOwn folderId hFolderId
  obtain ⟨hMem, hStays⟩ := List.mem_filter.mp hWorkflow
  obtain ⟨folder, hFolder, hFolderOwn, rfl⟩ := hPlaced workflow hMem hOwn folderId hFolderId
  refine ⟨folder, List.mem_filter.mpr ⟨hFolder, ?_⟩, hFolderOwn, rfl⟩
  cases hDoomed : doomed folder with
  | false => rfl
  | true =>
      have hGone : (db.folders.any fun folder => doomed folder &&
          decide (workflow.folderId = some folder.id)) = true := by
        rw [List.any_eq_true]
        exact ⟨folder, hFolder, by simp [hDoomed, hFolderId]⟩
      rw [hGone] at hStays
      cases hStays

theorem Placed.leaveFolder (hPlaced : Placed workspaceId db.folders db.workflows)
    (folderIds : List UUID) :
    Placed workspaceId db.folders
      (db.workflows.map (WorkflowFolderService.leaveFolder workspaceId folderIds)) := by
  intro workflow hWorkflow hOwn folderId hFolderId
  obtain ⟨row, hRow, rfl⟩ := List.mem_map.mp hWorkflow
  unfold WorkflowFolderService.leaveFolder at hOwn hFolderId
  split at hFolderId
  · cases hFolderId
  · rename_i hStays
    rw [if_neg hStays] at hOwn
    exact hPlaced row hRow hOwn folderId hFolderId

variable (hPlaced : PlacedSession workspaceId session)
include hPlaced

theorem PlacedSession.rollback :
    PlacedSession workspaceId session.rollback := ⟨hPlaced.2, hPlaced.2⟩

theorem PlacedSession.commit :
    PlacedSession workspaceId session.commit := ⟨hPlaced.1, hPlaced.1⟩

theorem PlacedSession.writeFolderChange (conflictPath : Text) (commit : Bool) :
    PlacedSession workspaceId
      (WorkflowFolderService.writeFolderChange conflictPath commit session).1 := by
  unfold WorkflowFolderService.writeFolderChange
  split
  · cases commit
    · exact hPlaced
    · exact hPlaced.commit
  · exact hPlaced.rollback

theorem PlacedSession.updateDescendantPaths (oldPath newPath : Text) :
    PlacedSession workspaceId
      (WorkflowFolderService.updateDescendantPaths workspaceId oldPath newPath session).1 := by
  unfold WorkflowFolderService.updateDescendantPaths
  simp only
  split
  · exact hPlaced.rollback
  · split
    · exact hPlaced.rollback
    · refine ⟨hPlaced.1.map (fun folder => ?_) (fun folder => ?_), hPlaced.2⟩
      · unfold rewritePath
        split <;> rfl
      · unfold rewritePath
        split <;> rfl

theorem PlacedSession.applyFolderChange (folder : WorkflowFolder) (oldPath : Text) :
    PlacedSession workspaceId
      (WorkflowFolderService.applyFolderChange workspaceId folder oldPath session).1 := by
  have hSaved : PlacedSession workspaceId
      { session with current := session.current.saveFolder folder } := by
    refine ⟨hPlaced.1.map (fun row => ?_) (fun row => ?_), hPlaced.2⟩
    · split <;> rfl
    · split <;> rfl
  have hUpdated : PlacedSession workspaceId
      (if folder.path ≠ oldPath then
          WorkflowFolderService.updateDescendantPaths workspaceId oldPath folder.path
            { session with current := session.current.saveFolder folder }
        else ({ session with current := session.current.saveFolder folder }, .ok ())).1 := by
    split
    · exact hSaved.updateDescendantPaths oldPath folder.path
    · exact hSaved
  unfold WorkflowFolderService.applyFolderChange
  simp only
  split
  · rename_i hRun
    rw [hRun] at hUpdated
    exact hUpdated
  · rename_i hRun
    rw [hRun] at hUpdated
    have hWritten := hUpdated.writeFolderChange folder.path true
    split
    · rename_i hWrite
      rw [hWrite] at hWritten
      exact hWritten
    · rename_i hWrite
      rw [hWrite] at hWritten
      exact hWritten

theorem PlacedSession.perform (folderCall : FolderCall) :
    PlacedSession workspaceId (folderCall.perform workspaceId session).1 := by
  cases folderCall with
  | createFolder id name parentPath commit =>
      change PlacedSession workspaceId
        (createFolder workspaceId id name parentPath commit session).1
      unfold createFolder
      split
      · exact hPlaced
      · simp only
        split
        · exact hPlaced
        · split
          · exact hPlaced
          · rename_i normalizedName _ _ _
            have hAdded : PlacedSession workspaceId
                { session with
                  current := { session.current with
                    folders := session.current.folders ++
                      [⟨id, workspaceId, normalizedName,
                        childPath (normalizeFolderPath parentPath) normalizedName⟩] } } :=
              ⟨hPlaced.1.mono fun folder hFolder hOwn =>
                ⟨folder, List.mem_append_left _ hFolder, hOwn, rfl⟩, hPlaced.2⟩
            have hWritten := hAdded.writeFolderChange
              (childPath (normalizeFolderPath parentPath) normalizedName) commit
            split
            · rename_i hWrite
              rw [hWrite] at hWritten
              exact hWritten
            · rename_i hWrite
              rw [hWrite] at hWritten
              exact hWritten
  | renameFolder folderId newName | moveFolder folderId newParentId =>
      simp only [FolderCall.perform, renameFolder, moveFolder]
      split
      · exact hPlaced
      · split
        · exact hPlaced
        · split
          · exact hPlaced
          · exact hPlaced.applyFolderChange _ _
  | deleteFolder folderId recursive =>
      change PlacedSession workspaceId (deleteFolder workspaceId folderId recursive session).1
      unfold deleteFolder
      split
      · exact hPlaced
      · split
        · exact hPlaced
        · split
          · exact hPlaced
          · rename_i folder _ _ _
            have hCleared : Placed workspaceId
                (if recursive = true then clearSubtree workspaceId folder.path session.current
                  else session.current).folders
                (if recursive = true then clearSubtree workspaceId folder.path session.current
                  else session.current).workflows := by
              split
              · exact Placed.deleteFolders (hPlaced.1.leaveFolder _) _
              · exact hPlaced.1
            exact ⟨hCleared.deleteFolders _, hCleared.deleteFolders _⟩

theorem placedSession_step {event : FolderEvent} {next : Session}
    (hStep : PlacedStep workspaceId session event next) : PlacedSession workspaceId next := by
  obtain ⟨hStep, hRows⟩ := hStep
  cases hStep with
  | call folderCall hFresh => exact hPlaced.perform folderCall
  | commit => exact hPlaced.commit
  | rollback => exact hPlaced.rollback
  | workflows rows => exact hRows rows rfl

end Placed

/-! ## Paths as patterns -/

section Patterns

/-- A path has a slash before each segment and one at the end. -/
theorem count_render {segments : List Text} (hPlain : Plain segments) :
    (render segments).count '/' = segments.length + 1 := by
  induction segments using List.reverseRecOn with
  | nil => rfl
  | append_singleton segments name ih =>
      obtain ⟨hSegments, hName⟩ := Plain.of_append hPlain
      have hSlashless : name.count '/' = 0 :=
        List.count_eq_zero.mpr (hName name List.mem_cons_self).2
      rw [render_concat, List.count_append, List.count_append, ih hSegments, hSlashless,
        List.length_append]
      rfl

theorem isRootLevel_iff {folder : WorkflowFolder} (hOwn : folder.workspaceId = workspaceId) :
    isRootLevel workspaceId folder = true ↔ folder.path.count '/' = 2 := by
  have hLength : folder.path.length =
      folder.path.count '/' + (folder.path.filter (· ≠ '/')).length := by
    rw [List.length_eq_countP_add_countP (· == '/'), List.count, List.countP_eq_length_filter]
    simp only [List.countP_eq_length_filter]
    congr 3
    funext char
    by_cases hChar : char = '/' <;> simp [hChar]
  rw [isRootLevel, Bool.and_eq_true, decide_eq_true_eq, decide_eq_true_eq]
  constructor
  · rintro ⟨-, hTwo⟩
    omega
  · intro hTwo
    exact ⟨hOwn, by omega⟩

theorem count_of_like {path text : Text}
    (hLike : Sql.like '\\' (path ++ ['%', '/', '%', '/']) text = true) :
    path.count '/' + 2 ≤ text.count '/' := by
  have hLe := Sql.count_literal_le '/' hLike
  rw [Sql.count_likeTokens (by decide) (by decide) (by decide), List.count_append] at hLe
  exact hLe

end Patterns

/-! ## The folders of a listing -/

section Children

/-- The root, or the path of a folder. -/
def Existing (workspaceId : UUID) (db : Database) (path : Text) : Prop :=
  path = ['/'] ∨ ∃ folder ∈ db.folders, folder.workspaceId = workspaceId ∧ folder.path = path

/-- The folders whose parent is at a path. -/
def children (workspaceId : UUID) (db : Database) (path : Text) : List WorkflowFolder :=
  db.folders.filter fun folder =>
    folder.workspaceId = workspaceId ∧ getParentPath folder.path = path

/-- Every folder that is not a child of a folder but lies below it is matched by the
pattern made of the folder's path. -/
def NestedMatch (workspaceId : UUID) (db : Database) : Prop :=
  ∀ folder ∈ db.folders, folder.workspaceId = workspaceId →
    ∀ nested ∈ db.folders, isDescendant workspaceId folder.path nested = true →
      getParentPath nested.path ≠ folder.path →
        Sql.like '\\' (folder.path ++ ['%', '/', '%', '/']) nested.path = true

variable (hTree : db.Materialized workspaceId)

include hTree

theorem selectFolders_root : selectFolders workspaceId db ['/'] = children workspaceId db ['/'] := by
  rw [selectFolders, if_pos rfl, children]
  apply List.filter_congr
  intro folder hFolder
  by_cases hOwn : folder.workspaceId = workspaceId
  · obtain ⟨parent, hPlain, hPath⟩ := hTree.rendered folder hFolder hOwn
    have hParent : getParentPath folder.path = render parent := hPath ▸ getParentPath_render hPlain
    rw [Bool.eq_iff_iff, isRootLevel_iff hOwn, decide_eq_true_eq, hParent, render_eq_root_iff,
      hPath, count_render hPlain, List.length_append, List.length_singleton,
      ← List.length_eq_zero_iff]
    constructor
    · intro hTwo
      exact ⟨hOwn, by omega⟩
    · rintro ⟨-, hZero⟩
      omega
  · simp [isRootLevel, hOwn]

/-- Without a backslash in the paths, what is nested matches. -/
theorem nestedMatch_of_noBackslash (hPlain : ∀ folder ∈ db.folders,
    folder.workspaceId = workspaceId → '\\' ∉ folder.path) : NestedMatch workspaceId db := by
  intro folder hFolder hOwn nested hNested hBelow hParent
  obtain ⟨hNestedOwn, hPrefix, hNe⟩ := isDescendant_iff.mp hBelow
  obtain ⟨above, hAbove, hPath⟩ := hTree.rendered folder hFolder hOwn
  obtain ⟨parent, hSegments, hNestedPath⟩ := hTree.rendered nested hNested hNestedOwn
  rw [hPath, hNestedPath, render_prefix_iff hAbove hSegments] at hPrefix
  rw [hNestedPath, getParentPath_render hSegments, hPath] at hParent
  rcases List.prefix_concat_iff.mp hPrefix with hSame | ⟨rest, rfl⟩
  · exact absurd (hNestedPath.trans (hSame ▸ hPath.symm)) hNe
  -- at least one segment stands between the folder and the last one
  cases rest with
  | nil => exact absurd (by rw [List.append_nil]) hParent
  | cons first rest =>
      obtain ⟨middle, hText⟩ : ∃ middle,
          nested.path = folder.path ++ (first ++ '/' :: (middle ++ ['/'])) := by
        refine ⟨(rest.flatMap fun segment => segment ++ ['/']) ++ nested.name, ?_⟩
        rw [hNestedPath, hPath, List.append_assoc, render_append]
        simp
      have hLast : Sql.matchTokens [.any, .literal '/'] (middle ++ ['/']) = true :=
        Sql.matchTokens_any (by decide) middle
      have hSlash : Sql.matchTokens [.literal '/', .any, .literal '/']
          ('/' :: (middle ++ ['/'])) = true := by
        rw [Sql.matchTokens, hLast]
        rfl
      have hTwo : Sql.matchTokens (Sql.likeTokens '\\' false ['%', '/', '%', '/'])
          (first ++ '/' :: (middle ++ ['/'])) = true := Sql.matchTokens_any hSlash first
      rw [hText]
      exact Sql.matchTokens_self (hPlain folder hFolder hOwn) hTwo

/-- A child is below its parent, and the pattern does not match it. -/
theorem isDirectChild_of_parent {folder child : WorkflowFolder} (hChild : child ∈ db.folders)
    (hOwn : child.workspaceId = workspaceId) (hParent : getParentPath child.path = folder.path) :
    isDirectChild workspaceId folder.path child = true := by
  obtain ⟨parent, hPlain, hPath⟩ := hTree.rendered child hChild hOwn
  have hFolder : folder.path = render parent :=
    hParent.symm.trans (hPath ▸ getParentPath_render hPlain)
  have hCount : child.path.count '/' = folder.path.count '/' + 1 := by
    rw [hPath, hFolder, count_render hPlain, count_render (Plain.of_append hPlain).1,
      List.length_append]
    rfl
  have hUnmatched : Sql.like '\\' (folder.path ++ ['%', '/', '%', '/']) child.path = false := by
    rw [Bool.eq_false_iff]
    intro hLike
    have hLe := count_of_like hLike
    omega
  rw [isDirectChild, hUnmatched, Bool.and_eq_true, isDescendant_iff]
  refine ⟨⟨hOwn, ?_, fun hEq => ?_⟩, rfl⟩
  · rw [hPath, hFolder, render_append]
    exact List.prefix_append _ _
  · rw [hEq] at hCount
    omega

theorem selectFolders_folder (hMatch : NestedMatch workspaceId db) {folder : WorkflowFolder}
    (hFolder : folder ∈ db.folders) (hOwn : folder.workspaceId = workspaceId) :
    selectFolders workspaceId db folder.path = children workspaceId db folder.path := by
  have hRoot : folder.path ≠ ['/'] := by
    obtain ⟨parent, -, hPath⟩ := hTree.rendered folder hFolder hOwn
    rw [hPath, ne_eq, render_eq_root_iff]
    simp
  rw [selectFolders, if_neg hRoot, children]
  apply List.filter_congr
  intro child hChild
  rw [Bool.eq_iff_iff, decide_eq_true_eq]
  constructor
  · intro hDirect
    rw [isDirectChild, Bool.and_eq_true] at hDirect
    refine ⟨(isDescendant_iff.mp hDirect.1).1, ?_⟩
    by_contra hParent
    rw [hMatch folder hFolder hOwn child hChild hDirect.1 hParent] at hDirect
    cases hDirect.2
  · rintro ⟨hChildOwn, hParent⟩
    exact isDirectChild_of_parent hTree hChild hChildOwn hParent

end Children

/-! ## Listings -/

/-- A workflow is assigned to the folder at a path, or to none at the root. -/
def AssignedAt (workspaceId : UUID) (db : Database) (path : Text) (workflow : Workflow) : Prop :=
  path = ['/'] ∧ workflow.folderId = none ∨
    ∃ folder ∈ db.folders, folder.workspaceId = workspaceId ∧ folder.path = path ∧
      workflow.folderId = some folder.id

/-- A listing of a path shows its children, each once, and its workflows. -/
structure ListsChildren (workspaceId : UUID) (db : Database) (path : Text)
    (items : List DirectoryItem) : Prop where
  folders : items.filterMap DirectoryItem.folder? = children workspaceId db path
  once : (items.filterMap DirectoryItem.folder?).Nodup
  workflows : ∀ workflow, workflow ∈ items.filterMap DirectoryItem.workflow? ↔
    workflow ∈ db.workflows ∧ workflow.workspaceId = workspaceId ∧
      AssignedAt workspaceId db path workflow

/-- An item is in the listing of a path. -/
def ShownAt {α : Type} (workspaceId : UUID) (db : Database) (joined : Joined)
    (select : DirectoryItem → Option α) (value : α) (path : Text) : Prop :=
  ∃ items, getDirectoryItems workspaceId db joined path = .ok items ∧
    value ∈ items.filterMap select

/-- The listings of a workspace: each shows what is directly at its path, and every folder
and every workflow is in exactly one of them. -/
structure DirectoryListings (workspaceId : UUID) (db : Database) (joined : Joined) : Prop where
  lists : ∀ path, Existing workspaceId db (normalizeFolderPath path) →
    ∃ items, getDirectoryItems workspaceId db joined path = .ok items ∧
      ListsChildren workspaceId db (normalizeFolderPath path) items
  oneFolder : ∀ folder ∈ db.folders, folder.workspaceId = workspaceId →
    ∃! path, Existing workspaceId db path ∧
      ShownAt workspaceId db joined DirectoryItem.folder? folder path
  oneWorkflow : ∀ workflow ∈ db.workflows, workflow.workspaceId = workspaceId →
    ∃! path, Existing workspaceId db path ∧
      ShownAt workspaceId db joined DirectoryItem.workflow? workflow path

section Listings

theorem folders_of_items (db : Database) (joined : Joined) (path : Text)
    (folderId : Option UUID) :
    ((selectFolders workspaceId db path).map (folderItem workspaceId db) ++
      (selectWorkflows workspaceId db joined folderId).map workflowItem).filterMap
        DirectoryItem.folder? = selectFolders workspaceId db path := by
  have hFolder : (fun folder => (folderItem workspaceId db folder).folder?) = some := rfl
  have hWorkflow : (fun row => (workflowItem row).folder?) = fun _ => none := rfl
  rw [List.filterMap_append, List.filterMap_map, List.filterMap_map]
  simp [hFolder, hWorkflow]

theorem mem_workflows_of_items (db : Database) (joined : Joined) (path : Text)
    (folderId : Option UUID) (workflow : Workflow) :
    workflow ∈ ((selectFolders workspaceId db path).map (folderItem workspaceId db) ++
      (selectWorkflows workspaceId db joined folderId).map workflowItem).filterMap
        DirectoryItem.workflow? ↔
      workflow ∈ db.workflows ∧ workflow.workspaceId = workspaceId ∧
        workflow.folderId = folderId := by
  have hFolder : (fun folder => (folderItem workspaceId db folder).workflow?) = fun _ => none := rfl
  have hWorkflow : (fun row => (workflowItem row).workflow?) = fun row => some row.1.1 := rfl
  rw [List.filterMap_append, List.filterMap_map, List.filterMap_map]
  simp only [Function.comp_def, hFolder, hWorkflow, List.filterMap_none, List.nil_append,
    List.filterMap_eq_map', List.mem_map, selectWorkflows]
  constructor
  · rintro ⟨⟨⟨row, definition⟩, trigger⟩, hMem, rfl⟩
    have hFirst := Sql.mem_outerJoin.mp ⟨trigger, hMem⟩
    have hRow := Sql.mem_outerJoin.mp ⟨definition, hFirst⟩
    simpa using List.mem_filter.mp hRow
  · rintro ⟨hMem, hOwn, hFolderId⟩
    have hRow : workflow ∈ db.workflows.filter fun workflow =>
        workflow.workspaceId = workspaceId ∧ workflow.folderId = folderId :=
      List.mem_filter.mpr ⟨hMem, decide_eq_true ⟨hOwn, hFolderId⟩⟩
    obtain ⟨definition, hFirst⟩ := Sql.mem_outerJoin.mpr hRow
    obtain ⟨trigger, hSecond⟩ := Sql.mem_outerJoin.mpr hFirst
    exact ⟨_, hSecond, rfl⟩

variable (hTree : db.Materialized workspaceId)

include hTree

theorem getFolderByPath_some {folder : WorkflowFolder} (hFolder : folder ∈ db.folders)
    (hOwn : folder.workspaceId = workspaceId) :
    getFolderByPath workspaceId db folder.path = some folder := by
  obtain ⟨segments, -, hPath⟩ := hTree.mem_nodes hFolder hOwn
  have hNormal : normalizeFolderPath folder.path = folder.path := by
    rw [hPath, normalizeFolderPath_render]
  unfold getFolderByPath
  simp only [hNormal]
  cases hFound : db.folders.find? fun row =>
      decide (row.workspaceId = workspaceId ∧ row.path = folder.path) with
  | none =>
      have hNot := List.find?_eq_none.mp hFound folder hFolder
      simp [hOwn] at hNot
  | some row =>
      have hKey := List.find?_some hFound
      rw [decide_eq_true_eq] at hKey
      rw [hTree.constraints.folder_eq (List.mem_of_find?_eq_some hFound) hFolder
        (hKey.1.trans hOwn.symm) hKey.2]

omit hTree in
theorem getDirectoryItems_root {path : Text} (hPath : normalizeFolderPath path = ['/']) :
    getDirectoryItems workspaceId db joined path =
      .ok ((selectFolders workspaceId db ['/']).map (folderItem workspaceId db) ++
        (selectWorkflows workspaceId db joined none).map workflowItem) := by
  unfold getDirectoryItems
  simp only [hPath, if_true]

theorem getDirectoryItems_folder {path : Text} {folder : WorkflowFolder}
    (hFolder : folder ∈ db.folders) (hOwn : folder.workspaceId = workspaceId)
    (hPath : normalizeFolderPath path = folder.path) :
    getDirectoryItems workspaceId db joined path =
      .ok ((selectFolders workspaceId db folder.path).map (folderItem workspaceId db) ++
        (selectWorkflows workspaceId db joined (some folder.id)).map workflowItem) := by
  have hRoot : folder.path ≠ ['/'] := by
    obtain ⟨parent, -, hRender⟩ := hTree.rendered folder hFolder hOwn
    rw [hRender, ne_eq, render_eq_root_iff]
    simp
  unfold getDirectoryItems
  simp only [hPath, if_neg hRoot, getFolderByPath_some hTree hFolder hOwn]

theorem listsChildren_of_match (joined : Joined) (hMatch : NestedMatch workspaceId db) {path : Text}
    (hExisting : Existing workspaceId db (normalizeFolderPath path)) :
    ∃ items, getDirectoryItems workspaceId db joined path = .ok items ∧
      ListsChildren workspaceId db (normalizeFolderPath path) items := by
  have hRows : db.folders.Nodup := List.Nodup.of_map _ hTree.constraints.1
  rcases hExisting with hRoot | ⟨folder, hFolder, hOwn, hPath⟩
  · refine ⟨_, getDirectoryItems_root hRoot, ?_⟩
    rw [hRoot]
    refine ⟨?_, ?_, fun workflow => ?_⟩
    · rw [folders_of_items, selectFolders_root hTree]
    · rw [folders_of_items, selectFolders_root hTree]
      exact hRows.filter _
    · rw [mem_workflows_of_items]
      refine and_congr_right fun _ => and_congr_right fun _ => ?_
      constructor
      · exact fun hNone => .inl ⟨rfl, hNone⟩
      · rintro (⟨-, hNone⟩ | ⟨folder, hFolder, hOwn, hAtRoot, -⟩)
        · exact hNone
        · obtain ⟨parent, -, hRender⟩ := hTree.rendered folder hFolder hOwn
          rw [hRender, render_eq_root_iff] at hAtRoot
          simp at hAtRoot
  · refine ⟨_, getDirectoryItems_folder hTree hFolder hOwn hPath.symm, ?_⟩
    rw [← hPath]
    refine ⟨?_, ?_, fun workflow => ?_⟩
    · rw [folders_of_items, selectFolders_folder hTree hMatch hFolder hOwn]
    · rw [folders_of_items, selectFolders_folder hTree hMatch hFolder hOwn]
      exact hRows.filter _
    · rw [mem_workflows_of_items]
      refine and_congr_right fun _ => and_congr_right fun _ => ?_
      constructor
      · exact fun hAssigned => .inr ⟨folder, hFolder, hOwn, rfl, hAssigned⟩
      · rintro (⟨hAtRoot, -⟩ | ⟨other, hOther, hOtherOwn, hSame, hAssigned⟩)
        · obtain ⟨parent, -, hRender⟩ := hTree.rendered folder hFolder hOwn
          rw [hRender, render_eq_root_iff] at hAtRoot
          simp at hAtRoot
        · rwa [hTree.constraints.folder_eq hOther hFolder (hOtherOwn.trans hOwn.symm) hSame]
            at hAssigned

theorem normalize_existing {path : Text} (hExisting : Existing workspaceId db path) :
    normalizeFolderPath path = path := by
  rcases hExisting with rfl | ⟨folder, hFolder, hOwn, rfl⟩
  · rfl
  · obtain ⟨segments, -, hPath⟩ := hTree.mem_nodes hFolder hOwn
    rw [hPath, normalizeFolderPath_render]

/-- Listings of children show every folder once and every placed workflow once. -/
theorem directoryListings_of_match (hMatch : NestedMatch workspaceId db)
    (hPlaced : Placed workspaceId db.folders db.workflows) :
    DirectoryListings workspaceId db joined := by
  have hLists : ∀ {path}, Existing workspaceId db path →
      ∃ items, getDirectoryItems workspaceId db joined path = .ok items ∧
        ListsChildren workspaceId db path items := by
    intro path hExisting
    have hNormal := normalize_existing hTree hExisting
    have hHere := listsChildren_of_match hTree joined hMatch
      (show Existing workspaceId db (normalizeFolderPath path) from hNormal.symm ▸ hExisting)
    rwa [hNormal] at hHere
  refine ⟨fun path hExisting => listsChildren_of_match hTree joined hMatch hExisting,
    fun folder hFolder hOwn => ?_, fun workflow hWorkflow hOwn => ?_⟩
  · have hParent : Existing workspaceId db (getParentPath folder.path) :=
      hTree.folderTree.parents folder hFolder hOwn
    refine ⟨getParentPath folder.path, ⟨hParent, ?_⟩, ?_⟩
    · obtain ⟨items, hItems, hChildren⟩ := hLists hParent
      refine ⟨items, hItems, ?_⟩
      rw [hChildren.folders]
      exact List.mem_filter.mpr ⟨hFolder, decide_eq_true ⟨hOwn, rfl⟩⟩
    · rintro path ⟨hExisting, items, hItems, hMem⟩
      obtain ⟨others, hOthers, hChildren⟩ := hLists hExisting
      cases hItems.symm.trans hOthers
      rw [hChildren.folders] at hMem
      have hBoth := (List.mem_filter.mp hMem).2
      rw [decide_eq_true_eq] at hBoth
      exact hBoth.2.symm
  · have hPlace : ∃ path, Existing workspaceId db path ∧
        AssignedAt workspaceId db path workflow := by
      cases hFolderId : workflow.folderId with
      | none => exact ⟨['/'], .inl rfl, .inl ⟨rfl, hFolderId⟩⟩
      | some folderId =>
          obtain ⟨folder, hFolder, hFolderOwn, hId⟩ := hPlaced workflow hWorkflow hOwn _ hFolderId
          exact ⟨folder.path, .inr ⟨folder, hFolder, hFolderOwn, rfl⟩,
            .inr ⟨folder, hFolder, hFolderOwn, rfl, by rw [hFolderId, hId]⟩⟩
    obtain ⟨path, hExisting, hAssigned⟩ := hPlace
    refine ⟨path, ⟨hExisting, ?_⟩, ?_⟩
    · obtain ⟨items, hItems, hChildren⟩ := hLists hExisting
      exact ⟨items, hItems, (hChildren.workflows workflow).mpr ⟨hWorkflow, hOwn, hAssigned⟩⟩
    · rintro other ⟨hOtherExisting, items, hItems, hMem⟩
      obtain ⟨others, hOthers, hChildren⟩ := hLists hOtherExisting
      cases hItems.symm.trans hOthers
      have hOtherAssigned := ((hChildren.workflows workflow).mp hMem).2.2
      rcases hAssigned with ⟨rfl, hNone⟩ | ⟨folder, hFolder, hFolderOwn, rfl, hSome⟩
      · rcases hOtherAssigned with ⟨rfl, -⟩ | ⟨_, _, _, _, hSome⟩
        · rfl
        · rw [hNone] at hSome
          cases hSome
      · rcases hOtherAssigned with ⟨-, hNone⟩ | ⟨row, hRow, -, rfl, hRowSome⟩
        · rw [hSome] at hNone
          cases hNone
        · rw [hSome] at hRowSome
          rw [hTree.constraints.folder_eq_of_id hFolder hRow (Option.some.inj hRowSome)]

/-- Without the match, a folder is listed that is not a child. -/
theorem match_of_directoryListings (hListings : DirectoryListings workspaceId db joined) :
    NestedMatch workspaceId db := by
  intro folder hFolder hOwn nested hNested hBelow hParent
  have hExisting : Existing workspaceId db folder.path := .inr ⟨folder, hFolder, hOwn, rfl⟩
  have hNormal := normalize_existing hTree hExisting
  obtain ⟨items, hItems, hChildren⟩ := hListings.lists folder.path (hNormal.symm ▸ hExisting)
  rw [getDirectoryItems_folder hTree hFolder hOwn hNormal] at hItems
  cases hItems
  have hFolders := hChildren.folders
  rw [folders_of_items, hNormal] at hFolders
  by_contra hUnmatched
  rw [Bool.not_eq_true] at hUnmatched
  have hShown : nested ∈ children workspaceId db folder.path := by
    have hRoot : folder.path ≠ ['/'] := by
      obtain ⟨parent, -, hRender⟩ := hTree.rendered folder hFolder hOwn
      rw [hRender, ne_eq, render_eq_root_iff]
      simp
    rw [← hFolders, selectFolders, if_neg hRoot]
    exact List.mem_filter.mpr ⟨hNested, by rw [isDirectChild, hBelow, hUnmatched]; rfl⟩
  have hBoth := (List.mem_filter.mp hShown).2
  rw [decide_eq_true_eq] at hBoth
  exact hParent hBoth.2

end Listings

/-- After every sequence of calls, the listings show the direct children of every path
exactly when what is nested below a folder matches the pattern made of its path. -/
theorem directoryListings_iff {start : Session} {events : List FolderEvent}
    (hCurrent : start.current.Empty workspaceId) (hCommitted : start.committed.Empty workspaceId)
    (hPlaced : PlacedSession workspaceId start)
    (hRun : Run (PlacedStep workspaceId) start events session) (joined : Joined) :
    DirectoryListings workspaceId session.current joined ↔
      NestedMatch workspaceId session.current := by
  have hInvariant := hRun.invariant
    (fun _ session => (session.current.Materialized workspaceId ∧
      session.committed.Materialized workspaceId) ∧ PlacedSession workspaceId session)
    ⟨⟨hCurrent.materialized, hCommitted.materialized⟩, hPlaced⟩ fun _ hBoth hStep =>
      ⟨materialized_step hBoth.1 hStep.step, placedSession_step hBoth.2 hStep⟩
  obtain ⟨⟨hTree, -⟩, hPlace, -⟩ := hInvariant
  exact ⟨match_of_directoryListings hTree, fun hMatch =>
    directoryListings_of_match hTree hMatch hPlace⟩

/-! ## A name with a backslash -/

/-- `a\\b`, `c` in it and `d` in that. -/
def backslashFolders : List WorkflowFolder :=
  [⟨"f1", "w", "a\\b".toList, "/a\\b/".toList⟩, ⟨"f2", "w", "c".toList, "/a\\b/c/".toList⟩,
    ⟨"f3", "w", "d".toList, "/a\\b/c/d/".toList⟩]

/-- The database with the first folders, after each call. -/
def backslashSession (folders : Nat) : Session where
  committed := ⟨backslashFolders.take folders, []⟩
  current := ⟨backslashFolders.take folders, []⟩

def backslashEvents : List FolderEvent :=
  [.call (.createFolder "f3" "d".toList "/a\\b/c/".toList true),
    .call (.createFolder "f2" "c".toList "/a\\b/".toList true),
    .call (.createFolder "f1" "a\\b".toList "/".toList true)]

theorem backslash_run :
    Run (PlacedStep "w") (backslashSession 0) backslashEvents (backslashSession 3) := by
  have hFirst : PlacedStep "w" (backslashSession 0)
      (.call (.createFolder "f1" "a\\b".toList "/".toList true)) (backslashSession 1) :=
    ⟨.call (.createFolder "f1" "a\\b".toList "/".toList true)
      (by simp [FolderCall.Fresh, backslashSession]), by simp⟩
  have hSecond : PlacedStep "w" (backslashSession 1)
      (.call (.createFolder "f2" "c".toList "/a\\b/".toList true)) (backslashSession 2) :=
    ⟨.call (.createFolder "f2" "c".toList "/a\\b/".toList true)
      (by simp [FolderCall.Fresh, backslashSession, backslashFolders]), by simp⟩
  have hThird : PlacedStep "w" (backslashSession 2)
      (.call (.createFolder "f3" "d".toList "/a\\b/c/".toList true)) (backslashSession 3) :=
    ⟨.call (.createFolder "f3" "d".toList "/a\\b/c/".toList true)
      (by simp [FolderCall.Fresh, backslashSession, backslashFolders]), by simp⟩
  exact .cons _ (.cons _ (.cons _ .nil hFirst) hSecond) hThird

theorem backslash_start :
    Database.Empty "w" (backslashSession 0).current ∧ PlacedSession "w" (backslashSession 0) := by
  refine ⟨⟨by decide, by simp [backslashSession]⟩, ?_, ?_⟩
  · simp [Placed, backslashSession]
  · simp [Placed, backslashSession]

/-- The listing of the folder shows the folder below its child. -/
theorem backslash_not_listings :
    Database.Empty "w" (backslashSession 0).current ∧ PlacedSession "w" (backslashSession 0) ∧
      Run (PlacedStep "w") (backslashSession 0) backslashEvents (backslashSession 3) ∧
      ¬ DirectoryListings "w" (backslashSession 3).current ⟨[], []⟩ := by
  refine ⟨backslash_start.1, backslash_start.2, backslash_run, fun hListings => ?_⟩
  have hExisting : Existing "w" (backslashSession 3).current
      (normalizeFolderPath "/a\\b/".toList) := by
    refine .inr ⟨⟨"f1", "w", "a\\b".toList, "/a\\b/".toList⟩, ?_, rfl, ?_⟩
    · decide
    · decide
  obtain ⟨items, hItems, hChildren⟩ := hListings.lists _ hExisting
  have hShown : getDirectoryItems "w" (backslashSession 3).current ⟨[], []⟩ "/a\\b/".toList =
      .ok ((backslashFolders.drop 1).map
        (folderItem "w" (backslashSession 3).current)) := by decide
  rw [hShown] at hItems
  cases hItems
  exact absurd hChildren.folders (by decide)

/-- The condition after those calls. -/
theorem backslash_listings_iff :
    DirectoryListings "w" (backslashSession 3).current ⟨[], []⟩ ↔
      NestedMatch "w" (backslashSession 3).current :=
  directoryListings_iff backslash_start.1 backslash_start.1 backslash_start.2 backslash_run _

end Folders
end Tracecat
