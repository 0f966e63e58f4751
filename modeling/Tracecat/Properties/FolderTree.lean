import Tracecat.Lib.Runs
import Tracecat.Workflow.FolderMoves

/-!
# The folder tree

The paths of the folders of a workspace spell a tree after every sequence of
calls.  A rename or a move replaces one beginning of paths by another, which
moves a subtree; a recursive deletion prunes one; and a call that fails has
written nothing.
-/

namespace Tracecat
namespace Folders

open PathTree WorkflowFolderService

/-- The paths of the folders of a workspace are those of a tree. -/
structure FolderTree (workspaceId : UUID) (db : Database) : Prop where
  slashes : ∀ folder ∈ db.folders, folder.workspaceId = workspaceId →
    folder.path.head? = some '/' ∧ folder.path.getLast? = some '/'
  names : ∀ folder ∈ db.folders, folder.workspaceId = workspaceId →
    folder.path = getParentPath folder.path ++ folder.name ++ ['/'] ∧
      folder.name ≠ [] ∧ '/' ∉ folder.name
  unique : ((db.folders.filter fun folder => folder.workspaceId = workspaceId).map
    WorkflowFolder.path).Nodup
  parents : ∀ folder ∈ db.folders, folder.workspaceId = workspaceId →
    getParentPath folder.path = ['/'] ∨ ∃ parent ∈ db.folders,
      parent.workspaceId = workspaceId ∧ parent.path = getParentPath folder.path

/-- What the calls do to a session. -/
structure FolderCallLaws (workspaceId : UUID) (session : Session) : Prop where
  failing : ∀ (folderCall : FolderCall) next error, folderCall.Fresh session →
    folderCall.perform workspaceId session = (next, .error error) → next = session
  renames : ∀ folderId newName next renamed,
    renameFolder workspaceId folderId newName session = (next, .ok renamed) →
    ∃ folder ∈ session.current.folders,
      folder.workspaceId = workspaceId ∧ folder.id = folderId ∧
        renamed = { folder with
          name := strip newName, path := getParentPath folder.path ++ strip newName ++ ['/'] } ∧
        next.current = session.current.moved workspaceId folder renamed.name renamed.path
  moves : ∀ folderId newParentId next moved,
    moveFolder workspaceId folderId newParentId session = (next, .ok moved) →
    ∃ folder ∈ session.current.folders, ∃ newParentPath,
      folder.workspaceId = workspaceId ∧ folder.id = folderId ∧
        (newParentId = none ∧ newParentPath = ['/'] ∨
          ∃ newParent ∈ session.current.folders, newParent.workspaceId = workspaceId ∧
            newParentId = some newParent.id ∧ newParentPath = newParent.path) ∧
        ¬ folder.path <+: newParentPath ∧
        moved = { folder with path := newParentPath ++ folder.name ++ ['/'] } ∧
        next.current = session.current.moved workspaceId folder moved.name moved.path
  deletes : ∀ folderId next,
    deleteFolder workspaceId folderId true session = (next, .ok ()) →
    ∃ folder ∈ session.current.folders,
      folder.workspaceId = workspaceId ∧ folder.id = folderId ∧
        next.current.folders =
          (session.current.folders.filter fun row => ¬ InSubtree workspaceId folder row) ∧
        (next.current.workflows.filter fun workflow => workflow.workspaceId = workspaceId) =
          (session.current.workflows.filter fun workflow =>
            workflow.workspaceId = workspaceId).map
              (detached workspaceId session.current folder)

structure Database.Empty (workspaceId : UUID) (db : Database) : Prop where
  constraints : db.Constraints
  none : ∀ folder ∈ db.folders, folder.workspaceId ≠ workspaceId

variable {workspaceId : UUID} {db : Database} {session : Session}

/-! ## The invariant and the tree -/

theorem Database.Materialized.folderTree (hTree : db.Materialized workspaceId) :
    FolderTree workspaceId db := by
  have hSpelled : ∀ folder ∈ db.folders, folder.workspaceId = workspaceId →
      ∃ parent, Plain (parent ++ [folder.name]) ∧ folder.path = render (parent ++ [folder.name]) ∧
        getParentPath folder.path = render parent := by
    intro folder hFolder hWorkspace
    obtain ⟨parent, hPlain, hPath⟩ := hTree.rendered folder hFolder hWorkspace
    exact ⟨parent, hPlain, hPath, hPath ▸ getParentPath_render hPlain⟩
  refine ⟨fun folder hFolder hWorkspace => ?_, fun folder hFolder hWorkspace => ?_, ?_,
    fun folder hFolder hWorkspace => ?_⟩
  · obtain ⟨parent, -, hPath, -⟩ := hSpelled folder hFolder hWorkspace
    rw [hPath]
    exact ⟨head?_render _, getLast?_render _⟩
  · obtain ⟨parent, hPlain, hPath, hParent⟩ := hSpelled folder hFolder hWorkspace
    rw [hParent, hPath, render_concat]
    exact ⟨rfl, hPlain folder.name (by simp)⟩
  · have hRows : db.folders.Nodup := List.Nodup.of_map _ hTree.constraints.1
    refine (hRows.filter _).map_on fun first hFirst second hSecond hPath => ?_
    simp only [List.mem_filter, decide_eq_true_eq] at hFirst hSecond
    exact hTree.constraints.folder_eq hFirst.1 hSecond.1
      (hFirst.2.trans hSecond.2.symm) hPath
  · obtain ⟨parent, hPlain, hPath, hParent⟩ := hSpelled folder hFolder hWorkspace
    rw [hParent]
    exact hTree.parent ⟨hPlain, folder, hFolder, hWorkspace, hPath⟩

theorem Database.Empty.materialized (hEmpty : db.Empty workspaceId) :
    db.Materialized workspaceId := by
  refine ⟨hEmpty.constraints, fun folder hFolder hWorkspace =>
    absurd hWorkspace (hEmpty.none folder hFolder), ⟨?_, ?_⟩⟩
  · rintro ⟨-, folder, hFolder, hWorkspace, -⟩
    exact hEmpty.none folder hFolder hWorkspace
  · rintro path last ⟨-, folder, hFolder, hWorkspace, -⟩
    exact absurd hWorkspace (hEmpty.none folder hFolder)

/-! ## One call -/

section Call

/-- A rename that gets past its checks is a change of the folder's place. -/
theorem moves_of_rename (hTree : db.Materialized workspaceId) {folder : WorkflowFolder}
    (hFolder : folder ∈ db.folders) (hWorkspace : folder.workspaceId = workspaceId) {name : Text}
    (hName : name ≠ [] ∧ '/' ∉ name) :
    ∃ old parent, Moves workspaceId db folder old parent name ∧
      getParentPath folder.path = render parent := by
  obtain ⟨parent, hPlain, hPath⟩ := hTree.rendered folder hFolder hWorkspace
  refine ⟨parent ++ [folder.name], parent, ⟨hFolder, hWorkspace, hPath,
    ⟨hPlain, folder, hFolder, hWorkspace, hPath⟩,
    (Plain.of_append hPlain).1.append (by simpa [Plain] using hName), ?_, ?_⟩,
    hPath ▸ getParentPath_render hPlain⟩
  · exact hTree.rooted.parent ⟨hPlain, folder, hFolder, hWorkspace, hPath⟩
  · intro hPrefix
    have hLength := hPrefix.length_le
    rw [List.length_append, List.length_singleton] at hLength
    omega

/-- A destination that gets past its checks is a place outside the folder. -/
theorem moves_of_destination (hTree : db.Materialized workspaceId) {folder : WorkflowFolder}
    (hFolder : folder ∈ db.folders) (hWorkspace : folder.workspaceId = workspaceId)
    {newParentId : Option UUID} {newParentPath : Text}
    (hDestination : destination workspaceId db folder newParentId = .ok newParentPath) :
    (∃ old parent, Moves workspaceId db folder old parent folder.name ∧
      newParentPath = render parent) ∧
      (newParentId = none ∧ newParentPath = ['/'] ∨
        ∃ newParent ∈ db.folders, newParent.workspaceId = workspaceId ∧
          newParentId = some newParent.id ∧ newParentPath = newParent.path) ∧
      ¬ folder.path <+: newParentPath := by
  obtain ⟨above, hPlain, hPath⟩ := hTree.rendered folder hFolder hWorkspace
  have hName : Plain [folder.name] := (Plain.of_append hPlain).2
  have hNode : above ++ [folder.name] ∈ db.nodes workspaceId :=
    ⟨hPlain, folder, hFolder, hWorkspace, hPath⟩
  cases newParentId with
  | none =>
      cases hDestination
      have hOutside : ¬ above ++ [folder.name] <+: [] := by simp
      refine ⟨⟨_, [], ⟨hFolder, hWorkspace, hPath, hNode, by simpa using hName, Or.inl rfl,
        hOutside⟩, rfl⟩, Or.inl ⟨rfl, rfl⟩, ?_⟩
      rw [hPath]
      have hRoot : render [] = ['/'] := rfl
      rwa [← hRoot, render_prefix_iff hPlain (by simp [Plain])]
  | some newParentId =>
      unfold destination at hDestination
      simp only at hDestination
      split at hDestination
      · cases hDestination
      · rename_i newParent hNewParent
        obtain ⟨hMem, hOwn, hId⟩ := getFolder_some hNewParent
        split at hDestination
        · cases hDestination
        · split at hDestination
          · cases hDestination
          · rename_i hOutside
            cases hDestination
            obtain ⟨parent, hParent, hParentPath⟩ := hTree.mem_nodes hMem hOwn
            refine ⟨⟨_, parent, ⟨hFolder, hWorkspace, hPath, hNode, hParent.1.append hName,
              Or.inr hParent, ?_⟩, hParentPath⟩,
              Or.inr ⟨newParent, hMem, hOwn, by rw [hId], rfl⟩, hOutside⟩
            rwa [hPath, hParentPath, render_prefix_iff hPlain hParent.1] at hOutside

/-- The check for a taken path lets a place pass that is free or the old one. -/
theorem free_of_check {folder : WorkflowFolder} {old parent : List Text} {name : Text}
    (hMoves : Moves workspaceId db folder old parent name)
    (hCheck : ¬ (render (parent ++ [name]) ≠ folder.path ∧
      folderPathExists workspaceId db (render (parent ++ [name])) = true)) :
    parent ++ [name] = old ∨ parent ++ [name] ∉ db.nodes workspaceId := by
  rw [hMoves.path, folderPathExists_render hMoves.plain, not_and_or, not_ne_iff] at hCheck
  exact hCheck.imp_left (render_injective hMoves.plain hMoves.old_plain)

theorem Moves.materialized_of_free {folder : WorkflowFolder} {old parent : List Text} {name : Text}
    (hMoves : Moves workspaceId db folder old parent name) (hTree : db.Materialized workspaceId)
    (hFree : parent ++ [name] = old ∨ parent ++ [name] ∉ db.nodes workspaceId) :
    (db.moved workspaceId folder name (render (parent ++ [name]))).Materialized workspaceId := by
  rcases hFree with hStays | hFresh
  · rw [hMoves.moved_of_stays hTree hStays]
    exact hTree
  · exact hMoves.materialized hTree hFresh

theorem renameFolder_cases (hTree : session.current.Materialized workspaceId) (folderId : UUID)
    (newName : Text) :
    (∃ error, renameFolder workspaceId folderId newName session = (session, .error error)) ∨
      ∃ folder old parent name, folder.id = folderId ∧ name = strip newName ∧
        Moves workspaceId session.current folder old parent name ∧
        getParentPath folder.path = render parent ∧
        (parent ++ [name] = old ∨ parent ++ [name] ∉ session.current.nodes workspaceId) ∧
        renameFolder workspaceId folderId newName session =
          ({ session with
              current := session.current.moved workspaceId folder name
                (render (parent ++ [name])) }.commit,
            .ok { folder with name := name, path := render (parent ++ [name]) }) := by
  unfold renameFolder
  cases hName : normalizeFolderName newName with
  | error error => exact Or.inl ⟨error, rfl⟩
  | ok name =>
      simp only
      cases hFolder : getFolder workspaceId session.current folderId with
      | none => exact Or.inl ⟨_, rfl⟩
      | some folder =>
          simp only
          obtain ⟨hMem, hOwn, hId⟩ := getFolder_some hFolder
          obtain ⟨old, parent, hMoves, hParent⟩ :=
            moves_of_rename hTree hMem hOwn (normalizeFolderName_ok hName)
          rw [hParent, childPath_render]
          split
          · exact Or.inl ⟨_, rfl⟩
          · rename_i hCheck
            have hFree := free_of_check hMoves hCheck
            refine Or.inr ⟨folder, old, parent, name, hId, ?_, hMoves, hParent, hFree,
              hMoves.applyFolderChange_eq hTree hFree⟩
            unfold normalizeFolderName at hName
            simp only at hName
            split at hName
            · cases hName
            · split at hName <;> cases hName
              rfl

theorem moveFolder_cases (hTree : session.current.Materialized workspaceId) (folderId : UUID)
    (newParentId : Option UUID) :
    (∃ error, moveFolder workspaceId folderId newParentId session = (session, .error error)) ∨
      ∃ folder old parent, folder.id = folderId ∧
        destination workspaceId session.current folder newParentId = .ok (render parent) ∧
        Moves workspaceId session.current folder old parent folder.name ∧
        (parent ++ [folder.name] = old ∨
          parent ++ [folder.name] ∉ session.current.nodes workspaceId) ∧
        moveFolder workspaceId folderId newParentId session =
          ({ session with
              current := session.current.moved workspaceId folder folder.name
                (render (parent ++ [folder.name])) }.commit,
            .ok { folder with path := render (parent ++ [folder.name]) }) := by
  unfold moveFolder
  cases hFolder : getFolder workspaceId session.current folderId with
  | none => exact Or.inl ⟨_, rfl⟩
  | some folder =>
      simp only
      obtain ⟨hMem, hOwn, hId⟩ := getFolder_some hFolder
      cases hDestination : destination workspaceId session.current folder newParentId with
      | error error => exact Or.inl ⟨error, rfl⟩
      | ok newParentPath =>
          simp only
          obtain ⟨⟨old, parent, hMoves, rfl⟩, -, -⟩ :=
            moves_of_destination hTree hMem hOwn hDestination
          rw [childPath_render]
          split
          · exact Or.inl ⟨_, rfl⟩
          · rename_i hCheck
            have hFree := free_of_check hMoves hCheck
            exact Or.inr ⟨folder, old, parent, hId, hDestination, hMoves, hFree,
              hMoves.applyFolderChange_eq hTree hFree⟩

theorem Database.Materialized.addFolder (hTree : db.Materialized workspaceId) {id : UUID}
    {parent : List Text} {name : Text} (hPlain : Plain (parent ++ [name]))
    (hParent : parent = [] ∨ parent ∈ db.nodes workspaceId)
    (hFree : parent ++ [name] ∉ db.nodes workspaceId)
    (hFresh : ∀ folder ∈ db.folders, folder.id ≠ id) {added : Database}
    (hAdded : added.folders = db.folders ++
      [{ id := id, workspaceId := workspaceId, name := name, path := render (parent ++ [name]) }]) :
    added.Materialized workspaceId := by
  have hMem {row : WorkflowFolder} : row ∈ added.folders ↔ row ∈ db.folders ∨
      row = { id := id, workspaceId := workspaceId, name := name,
              path := render (parent ++ [name]) } := by
    rw [hAdded, List.mem_append, List.mem_singleton]
  have hNodes : added.nodes workspaceId = insert (parent ++ [name]) (db.nodes workspaceId) := by
    ext segments
    constructor
    · rintro ⟨hSegments, row, hRow, hOwn, hPath⟩
      rcases hMem.mp hRow with hOld | rfl
      · exact Or.inr ⟨hSegments, row, hOld, hOwn, hPath⟩
      · exact Or.inl (render_injective hSegments hPlain hPath.symm)
    · rintro (rfl | ⟨hSegments, row, hRow, hOwn, hPath⟩)
      · exact ⟨hPlain, _, hMem.mpr (Or.inr rfl), rfl, rfl⟩
      · exact ⟨hSegments, row, hMem.mpr (Or.inl hRow), hOwn, hPath⟩
  refine ⟨⟨?_, ?_⟩, fun row hRow hOwn => ?_, hNodes ▸ hTree.rooted.insert hParent name⟩
  · rw [hAdded, List.map_append, List.map_singleton, List.nodup_append]
    refine ⟨hTree.constraints.1, List.nodup_singleton _, fun key hKey other hOther => ?_⟩
    obtain ⟨row, hRow, rfl⟩ := List.mem_map.mp hKey
    rw [List.mem_singleton.mp hOther]
    exact hFresh row hRow
  · rw [hAdded, List.map_append, List.map_singleton, List.nodup_append]
    refine ⟨hTree.constraints.2, List.nodup_singleton _, fun key hKey other hOther hEq => ?_⟩
    obtain ⟨row, hRow, rfl⟩ := List.mem_map.mp hKey
    rw [List.mem_singleton.mp hOther] at hEq
    obtain ⟨hOwn, hPath⟩ := Prod.ext_iff.mp hEq
    exact hFree ⟨hPlain, row, hRow, hOwn, hPath⟩
  · rcases hMem.mp hRow with hOld | rfl
    · exact hTree.rendered row hOld hOwn
    · exact ⟨parent, hPlain, rfl⟩

variable (hTree : session.current.Materialized workspaceId)
include hTree

theorem createFolder_cases {id : UUID} (hFresh : ∀ folder ∈ session.current.folders, folder.id ≠ id)
    (name parentPath : Text) (commit : Bool) :
    (∃ error, createFolder workspaceId id name parentPath commit session =
      (session, .error error)) ∨
      ∃ folder next, createFolder workspaceId id name parentPath commit session =
          (next, .ok folder) ∧
        next.current.Materialized workspaceId ∧
        (next.committed = session.committed ∨ next.committed = next.current) := by
  unfold createFolder
  cases hName : normalizeFolderName name with
  | error error => exact Or.inl ⟨error, rfl⟩
  | ok normalizedName =>
      simp only
      split
      · exact Or.inl ⟨_, rfl⟩
      · rename_i hParentCheck
        split
        · exact Or.inl ⟨_, rfl⟩
        · rename_i hFreeCheck
          have hPlain := normalizeFolderName_ok hName
          -- the parent path is the root or that of a folder
          have hParent : ∃ parent, Plain parent ∧ normalizeFolderPath parentPath = render parent ∧
              (parent = [] ∨ parent ∈ session.current.nodes workspaceId) := by
            rw [not_and_or, not_ne_iff, Bool.not_eq_false] at hParentCheck
            rcases hParentCheck with hRoot | hExists
            · exact ⟨[], by simp [Plain], hRoot, Or.inl rfl⟩
            · unfold folderPathExists at hExists
              simp only [List.any_eq_true, Bool.and_eq_true, decide_eq_true_eq] at hExists
              obtain ⟨row, hRow, hOwn, hPath⟩ := hExists
              obtain ⟨parent, hNode, hRender⟩ := hTree.mem_nodes hRow hOwn
              rw [normalizeFolderPath_idem] at hPath
              exact ⟨parent, hNode.1, hPath.symm.trans hRender, Or.inr hNode⟩
          obtain ⟨parent, hParentPlain, hRender, hAbove⟩ := hParent
          have hSegments : Plain (parent ++ [normalizedName]) :=
            hParentPlain.append (by simpa [Plain] using hPlain)
          rw [hRender, childPath_render, folderPathExists_render hSegments] at hFreeCheck
          simp only [hRender, childPath_render]
          have hAdded : Database.Materialized workspaceId
              { session.current with
                folders := session.current.folders ++
                  [{ id := id, workspaceId := workspaceId, name := normalizedName,
                     path := render (parent ++ [normalizedName]) }] } :=
            hTree.addFolder hSegments hAbove hFreeCheck hFresh rfl
          have hWrite : writeFolderChange (render (parent ++ [normalizedName])) commit
              { session with
                current := { session.current with
                  folders := session.current.folders ++
                    [{ id := id, workspaceId := workspaceId, name := normalizedName,
                       path := render (parent ++ [normalizedName]) }] } } = _ :=
            writeFolderChange_ok hAdded.constraints _ _
          rw [hWrite]
          refine Or.inr ⟨_, _, rfl, ?_, ?_⟩
          · cases commit
            · exact hAdded
            · exact hAdded
          · cases commit
            · exact Or.inl rfl
            · exact Or.inr rfl

theorem deleteFolder_cases (folderId : UUID) (recursive : Bool) :
    (∃ error, deleteFolder workspaceId folderId recursive session = (session, .error error)) ∨
      ∃ folder deleted, folder ∈ session.current.folders ∧ folder.workspaceId = workspaceId ∧
        folder.id = folderId ∧
        deleteFolder workspaceId folderId recursive session =
          ({ session with current := deleted }.commit, .ok ()) ∧
        deleted.folders = (session.current.folders.filter fun row =>
          ¬ InSubtree workspaceId folder row) ∧
        (recursive = true → (deleted.workflows.filter fun workflow =>
            workflow.workspaceId = workspaceId) =
          (session.current.workflows.filter fun workflow =>
            workflow.workspaceId = workspaceId).map
              (detached workspaceId session.current folder)) := by
  unfold deleteFolder
  cases hFolder : getFolder workspaceId session.current folderId with
  | none => exact Or.inl ⟨_, rfl⟩
  | some folder =>
      simp only
      obtain ⟨hMem, hOwn, hId⟩ := getFolder_some hFolder
      split
      · exact Or.inl ⟨_, rfl⟩
      · split
        · exact Or.inl ⟨_, rfl⟩
        · rename_i hContents
          refine Or.inr ⟨folder, _, hMem, hOwn, hId, rfl, ?_, fun hRecursive => ?_⟩
          · cases recursive with
            | true => exact folders_clearSubtree hTree hMem hOwn
            | false =>
                rw [not_and_or, not_or] at hContents
                have hChildless := (hContents.resolve_left (by simp)).1
                rw [Bool.not_eq_true] at hChildless
                exact folders_deleteFolders hTree hMem hOwn hChildless
          · subst hRecursive
            exact workflows_clearSubtree hTree hMem hOwn

/-- A call on a tree fails and writes nothing, or leaves a tree. -/
theorem perform_cases (folderCall : FolderCall) (hFresh : folderCall.Fresh session) :
    (∃ error, folderCall.perform workspaceId session = (session, .error error)) ∨
      ∃ next result, folderCall.perform workspaceId session = (next, .ok result) ∧
        next.current.Materialized workspaceId ∧
        (next.committed = session.committed ∨ next.committed = next.current) := by
  cases folderCall with
  | createFolder id name parentPath commit =>
      simp only [FolderCall.perform]
      rcases createFolder_cases hTree hFresh name parentPath commit with
        ⟨error, hError⟩ | ⟨folder, next, hNext, hTrees⟩
      · exact Or.inl ⟨error, by rw [hError]; rfl⟩
      · exact Or.inr ⟨next, some folder, by rw [hNext]; rfl, hTrees⟩
  | renameFolder folderId newName =>
      simp only [FolderCall.perform]
      rcases renameFolder_cases hTree folderId newName with
        ⟨error, hError⟩ | ⟨folder, old, parent, name, -, -, hMoves, -, hFree, hNext⟩
      · exact Or.inl ⟨error, by rw [hError]; rfl⟩
      · exact Or.inr ⟨_, some _, by rw [hNext]; rfl,
          hMoves.materialized_of_free hTree hFree, Or.inr rfl⟩
  | moveFolder folderId newParentId =>
      simp only [FolderCall.perform]
      rcases moveFolder_cases hTree folderId newParentId with
        ⟨error, hError⟩ | ⟨folder, old, parent, -, -, hMoves, hFree, hNext⟩
      · exact Or.inl ⟨error, by rw [hError]; rfl⟩
      · exact Or.inr ⟨_, some _, by rw [hNext]; rfl,
          hMoves.materialized_of_free hTree hFree, Or.inr rfl⟩
  | deleteFolder folderId recursive =>
      simp only [FolderCall.perform]
      rcases deleteFolder_cases hTree folderId recursive with
        ⟨error, hError⟩ | ⟨folder, deleted, hMem, hOwn, -, hNext, hFolders, -⟩
      · exact Or.inl ⟨error, by rw [hError]; rfl⟩
      · exact Or.inr ⟨_, none, by rw [hNext]; rfl, hTree.prune hMem hOwn hFolders, Or.inr rfl⟩

theorem folderCallLaws :
    FolderCallLaws workspaceId session := by
  refine ⟨fun folderCall next error hFresh hPerform => ?_,
    fun folderId newName next renamed hRename => ?_,
    fun folderId newParentId next moved hMove => ?_, fun folderId next hDelete => ?_⟩
  · rcases perform_cases hTree folderCall hFresh with ⟨_, hError⟩ | ⟨_, _, hOk, -⟩
    · rw [hError] at hPerform
      exact (Prod.ext_iff.mp hPerform).1.symm
    · rw [hOk] at hPerform
      cases (Prod.ext_iff.mp hPerform).2
  · rcases renameFolder_cases hTree folderId newName with
      ⟨_, hError⟩ | ⟨folder, old, parent, name, hId, rfl, hMoves, hParent, -, hOk⟩
    · rw [hError] at hRename
      cases (Prod.ext_iff.mp hRename).2
    · rw [hOk] at hRename
      obtain ⟨rfl, hRenamed⟩ := Prod.ext_iff.mp hRename
      cases hRenamed
      refine ⟨folder, hMoves.mem, hMoves.workspace, hId, ?_, rfl⟩
      rw [hParent, render_concat]
  · rcases moveFolder_cases hTree folderId newParentId with
      ⟨_, hError⟩ | ⟨folder, old, parent, hId, hDestination, hMoves, -, hOk⟩
    · rw [hError] at hMove
      cases (Prod.ext_iff.mp hMove).2
    · rw [hOk] at hMove
      obtain ⟨rfl, hMoved⟩ := Prod.ext_iff.mp hMove
      cases hMoved
      obtain ⟨-, hNewParent, hOutside⟩ :=
        moves_of_destination hTree hMoves.mem hMoves.workspace hDestination
      refine ⟨folder, hMoves.mem, render parent, hMoves.workspace, hId, hNewParent, hOutside,
        ?_, rfl⟩
      rw [render_concat]
  · rcases deleteFolder_cases hTree folderId true with
      ⟨_, hError⟩ | ⟨folder, deleted, hMem, hOwn, hId, hOk, hFolders, hWorkflows⟩
    · rw [hError] at hDelete
      cases (Prod.ext_iff.mp hDelete).2
    · rw [hOk] at hDelete
      obtain ⟨rfl, -⟩ := Prod.ext_iff.mp hDelete
      exact ⟨folder, hMem, hOwn, hId, hFolders, hWorkflows rfl⟩

end Call

/-! ## Sequences of calls -/

theorem materialized_step {event : FolderEvent} {next : Session}
    (hTrees : session.current.Materialized workspaceId ∧
      session.committed.Materialized workspaceId)
    (hStep : FolderStep workspaceId session event next) :
    next.current.Materialized workspaceId ∧ next.committed.Materialized workspaceId := by
  cases hStep with
  | call folderCall hFresh =>
      rcases perform_cases hTrees.1 folderCall hFresh with
        ⟨_, hError⟩ | ⟨next, _, hOk, hTree, hCommitted⟩
      · rw [hError]
        exact hTrees
      · rw [hOk]
        refine ⟨hTree, ?_⟩
        rcases hCommitted with hKept | hWritten
        · exact hKept.symm ▸ hTrees.2
        · exact hWritten.symm ▸ hTree
  | commit => exact ⟨hTrees.1, hTrees.1⟩
  | rollback => exact ⟨hTrees.2, hTrees.2⟩
  | workflows rows => exact ⟨hTrees.1.congr rfl, hTrees.2.congr rfl⟩

/-- After every sequence of calls on a workspace without folders, the folders
are a tree and every call does what it should. -/
theorem folderTree_of_run {start : Session} {events : List FolderEvent}
    (hCurrent : start.current.Empty workspaceId) (hCommitted : start.committed.Empty workspaceId)
    (hRun : Run (FolderStep workspaceId) start events session) :
    FolderTree workspaceId session.current ∧ FolderTree workspaceId session.committed ∧
      FolderCallLaws workspaceId session := by
  have hTrees := hRun.invariant
    (fun _ session => session.current.Materialized workspaceId ∧
      session.committed.Materialized workspaceId)
    ⟨hCurrent.materialized, hCommitted.materialized⟩ fun _ hTrees hStep =>
      materialized_step hTrees hStep
  exact ⟨hTrees.1.folderTree, hTrees.2.folderTree, folderCallLaws hTrees.1⟩

def noRows : Session where
  committed := ⟨[], []⟩
  current := ⟨[], []⟩

/-- Three folders, of which one is renamed, two are moved and one is deleted
with what is in it. -/
def reorganized : List FolderCall :=
  [.createFolder "f" " a%".toList "/".toList true, .createFolder "g" "b".toList "/a%/".toList true,
    .createFolder "h" "c".toList "/".toList true, .renameFolder "f" "x_".toList,
    .moveFolder "h" (some "f"), .moveFolder "g" none, .deleteFolder "f" true]

theorem folderTree_of_reorganized : ∃ session,
    Run (FolderStep "w") noRows (reorganized.map FolderEvent.call).reverse session ∧
      session.current.folders = [⟨"g", "w", "b".toList, "/b/".toList⟩] ∧
      FolderTree "w" session.current ∧ FolderTree "w" session.committed ∧
      FolderCallLaws "w" session := by
  have hEmpty : Database.Empty "w" ⟨[], []⟩ := ⟨by decide, by simp⟩
  obtain ⟨session, hPlay, hFolders⟩ : ∃ session,
      reorganized.foldlM (fun session folderCall =>
        if folderCall.Fresh session then some (folderCall.perform "w" session).1 else none)
          noRows = some session ∧
      session.current.folders = [⟨"g", "w", "b".toList, "/b/".toList⟩] := by
    refine ⟨_, rfl, ?_⟩
    decide +kernel
  have hCalls : Run (fun session folderCall next => FolderStep "w" session (.call folderCall) next)
      noRows reorganized.reverse session := by
    refine Run.of_foldlM (fun folderCall _ state next hNext => ?_) hPlay
    obtain ⟨hFresh, hNext⟩ := Option.ite_none_right_eq_some.mp hNext
    obtain rfl := Option.some.inj hNext
    exact .call folderCall hFresh
  have hRun := hCalls.relabel FolderEvent.call
  rw [List.map_reverse] at hRun
  exact ⟨session, hRun, hFolders, folderTree_of_run hEmpty hEmpty hRun⟩

end Folders
end Tracecat
