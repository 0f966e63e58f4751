import Tracecat.Workflow.FolderPaths

/-!
# Moves and deletions of folders

What the writes of the service do to the tree of a workspace: a folder that gets
a name and a path takes its subtree along, and the rows of a subtree go
together.
-/

namespace Tracecat
namespace Folders

open PathTree WorkflowFolderService

/-- A row after a folder has got a name and a path: the rows below the folder
keep the rest of their paths. -/
def movedRow (workspaceId : UUID) (folder : WorkflowFolder) (name newPath : Text)
    (row : WorkflowFolder) : WorkflowFolder :=
  if row.id = folder.id then { row with name := name, path := newPath }
  else if row.workspaceId = workspaceId ∧ folder.path <+: row.path then
    { row with path := newPath ++ row.path.drop folder.path.length }
  else row

/-- The database after a folder has got a name and a path. -/
def Database.moved (workspaceId : UUID) (folder : WorkflowFolder) (name newPath : Text)
    (db : Database) : Database :=
  { db with folders := db.folders.map (movedRow workspaceId folder name newPath) }

/-- A row is in the subtree of a folder. -/
def InSubtree (workspaceId : UUID) (folder row : WorkflowFolder) : Prop :=
  row.workspaceId = workspaceId ∧ folder.path <+: row.path

instance (workspaceId : UUID) (folder row : WorkflowFolder) :
    Decidable (InSubtree workspaceId folder row) :=
  inferInstanceAs (Decidable (_ ∧ _))

/-- A workflow after the subtree of a folder is gone. -/
def detached (workspaceId : UUID) (db : Database) (folder : WorkflowFolder) (workflow : Workflow) :
    Workflow :=
  if ∃ row ∈ db.folders, InSubtree workspaceId folder row ∧ workflow.folderId = some row.id then
    { workflow with folderId := none }
  else workflow

variable {workspaceId : UUID} {db : Database} {session : Session}

theorem Database.Materialized.congr (hTree : db.Materialized workspaceId) {other : Database}
    (hFolders : other.folders = db.folders) : other.Materialized workspaceId := by
  obtain ⟨hConstraints, hRendered, hRooted⟩ := hTree
  unfold Constraints at hConstraints
  unfold nodes at hRooted
  rw [← hFolders] at hConstraints hRendered hRooted
  exact ⟨hConstraints, hRendered, hRooted⟩

/-! ## A subtree moves -/

section Move

variable {folder : WorkflowFolder} {old parent : List Text} {name : Text}

/-- A change of the name and the path of a folder, read as segments. -/
structure Moves (workspaceId : UUID) (db : Database) (folder : WorkflowFolder)
    (old parent : List Text) (name : Text) : Prop where
  mem : folder ∈ db.folders
  workspace : folder.workspaceId = workspaceId
  path : folder.path = render old
  node : old ∈ db.nodes workspaceId
  plain : Plain (parent ++ [name])
  above : parent = [] ∨ parent ∈ db.nodes workspaceId
  outside : ¬ old <+: parent

namespace Moves

theorem old_plain (hMoves : Moves workspaceId db folder old parent name) : Plain old :=
  hMoves.node.1

theorem movedRow_path (hMoves : Moves workspaceId db folder old parent name)
    (hTree : db.Materialized workspaceId) {row : WorkflowFolder} (hRow : row ∈ db.folders)
    (hWorkspace : row.workspaceId = workspaceId) {segments : List Text} (hPlain : Plain segments)
    (hPath : row.path = render segments) :
    (movedRow workspaceId folder name (render (parent ++ [name])) row).path =
      render (relocate old (parent ++ [name]) segments) := by
  unfold movedRow
  split
  · rename_i hId
    have hSame := hTree.constraints.folder_eq_of_id hRow hMoves.mem hId
    rw [hSame, hMoves.path] at hPath
    rw [← render_injective hMoves.old_plain hPlain hPath]
    have hTop := relocate_append old (parent ++ [name]) []
    rw [List.append_nil, List.append_nil] at hTop
    rw [hTop]
  · split
    · rename_i hBelow
      rw [hMoves.path, hPath, render_prefix_iff hMoves.old_plain hPlain] at hBelow
      obtain ⟨rest, rfl⟩ := hBelow.2
      rw [relocate_append, hMoves.path, hPath]
      exact render_rewrite _ _ _
    · rename_i hOutside
      rw [hMoves.path, hPath, render_prefix_iff hMoves.old_plain hPlain, not_and] at hOutside
      rw [relocate_of_outside _ (hOutside hWorkspace)]
      exact hPath

theorem movedRow_id (row : WorkflowFolder) (newPath : Text) :
    (movedRow workspaceId folder name newPath row).id = row.id := by
  unfold movedRow
  split
  · rfl
  · split <;> rfl

theorem movedRow_workspaceId (row : WorkflowFolder) (newPath : Text) :
    (movedRow workspaceId folder name newPath row).workspaceId = row.workspaceId := by
  unfold movedRow
  split
  · rfl
  · split <;> rfl

section

variable (hMoves : Moves workspaceId db folder old parent name)
  (hTree : db.Materialized workspaceId)
include hMoves hTree

theorem movedRow_other {row : WorkflowFolder} (hRow : row ∈ db.folders)
    (hWorkspace : row.workspaceId ≠ workspaceId) (newPath : Text) :
    movedRow workspaceId folder name newPath row = row := by
  unfold movedRow
  rw [if_neg, if_neg fun hBelow => hWorkspace hBelow.1]
  intro hId
  rw [hTree.constraints.folder_eq_of_id hRow hMoves.mem hId] at hWorkspace
  exact hWorkspace hMoves.workspace

theorem name_eq (hStays : parent ++ [name] = old) :
    name = folder.name := by
  obtain ⟨above, hPlain, hPath⟩ := hTree.rendered folder hMoves.mem hMoves.workspace
  rw [hMoves.path] at hPath
  have hSegments := render_injective hMoves.old_plain hPlain hPath
  rw [← hStays] at hSegments
  obtain ⟨-, hName⟩ := List.append_inj' hSegments rfl
  exact (List.cons.inj hName).1

theorem movedRow_of_stays (hStays : parent ++ [name] = old) {row : WorkflowFolder}
    (hRow : row ∈ db.folders) :
    movedRow workspaceId folder name (render (parent ++ [name])) row = row := by
  unfold movedRow
  split
  · rename_i hId
    have hSame := hTree.constraints.folder_eq_of_id hRow hMoves.mem hId
    rw [hStays, hMoves.name_eq hTree hStays, ← hMoves.path, hSame]
  · split
    · rename_i hBelow
      obtain ⟨rest, hRest⟩ := hBelow.2
      rw [hStays, ← hMoves.path, ← hRest, List.drop_left, hRest]
    · rfl

theorem moved_of_stays (hStays : parent ++ [name] = old) :
    db.moved workspaceId folder name (render (parent ++ [name])) = db := by
  have hRows : db.folders.map (movedRow workspaceId folder name (render (parent ++ [name]))) =
      db.folders := by
    rw [List.map_congr_left fun row hRow => hMoves.movedRow_of_stays hTree hStays hRow,
      List.map_id']
  unfold Database.moved
  rw [hRows]

theorem nodes_moved :
    (db.moved workspaceId folder name (render (parent ++ [name]))).nodes workspaceId =
      relocate old (parent ++ [name]) '' db.nodes workspaceId := by
  have hRelocated : ∀ segments, Plain segments → Plain (relocate old (parent ++ [name]) segments) := by
    intro segments hPlain
    unfold relocate
    split
    · exact hMoves.plain.append fun segment hSegment =>
        hPlain segment (List.mem_of_mem_drop hSegment)
    · exact hPlain
  ext segments
  constructor
  · rintro ⟨hPlain, moved, hMoved, hWorkspace, hPath⟩
    obtain ⟨row, hRow, rfl⟩ := List.mem_map.mp hMoved
    rw [movedRow_workspaceId] at hWorkspace
    obtain ⟨node, hNode, hNodePath⟩ := hTree.mem_nodes hRow hWorkspace
    rw [hMoves.movedRow_path hTree hRow hWorkspace hNode.1 hNodePath] at hPath
    exact ⟨node, hNode, render_injective (hRelocated node hNode.1) hPlain hPath⟩
  · rintro ⟨node, ⟨hPlain, row, hRow, hWorkspace, hPath⟩, rfl⟩
    refine ⟨hRelocated node hPlain, _, List.mem_map_of_mem hRow, ?_, ?_⟩
    · rw [movedRow_workspaceId]
      exact hWorkspace
    · exact hMoves.movedRow_path hTree hRow hWorkspace hPlain hPath

theorem constraints_moved (hFresh : parent ++ [name] ∉ db.nodes workspaceId) :
    (db.moved workspaceId folder name (render (parent ++ [name]))).Constraints := by
  have hRows : db.folders.Nodup := List.Nodup.of_map _ hTree.constraints.1
  constructor
  · unfold Database.moved
    rw [List.map_map]
    have hIds : WorkflowFolder.id ∘ movedRow workspaceId folder name (render (parent ++ [name])) =
        WorkflowFolder.id := funext fun row => movedRow_id row _
    rw [hIds]
    exact hTree.constraints.1
  · unfold Database.moved
    rw [List.map_map]
    refine hRows.map_on fun first hFirst second hSecond hKey => ?_
    obtain ⟨hWorkspaces, hPaths⟩ := Prod.ext_iff.mp hKey
    simp only [Function.comp_apply, movedRow_workspaceId] at hWorkspaces hPaths
    by_cases hWorkspace : first.workspaceId = workspaceId
    · obtain ⟨node, hNode, hPath⟩ := hTree.mem_nodes hFirst hWorkspace
      obtain ⟨node', hNode', hPath'⟩ := hTree.mem_nodes hSecond (hWorkspaces ▸ hWorkspace)
      have hNodes : (db.moved workspaceId folder name (render (parent ++ [name]))).nodes
          workspaceId = _ := hMoves.nodes_moved hTree
      have hMem (segments : List Text) (hSegments : segments ∈ db.nodes workspaceId) :
          Plain (relocate old (parent ++ [name]) segments) :=
        (hNodes ▸ Set.mem_image_of_mem _ hSegments :
          _ ∈ (db.moved workspaceId folder name (render (parent ++ [name]))).nodes workspaceId).1
      rw [hMoves.movedRow_path hTree hFirst hWorkspace hNode.1 hPath,
        hMoves.movedRow_path hTree hSecond (hWorkspaces ▸ hWorkspace) hNode'.1 hPath'] at hPaths
      have hSame := hTree.rooted.relocate_injOn (by simp) hFresh hNode hNode'
        (render_injective (hMem node hNode) (hMem node' hNode') hPaths)
      rw [← hSame] at hPath'
      exact hTree.constraints.folder_eq hFirst hSecond hWorkspaces (hPath.trans hPath'.symm)
    · rw [hMoves.movedRow_other hTree hFirst hWorkspace,
        hMoves.movedRow_other hTree hSecond (hWorkspaces ▸ hWorkspace)] at hPaths
      exact hTree.constraints.folder_eq hFirst hSecond hWorkspaces hPaths

theorem materialized (hFresh : parent ++ [name] ∉ db.nodes workspaceId) :
    (db.moved workspaceId folder name (render (parent ++ [name]))).Materialized workspaceId := by
  refine ⟨hMoves.constraints_moved hTree hFresh, fun moved hMoved hWorkspace => ?_,
    (hMoves.nodes_moved hTree).symm ▸
      hTree.rooted.move hMoves.node hMoves.above hMoves.outside name⟩
  obtain ⟨row, hRow, rfl⟩ := List.mem_map.mp hMoved
  rw [movedRow_workspaceId] at hWorkspace
  obtain ⟨above, hPlain, hPath⟩ := hTree.rendered row hRow hWorkspace
  have hMovedPath := hMoves.movedRow_path hTree hRow hWorkspace hPlain hPath
  unfold movedRow
  split
  · exact ⟨parent, hMoves.plain, rfl⟩
  · rename_i hId
    split
    · rename_i hBelow
      rw [hMoves.path, hPath, render_prefix_iff hMoves.old_plain hPlain] at hBelow
      rcases List.prefix_concat_iff.mp hBelow.2 with hTop | ⟨rest, rfl⟩
      · rw [← hTop, ← hMoves.path] at hPath
        exact absurd (congrArg WorkflowFolder.id (hTree.constraints.folder_eq hRow hMoves.mem
          (hWorkspace.trans hMoves.workspace.symm) hPath)) hId
      · rw [List.append_assoc] at hPlain
        refine ⟨parent ++ [name] ++ rest, ?_, ?_⟩
        · rw [List.append_assoc]
          exact hMoves.plain.append (Plain.of_append hPlain).2
        · show render (parent ++ [name]) ++ row.path.drop folder.path.length = _
          rw [hMoves.path, hPath, List.append_assoc old, render_rewrite]
          simp only [List.append_assoc]
    · exact ⟨above, hPlain, hPath⟩

end

/-! ### The two writes of a change -/

/-- A row after the first write, which reaches the row of the folder only. -/
def savedRow (folder : WorkflowFolder) (name newPath : Text) (row : WorkflowFolder) :
    WorkflowFolder :=
  if row.id = folder.id then { row with name := name, path := newPath } else row

theorem folders_saveFolder (db : Database) (folder : WorkflowFolder) (name newPath : Text) :
    (db.saveFolder { folder with name := name, path := newPath }).folders =
      db.folders.map (savedRow folder name newPath) :=
  rfl

@[simp] theorem savedRow_id (folder row : WorkflowFolder) (name newPath : Text) :
    (savedRow folder name newPath row).id = row.id := by
  unfold savedRow
  split <;> rfl

@[simp] theorem savedRow_workspaceId (folder row : WorkflowFolder) (name newPath : Text) :
    (savedRow folder name newPath row).workspaceId = row.workspaceId := by
  unfold savedRow
  split <;> rfl

theorem savedRow_path (folder row : WorkflowFolder) (name newPath : Text) :
    (savedRow folder name newPath row).path =
      if row.id = folder.id then newPath else row.path := by
  unfold savedRow
  split <;> rfl

section

variable (hMoves : Moves workspaceId db folder old parent name)
  (hTree : db.Materialized workspaceId)
include hMoves hTree

/-- What the second write selects is below the folder and not the folder. -/
theorem isDescendant_savedRow (hFresh : parent ++ [name] ∉ db.nodes workspaceId)
    {row : WorkflowFolder} (hRow : row ∈ db.folders) :
    isDescendant workspaceId (render old) (savedRow folder name (render (parent ++ [name])) row) =
        true ↔
      row.id ≠ folder.id ∧ row.workspaceId = workspaceId ∧ folder.path <+: row.path := by
  rw [isDescendant_iff, savedRow_path, savedRow_workspaceId, hMoves.path]
  by_cases hId : row.id = folder.id
  · rw [if_pos hId, render_prefix_iff hMoves.old_plain hMoves.plain]
    exact ⟨fun hBelow => absurd hBelow.2.1
        (Rooted.not_prefix_new hMoves.node hFresh hMoves.outside), fun hOther => absurd hId hOther.1⟩
  · rw [if_neg hId]
    refine ⟨fun hBelow => ⟨hId, hBelow.1, hBelow.2.1⟩, fun hBelow =>
      ⟨hBelow.2.1, hBelow.2.2, fun hTop => hId ?_⟩⟩
    rw [← hMoves.path] at hTop
    rw [hTree.constraints.folder_eq hRow hMoves.mem
      (hBelow.2.1.trans hMoves.workspace.symm) hTop]

/-- The second write does the rest of the move. -/
theorem rewritePath_savedRow (hFresh : parent ++ [name] ∉ db.nodes workspaceId)
    {row : WorkflowFolder} (hRow : row ∈ db.folders) :
    rewritePath workspaceId (render old) (render (parent ++ [name]))
        (savedRow folder name (render (parent ++ [name])) row) =
      movedRow workspaceId folder name (render (parent ++ [name])) row := by
  have hBelow := hMoves.isDescendant_savedRow hTree hFresh hRow
  unfold rewritePath movedRow
  by_cases hId : row.id = folder.id
  · rw [if_neg fun hSelected => (hBelow.mp hSelected).1 hId, if_pos hId, savedRow, if_pos hId]
  · have hSaved : savedRow folder name (render (parent ++ [name])) row = row := if_neg hId
    rw [hSaved] at hBelow ⊢
    rw [if_neg hId, hMoves.path] at *
    by_cases hSelected : row.workspaceId = workspaceId ∧ render old <+: row.path
    · rw [if_pos (hBelow.mpr ⟨hId, hSelected⟩), if_pos hSelected]
    · rw [if_neg fun hDescendant => hSelected (hBelow.mp hDescendant).2, if_neg hSelected]

theorem constraints_saved (hFresh : parent ++ [name] ∉ db.nodes workspaceId) :
    (db.saveFolder { folder with name := name, path := render (parent ++ [name]) }).Constraints := by
  have hRows : db.folders.Nodup := List.Nodup.of_map _ hTree.constraints.1
  have hTaken : ∀ row ∈ db.folders, row.workspaceId = workspaceId →
      row.path ≠ render (parent ++ [name]) := fun row hRow hWorkspace hPath =>
    hFresh ⟨hMoves.plain, row, hRow, hWorkspace, hPath⟩
  have hOwn {row : WorkflowFolder} (hRow : row ∈ db.folders) (hId : row.id = folder.id) :
      row.workspaceId = workspaceId :=
    hTree.constraints.folder_eq_of_id hRow hMoves.mem hId ▸ hMoves.workspace
  unfold Database.Constraints
  rw [folders_saveFolder, List.map_map, List.map_map]
  constructor
  · have hIds : WorkflowFolder.id ∘ savedRow folder name (render (parent ++ [name])) =
        WorkflowFolder.id := funext fun row => savedRow_id folder row _ _
    rw [hIds]
    exact hTree.constraints.1
  · refine hRows.map_on fun first hFirst second hSecond hKey => ?_
    obtain ⟨hWorkspaces, hPaths⟩ := Prod.ext_iff.mp hKey
    simp only [Function.comp_apply, savedRow_workspaceId, savedRow_path] at hWorkspaces hPaths
    by_cases hFirstId : first.id = folder.id
    · by_cases hSecondId : second.id = folder.id
      · exact hTree.constraints.folder_eq_of_id hFirst hSecond (hFirstId.trans hSecondId.symm)
      · rw [if_pos hFirstId, if_neg hSecondId] at hPaths
        exact absurd hPaths.symm
          (hTaken second hSecond (hWorkspaces.symm.trans (hOwn hFirst hFirstId)))
    · by_cases hSecondId : second.id = folder.id
      · rw [if_neg hFirstId, if_pos hSecondId] at hPaths
        exact absurd hPaths (hTaken first hFirst (hWorkspaces.trans (hOwn hSecond hSecondId)))
      · rw [if_neg hFirstId, if_neg hSecondId] at hPaths
        exact hTree.constraints.folder_eq hFirst hSecond hWorkspaces hPaths

theorem meetsRow_saved (hFresh : parent ++ [name] ∉ db.nodes workspaceId) :
    meetsRow workspaceId (render old) (render (parent ++ [name]))
      (db.folders.map (savedRow folder name (render (parent ++ [name])))) = false := by
  by_contra hMeets
  rw [Bool.not_eq_false] at hMeets
  simp only [meetsRow, List.any_map, List.any_eq_true, Function.comp_apply, Bool.and_eq_true,
    Bool.or_eq_true, decide_eq_true_eq, savedRow_id, savedRow_workspaceId] at hMeets
  obtain ⟨row, hRow, hSelected, other, hOther, ⟨hIds, hWorkspace⟩, hPaths⟩ := hMeets
  rw [hMoves.rewritePath_savedRow hTree hFresh hRow,
    hMoves.rewritePath_savedRow hTree hFresh hOther] at hPaths
  obtain ⟨hRowId, hRowWorkspace, hBelow⟩ :=
    (hMoves.isDescendant_savedRow hTree hFresh hRow).mp hSelected
  obtain ⟨node, hNode, hPath⟩ := hTree.mem_nodes hRow hRowWorkspace
  rw [hMoves.path, hPath, render_prefix_iff hMoves.old_plain hNode.1] at hBelow
  obtain ⟨rest, rfl⟩ := hBelow
  rcases hPaths with hOld | hNew
  · -- the path that the other row has had so far
    rw [hMoves.movedRow_path hTree hRow hRowWorkspace hNode.1 hPath, relocate_append,
      savedRow_path] at hOld
    have hPlain : Plain (parent ++ [name] ++ rest) :=
      hMoves.plain.append (Plain.of_append hNode.1).2
    split at hOld
    · have hRest := render_injective hMoves.plain hPlain hOld
      rw [List.self_eq_append_right] at hRest
      rw [hRest, List.append_nil, ← hMoves.path] at hPath
      exact hRowId (congrArg WorkflowFolder.id (hTree.constraints.folder_eq hRow hMoves.mem
        (hRowWorkspace.trans hMoves.workspace.symm) hPath))
    · exact hTree.rooted.append_notMem (by simp) hFresh rest
        ⟨hPlain, other, hOther, hWorkspace, hOld⟩
  · -- the path that the other row gets
    have hMoved := (hMoves.constraints_moved hTree hFresh).folder_eq
      (List.mem_map_of_mem hOther) (List.mem_map_of_mem hRow)
      (by rw [movedRow_workspaceId, movedRow_workspaceId, hWorkspace, hRowWorkspace]) hNew
    have hSameId := congrArg WorkflowFolder.id hMoved
    rw [movedRow_id, movedRow_id] at hSameId
    exact hIds hSameId

theorem saveFolder_of_stays (hStays : parent ++ [name] = old) :
    db.saveFolder { folder with name := name, path := render (parent ++ [name]) } = db := by
  have hPath : render (parent ++ [name]) = folder.path := by rw [hStays, hMoves.path]
  have hRows : db.folders.map (savedRow folder name (render (parent ++ [name]))) = db.folders := by
    rw [List.map_congr_left (g := id) fun row hRow => ?_, List.map_id]
    unfold savedRow
    split
    · rename_i hId
      rw [hPath, hMoves.name_eq hTree hStays,
        hTree.constraints.folder_eq_of_id hRow hMoves.mem hId]
      rfl
    · rfl
  unfold Database.saveFolder
  exact congrArg (fun folders => { db with folders := folders }) hRows

end

theorem updateDescendantPaths_saved
    (hMoves : Moves workspaceId session.current folder old parent name)
    (hTree : session.current.Materialized workspaceId)
    (hFresh : parent ++ [name] ∉ session.current.nodes workspaceId) :
    updateDescendantPaths workspaceId folder.path (render (parent ++ [name]))
        { session with
          current := session.current.saveFolder
            { folder with name := name, path := render (parent ++ [name]) } } =
      ({ session with
          current := session.current.moved workspaceId folder name (render (parent ++ [name])) },
        .ok ()) := by
  have hMoved : (session.current.saveFolder
      { folder with name := name, path := render (parent ++ [name]) }).folders.map
        (rewritePath workspaceId (render old) (render (parent ++ [name]))) =
      session.current.folders.map
        (movedRow workspaceId folder name (render (parent ++ [name]))) := by
    rw [folders_saveFolder, List.map_map]
    exact List.map_congr_left fun row hRow => hMoves.rewritePath_savedRow hTree hFresh hRow
  have hMeets := hMoves.meetsRow_saved hTree hFresh
  rw [← folders_saveFolder] at hMeets
  unfold updateDescendantPaths
  simp only
  rw [hMoves.path, normalizeFolderPath_render, normalizeFolderPath_render,
    if_neg (not_not.mpr (hMoves.constraints_saved hTree hFresh)), hMeets, hMoved]
  rfl

end Moves

theorem writeFolderChange_ok (hConstraints : session.current.Constraints) (conflictPath : Text)
    (commit : Bool) :
    writeFolderChange conflictPath commit session =
      (if commit then session.commit else session, .ok ()) :=
  if_pos hConstraints

/-- The end of `rename_folder` and `move_folder` moves the subtree of the
folder, and raises nothing. -/
theorem Moves.applyFolderChange_eq
    (hMoves : Moves workspaceId session.current folder old parent name)
    (hTree : session.current.Materialized workspaceId)
    (hFree : parent ++ [name] = old ∨ parent ++ [name] ∉ session.current.nodes workspaceId) :
    applyFolderChange workspaceId
        { folder with name := name, path := render (parent ++ [name]) } folder.path session =
      ({ session with
          current := session.current.moved workspaceId folder name
            (render (parent ++ [name])) }.commit,
        .ok { folder with name := name, path := render (parent ++ [name]) }) := by
  unfold applyFolderChange
  simp only
  by_cases hStays : parent ++ [name] = old
  · have hPath : render (parent ++ [name]) = folder.path := by rw [hStays, hMoves.path]
    rw [if_neg (by simpa using hPath), hMoves.saveFolder_of_stays hTree hStays,
      hMoves.moved_of_stays hTree hStays]
    simp only
    rw [writeFolderChange_ok hTree.constraints]
    rfl
  · have hFresh := hFree.resolve_left hStays
    have hPath : render (parent ++ [name]) ≠ folder.path := by
      rw [hMoves.path]
      exact fun hEq => hStays (render_injective hMoves.plain hMoves.old_plain hEq)
    rw [if_pos hPath, hMoves.updateDescendantPaths_saved hTree hFresh]
    simp only
    rw [writeFolderChange_ok (hMoves.constraints_moved hTree hFresh)]
    rfl

end Move

/-! ## A subtree goes -/

section Prune

variable {folder : WorkflowFolder}

theorem Database.Materialized.prune (hTree : db.Materialized workspaceId)
    (hFolder : folder ∈ db.folders) (hWorkspace : folder.workspaceId = workspaceId)
    {pruned : Database}
    (hPruned : pruned.folders =
      db.folders.filter fun row => ¬ InSubtree workspaceId folder row) :
    pruned.Materialized workspaceId := by
  obtain ⟨top, hTop, hTopPath⟩ := hTree.mem_nodes hFolder hWorkspace
  have hMem {row : WorkflowFolder} : row ∈ pruned.folders ↔
      row ∈ db.folders ∧ ¬ InSubtree workspaceId folder row := by
    rw [hPruned, List.mem_filter, decide_eq_true_eq]
  have hNodes : pruned.nodes workspaceId = {path | path ∈ db.nodes workspaceId ∧ ¬ top <+: path} := by
    ext segments
    constructor
    · rintro ⟨hPlain, row, hRow, hOwn, hPath⟩
      refine ⟨⟨hPlain, row, (hMem.mp hRow).1, hOwn, hPath⟩, fun hBelow => (hMem.mp hRow).2 ?_⟩
      rw [InSubtree, hTopPath, hPath, render_prefix_iff hTop.1 hPlain]
      exact ⟨hOwn, hBelow⟩
    · rintro ⟨⟨hPlain, row, hRow, hOwn, hPath⟩, hOutside⟩
      refine ⟨hPlain, row, hMem.mpr ⟨hRow, fun hBelow => hOutside ?_⟩, hOwn, hPath⟩
      rw [InSubtree, hTopPath, hPath, render_prefix_iff hTop.1 hPlain] at hBelow
      exact hBelow.2
  refine ⟨?_, fun row hRow hOwn => hTree.rendered row (hMem.mp hRow).1 hOwn,
    hNodes ▸ hTree.rooted.prune top⟩
  unfold Database.Constraints
  rw [hPruned]
  exact ⟨hTree.constraints.1.sublist (List.filter_sublist.map _),
    hTree.constraints.2.sublist (List.filter_sublist.map _)⟩

theorem folders_clearSubtree (hTree : db.Materialized workspaceId) (hFolder : folder ∈ db.folders)
    (hWorkspace : folder.workspaceId = workspaceId) :
    ((clearSubtree workspaceId folder.path db).deleteFolders fun row => row.id = folder.id).folders =
      db.folders.filter fun row => ¬ InSubtree workspaceId folder row := by
  show (db.folders.filter _).filter _ = _
  rw [List.filter_filter]
  refine List.filter_congr fun row hRow => ?_
  rw [Bool.eq_iff_iff, Bool.and_eq_true, Bool.not_eq_true', Bool.not_eq_true',
    ← Bool.not_eq_true, ← Bool.not_eq_true, isDescendant_iff, decide_eq_true_eq,
    decide_eq_true_eq]
  constructor
  · rintro ⟨hId, hNotBelow⟩ hInside
    exact hNotBelow ⟨hInside.1, hInside.2, fun hPath => hId (congrArg WorkflowFolder.id
      (hTree.constraints.folder_eq hRow hFolder (hInside.1.trans hWorkspace.symm) hPath))⟩
  · intro hOutside
    refine ⟨fun hId => hOutside ?_, fun hBelow => hOutside ⟨hBelow.1, hBelow.2.1⟩⟩
    rw [hTree.constraints.folder_eq_of_id hRow hFolder hId]
    exact ⟨hWorkspace, List.prefix_refl _⟩

theorem folders_deleteFolders (hTree : db.Materialized workspaceId) (hFolder : folder ∈ db.folders)
    (hWorkspace : folder.workspaceId = workspaceId)
    (hChildless : hasChildren workspaceId db folder.path = false) :
    (db.deleteFolders fun row => row.id = folder.id).folders =
      db.folders.filter fun row => ¬ InSubtree workspaceId folder row := by
  obtain ⟨top, -, hTopPath⟩ := hTree.mem_nodes hFolder hWorkspace
  have hNone : ∀ row ∈ db.folders, isDescendant workspaceId folder.path row = false := by
    unfold hasChildren at hChildless
    rw [hTopPath, normalizeFolderPath_render, List.any_eq_false] at hChildless
    intro row hRow
    rw [hTopPath]
    simpa using hChildless row hRow
  refine List.filter_congr fun row hRow => ?_
  rw [Bool.eq_iff_iff, Bool.not_eq_true', ← Bool.not_eq_true, decide_eq_true_eq, decide_eq_true_eq]
  constructor
  · intro hId hInside
    have hBelow := hNone row hRow
    rw [← Bool.not_eq_true, isDescendant_iff] at hBelow
    exact hBelow ⟨hInside.1, hInside.2, fun hPath => hId (congrArg WorkflowFolder.id
      (hTree.constraints.folder_eq hRow hFolder (hInside.1.trans hWorkspace.symm) hPath))⟩
  · intro hOutside hId
    refine hOutside ?_
    rw [hTree.constraints.folder_eq_of_id hRow hFolder hId]
    exact ⟨hWorkspace, List.prefix_refl _⟩

theorem detached_folderId_ne (workflow : Workflow) {row : WorkflowFolder} (hRow : row ∈ db.folders)
    (hInside : InSubtree workspaceId folder row) :
    (detached workspaceId db folder workflow).folderId ≠ some row.id := by
  unfold detached
  split
  · simp
  · rename_i hOutside
    exact fun hId => hOutside ⟨row, hRow, hInside, hId⟩

theorem leaveFolder_workspaceId (folderIds : List UUID) (workflow : Workflow) :
    (leaveFolder workspaceId folderIds workflow).workspaceId = workflow.workspaceId := by
  unfold leaveFolder
  split <;> rfl

theorem leaveFolder_subtreeIds (workflow : Workflow)
    (hWorkspace : workflow.workspaceId = workspaceId) :
    leaveFolder workspaceId (subtreeIds workspaceId folder.path db) workflow =
      detached workspaceId db folder workflow := by
  have hSelected : (∃ folderId ∈ subtreeIds workspaceId folder.path db,
        workflow.folderId = some folderId) ↔
      ∃ row ∈ db.folders, InSubtree workspaceId folder row ∧ workflow.folderId = some row.id := by
    simp [subtreeIds, InSubtree, Sql.startsWith_iff, and_assoc]
  unfold leaveFolder detached
  simp only [hWorkspace, true_and, hSelected]

/-- The workflows of the workspace stay, without the folders of the subtree. -/
theorem workflows_clearSubtree (hTree : db.Materialized workspaceId) (hFolder : folder ∈ db.folders)
    (hWorkspace : folder.workspaceId = workspaceId) :
    (((clearSubtree workspaceId folder.path db).deleteFolders fun row =>
        row.id = folder.id).workflows.filter fun workflow => workflow.workspaceId = workspaceId) =
      (db.workflows.filter fun workflow => workflow.workspaceId = workspaceId).map
        (detached workspaceId db folder) := by
  have hFilter : (((clearSubtree workspaceId folder.path db).deleteFolders fun row =>
        row.id = folder.id).workflows.filter fun workflow =>
          workflow.workspaceId = workspaceId) =
      (db.workflows.map (leaveFolder workspaceId (subtreeIds workspaceId folder.path db))).filter
        fun workflow => workflow.workspaceId = workspaceId := by
    show ((List.filter _ (List.filter _ (db.workflows.map _)))).filter _ = _
    rw [List.filter_filter, List.filter_filter]
    refine List.filter_congr fun workflow hWorkflow => ?_
    obtain ⟨before, -, rfl⟩ := List.mem_map.mp hWorkflow
    rw [leaveFolder_workspaceId]
    by_cases hOwn : before.workspaceId = workspaceId
    · rw [leaveFolder_subtreeIds before hOwn]
      -- no folder that goes takes a workflow of the workspace along
      have hNone (rows : List WorkflowFolder) (hRows : rows ⊆ db.folders)
          (doomed : WorkflowFolder → Bool)
          (hDoomed : ∀ row ∈ rows, doomed row = true → InSubtree workspaceId folder row) :
          (rows.any fun row => doomed row &&
            decide ((detached workspaceId db folder before).folderId = some row.id)) = false := by
        rw [List.any_eq_false]
        intro row hRow hBoth
        rw [Bool.and_eq_true, decide_eq_true_eq] at hBoth
        exact detached_folderId_ne before (hRows hRow) (hDoomed row hRow hBoth.1) hBoth.2
      have hFirst := hNone db.folders (List.Subset.refl _) (isDescendant workspaceId folder.path)
        fun row _ hBelow => ⟨(isDescendant_iff.mp hBelow).1, (isDescendant_iff.mp hBelow).2.1⟩
      have hSecond := hNone
        (db.folders.filter fun row => !isDescendant workspaceId folder.path row)
        (fun row hRow => (List.mem_filter.mp hRow).1) (fun row => decide (row.id = folder.id))
        fun row hRow hId => by
          rw [hTree.constraints.folder_eq_of_id (List.mem_filter.mp hRow).1 hFolder
            (of_decide_eq_true hId)]
          exact ⟨hWorkspace, List.prefix_refl _⟩
      simp only [clearSubtree, Database.deleteFolders, hFirst, hSecond, hOwn]
      rfl
    · simp [hOwn]
  rw [hFilter, List.filter_map]
  have hComp : ((fun workflow : Workflow => decide (workflow.workspaceId = workspaceId)) ∘
      leaveFolder workspaceId (subtreeIds workspaceId folder.path db)) =
      fun workflow => decide (workflow.workspaceId = workspaceId) := by
    funext workflow
    rw [Function.comp_apply, leaveFolder_workspaceId]
  rw [hComp]
  exact List.map_congr_left fun workflow hWorkflow =>
    leaveFolder_subtreeIds workflow (by simpa using (List.mem_filter.mp hWorkflow).2)

end Prune

end Folders
end Tracecat
