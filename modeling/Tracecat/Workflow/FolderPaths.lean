import Tracecat.Lib.PathTree
import Tracecat.Lib.Paths
import Tracecat.Workflow.Folders

/-!
# Materialized paths

A path of a folder is the text of its segments, each closed by a slash.  Names
have no slash, so the segments can be read back, a beginning of the text that
ends in a slash is a beginning of the segments, and replacing it is moving a
subtree.
-/

namespace Tracecat
namespace Folders

open PathTree

/-! ## Texts of segments -/

def render (segments : List Text) : Text :=
  '/' :: segments.flatMap fun segment => segment ++ ['/']

/-- Segments that can be names of folders. -/
def Plain (segments : List Text) : Prop :=
  ∀ segment ∈ segments, segment ≠ [] ∧ '/' ∉ segment

theorem render_append (first second : List Text) :
    render (first ++ second) =
      render first ++ second.flatMap fun segment => segment ++ ['/'] := by
  simp [render]

theorem render_concat (parent : List Text) (name : Text) :
    render (parent ++ [name]) = render parent ++ name ++ ['/'] := by
  simp [render_append]

theorem Plain.of_append {first second : List Text} (hPlain : Plain (first ++ second)) :
    Plain first ∧ Plain second :=
  List.forall_mem_append.mp hPlain

theorem Plain.append {first second : List Text} (hFirst : Plain first) (hSecond : Plain second) :
    Plain (first ++ second) :=
  List.forall_mem_append.mpr ⟨hFirst, hSecond⟩

/-- Beginnings of paths are beginnings of segments. -/
theorem render_prefix_iff {first second : List Text} (hFirst : Plain first)
    (hSecond : Plain second) : render first <+: render second ↔ first <+: second := by
  constructor
  · intro hPrefix
    have hBody := (List.cons_prefix_cons.mp hPrefix).2
    clear hPrefix
    induction first generalizing second with
    | nil => exact List.nil_prefix
    | cons segment first ih =>
        obtain ⟨hSegment, hFirstRest⟩ := List.forall_mem_cons.mp hFirst
        cases second with
        | nil =>
            have hNil := List.prefix_nil.mp hBody
            simp at hNil
        | cons segment' second =>
            obtain ⟨hSegment', hSecondRest⟩ := List.forall_mem_cons.mp hSecond
            obtain ⟨rest, hRest⟩ := hBody
            rw [List.flatMap_cons, List.flatMap_cons, List.append_assoc, List.append_assoc,
              List.append_assoc, List.singleton_append, List.singleton_append] at hRest
            -- both texts are cut at their first slash
            obtain ⟨rfl, -, hTail⟩ := Paths.append_cons_inj (· = '/')
              (fun char hChar hSlash => hSegment.2 (hSlash ▸ hChar))
              (fun char hChar hSlash => hSegment'.2 (hSlash ▸ hChar)) rfl rfl hRest
            exact List.cons_prefix_cons.mpr ⟨rfl, ih hFirstRest hSecondRest ⟨rest, hTail⟩⟩
  · rintro ⟨rest, rfl⟩
    rw [render_append]
    exact List.prefix_append _ _

theorem render_injective {first second : List Text} (hFirst : Plain first)
    (hSecond : Plain second) (hEq : render first = render second) : first = second := by
  have hForth := (render_prefix_iff hFirst hSecond).mp (hEq ▸ List.prefix_refl _)
  have hBack := (render_prefix_iff hSecond hFirst).mp (hEq ▸ List.prefix_refl _)
  exact List.IsPrefix.eq_of_length hForth (Nat.le_antisymm hForth.length_le hBack.length_le)

theorem render_rewrite (old new rest : List Text) :
    render new ++ (render (old ++ rest)).drop (render old).length = render (new ++ rest) := by
  rw [render_append, render_append, List.drop_left]

theorem head?_render (segments : List Text) : (render segments).head? = some '/' :=
  rfl

theorem getLast?_render (segments : List Text) : (render segments).getLast? = some '/' := by
  induction segments using List.reverseRecOn with
  | nil => rfl
  | append_singleton segments last _ => simp [render_concat]

/-! ## The functions on texts -/

theorem normalizeFolderPath_render (segments : List Text) :
    normalizeFolderPath (render segments) = render segments := by
  unfold normalizeFolderPath
  split
  · rename_i hRoot
    rcases hRoot with hNil | hRoot
    · simp [render] at hNil
    · exact hRoot.symm
  · rw [if_pos]
    obtain ⟨start, hStart⟩ := List.getLast?_eq_some_iff.mp (getLast?_render segments)
    exact ⟨start, hStart.symm⟩

theorem normalizeFolderPath_idem (path : Text) :
    normalizeFolderPath (normalizeFolderPath path) = normalizeFolderPath path := by
  have hKeeps (text : Text) (hSlash : ['/'] <:+ text) : normalizeFolderPath text = text := by
    unfold normalizeFolderPath
    split
    · rename_i hRoot
      rcases hRoot with rfl | rfl
      · simp at hSlash
      · rfl
    · rfl
  apply hKeeps
  unfold normalizeFolderPath
  split
  · exact List.suffix_refl _
  · split
    · assumption
    · exact List.suffix_append _ _

theorem render_eq_root_iff {segments : List Text} : render segments = ['/'] ↔ segments = [] := by
  cases segments <;> simp [render]

theorem childPath_render (parent : List Text) (name : Text) :
    childPath (render parent) name = render (parent ++ [name]) := by
  unfold childPath
  rw [render_concat]
  split
  · rfl
  · rename_i hRoot
    rw [not_not.mp hRoot]

theorem rstrip_append_slash {text : Text} (hLast : text.getLast? ≠ some '/') :
    rstrip (fun char => decide (char = '/')) (text ++ ['/']) = text := by
  unfold rstrip
  rw [List.reverse_append, List.reverse_singleton, List.singleton_append,
    List.dropWhile_cons_of_pos (by simp)]
  cases hText : text.reverse with
  | nil => simp [List.reverse_eq_nil_iff.mp hText]
  | cons last rest =>
      have hNot : last ≠ '/' := by
        intro hSlash
        rw [List.getLast?_eq_head?_reverse, hText, List.head?_cons, hSlash] at hLast
        exact hLast rfl
      rw [List.dropWhile_cons_of_neg (by simpa using hNot), ← hText, List.reverse_reverse]

theorem rpartitionHead_append {text name : Text} (hName : '/' ∉ name) :
    rpartitionHead (text ++ '/' :: name) = text := by
  unfold rpartitionHead
  rw [List.reverse_append, List.reverse_cons, List.append_assoc, List.singleton_append,
    List.dropWhile_append_of_pos, List.dropWhile_cons_of_neg (by simp)]
  · simp
  · intro char hChar
    rw [List.mem_reverse] at hChar
    simp only [ne_eq, decide_eq_true_eq]
    rintro rfl
    exact hName hChar

theorem getParentPath_render {parent : List Text} {name : Text}
    (hPlain : Plain (parent ++ [name])) :
    getParentPath (render (parent ++ [name])) = render parent := by
  obtain ⟨hName, hSlash⟩ := hPlain name (by simp)
  unfold getParentPath
  simp only [normalizeFolderPath_render]
  rw [if_neg fun hRoot => by simp [render_eq_root_iff] at hRoot]
  obtain ⟨start, hStart⟩ := List.getLast?_eq_some_iff.mp (getLast?_render parent)
  have hText : render (parent ++ [name]) = (start ++ '/' :: name) ++ ['/'] := by
    rw [render_concat, hStart]
    simp
  have hLast : (start ++ '/' :: name).getLast? ≠ some '/' := by
    intro hEnd
    obtain ⟨init, hInit⟩ := List.getLast?_eq_some_iff.mp hEnd
    cases name using List.reverseRecOn with
    | nil => exact hName rfl
    | append_singleton name last _ =>
        rw [← List.cons_append, ← List.append_assoc] at hInit
        obtain ⟨-, hEq⟩ := List.append_inj' hInit rfl
        exact hSlash (by simp [List.cons.inj hEq])
  rw [hText, rstrip_append_slash hLast, rpartitionHead_append hSlash, hStart]
  split
  · rename_i hNil
    rw [hNil, List.nil_append]
  · rfl

theorem normalizeFolderName_ok {name normalizedName : Text}
    (hName : normalizeFolderName name = .ok normalizedName) :
    normalizedName ≠ [] ∧ '/' ∉ normalizedName := by
  unfold normalizeFolderName at hName
  simp only at hName
  split at hName
  · cases hName
  · rename_i hNonempty
    split at hName
    · cases hName
    · rename_i hSlash
      cases hName
      exact ⟨hNonempty, hSlash⟩

/-! ## The tree of a workspace -/

section Tree

variable (workspaceId : UUID)

/-- The segments of the folders of a workspace. -/
def Database.nodes (db : Database) : Set (List Text) :=
  {segments | Plain segments ∧ ∃ folder ∈ db.folders,
    folder.workspaceId = workspaceId ∧ folder.path = render segments}

/-- The folders of a workspace spell a tree. -/
structure Database.Materialized (db : Database) : Prop where
  constraints : db.Constraints
  rendered : ∀ folder ∈ db.folders, folder.workspaceId = workspaceId →
    ∃ parent, Plain (parent ++ [folder.name]) ∧ folder.path = render (parent ++ [folder.name])
  rooted : Rooted (db.nodes workspaceId)

variable {workspaceId} {db : Database}

theorem Database.Constraints.folder_eq (hConstraints : db.Constraints)
    {first second : WorkflowFolder} (hFirst : first ∈ db.folders) (hSecond : second ∈ db.folders)
    (hWorkspace : first.workspaceId = second.workspaceId) (hPath : first.path = second.path) :
    first = second :=
  List.inj_on_of_nodup_map hConstraints.2 hFirst hSecond (Prod.ext hWorkspace hPath)

theorem Database.Constraints.folder_eq_of_id (hConstraints : db.Constraints)
    {first second : WorkflowFolder} (hFirst : first ∈ db.folders) (hSecond : second ∈ db.folders)
    (hId : first.id = second.id) : first = second :=
  List.inj_on_of_nodup_map hConstraints.1 hFirst hSecond hId

namespace Database.Materialized

theorem mem_nodes (hTree : db.Materialized workspaceId) {folder : WorkflowFolder}
    (hFolder : folder ∈ db.folders) (hWorkspace : folder.workspaceId = workspaceId) :
    ∃ segments ∈ db.nodes workspaceId, folder.path = render segments := by
  obtain ⟨parent, hPlain, hPath⟩ := hTree.rendered folder hFolder hWorkspace
  exact ⟨_, ⟨hPlain, folder, hFolder, hWorkspace, hPath⟩, hPath⟩

theorem mem_nodes_iff {segments : List Text} (hPlain : Plain segments) :
    segments ∈ db.nodes workspaceId ↔ ∃ folder ∈ db.folders,
      folder.workspaceId = workspaceId ∧ folder.path = render segments :=
  ⟨fun hMem => hMem.2, fun hFolder => ⟨hPlain, hFolder⟩⟩

theorem parent (hTree : db.Materialized workspaceId) {parent : List Text} {name : Text}
    (hMem : parent ++ [name] ∈ db.nodes workspaceId) :
    render parent = ['/'] ∨ ∃ folder ∈ db.folders, folder.workspaceId = workspaceId ∧
      folder.path = render parent := by
  rcases hTree.rooted.parent hMem with rfl | hParent
  · exact Or.inl rfl
  · exact Or.inr hParent.2

end Database.Materialized

/-- The check of a rendered path looks for a node. -/
theorem folderPathExists_render {segments : List Text} (hPlain : Plain segments) :
    WorkflowFolderService.folderPathExists workspaceId db (render segments) = true ↔
      segments ∈ db.nodes workspaceId := by
  unfold WorkflowFolderService.folderPathExists
  simp only [normalizeFolderPath_render]
  rw [Database.Materialized.mem_nodes_iff hPlain]
  simp

theorem isDescendant_iff {path : Text} {folder : WorkflowFolder} :
    WorkflowFolderService.isDescendant workspaceId path folder = true ↔
      folder.workspaceId = workspaceId ∧ path <+: folder.path ∧ folder.path ≠ path := by
  simp [WorkflowFolderService.isDescendant, Sql.startsWith_iff, and_assoc]

theorem getFolder_some {folderId : UUID} {folder : WorkflowFolder}
    (hFolder : WorkflowFolderService.getFolder workspaceId db folderId = some folder) :
    folder ∈ db.folders ∧ folder.workspaceId = workspaceId ∧ folder.id = folderId := by
  have hKey := List.find?_some hFolder
  simp only [decide_eq_true_eq] at hKey
  exact ⟨List.mem_of_find?_eq_some hFolder, hKey⟩

end Tree

end Folders
end Tracecat
