import Mathlib.Data.List.Infix
import Mathlib.Data.Set.Function

/-!
# Trees as sets of paths

A tree whose nodes are named by their paths from a root that is no node itself.
The parent of a node is the root or a node.  The file has what an insertion, the
removal of a subtree and the move of a subtree leave of such a set.
-/

namespace Tracecat
namespace PathTree

variable {α : Type*}

/-- Every node is at the root or below a node. -/
structure Rooted (nodes : Set (List α)) : Prop where
  root : [] ∉ nodes
  parent : ∀ {path last}, path ++ [last] ∈ nodes → path = [] ∨ path ∈ nodes

section Move

variable [DecidableEq α]

/-- The path of a node after the subtree at `old` has moved to `new`. -/
def relocate (old new path : List α) : List α :=
  if old <+: path then new ++ path.drop old.length else path

theorem relocate_append (old new rest : List α) : relocate old new (old ++ rest) = new ++ rest := by
  simp [relocate]

theorem relocate_of_outside {old path : List α} (new : List α) (hOutside : ¬ old <+: path) :
    relocate old new path = path :=
  if_neg hOutside

end Move

namespace Rooted

variable {nodes : Set (List α)} {old new parent path : List α} {last : α}

theorem mem_of_prefix (hTree : Rooted nodes) (hPath : path ≠ []) {below : List α}
    (hPrefix : path <+: below) (hBelow : below ∈ nodes) : path ∈ nodes := by
  obtain ⟨rest, rfl⟩ := hPrefix
  induction rest using List.reverseRecOn with
  | nil => simpa using hBelow
  | append_singleton rest last ih =>
      rw [← List.append_assoc] at hBelow
      rcases hTree.parent hBelow with hRoot | hAbove
      · exact absurd (List.append_eq_nil_iff.mp hRoot).1 hPath
      · exact ih hAbove

theorem append_notMem (hTree : Rooted nodes) (hNew : new ≠ []) (hFresh : new ∉ nodes)
    (rest : List α) : new ++ rest ∉ nodes :=
  fun hMem => hFresh (hTree.mem_of_prefix hNew (List.prefix_append _ _) hMem)

theorem insert (hTree : Rooted nodes) (hParent : parent = [] ∨ parent ∈ nodes) (last : α) :
    Rooted (Insert.insert (parent ++ [last]) nodes) := by
  refine ⟨?_, fun {path final} hMem => ?_⟩
  · rw [Set.mem_insert_iff, not_or]
    exact ⟨by simp, hTree.root⟩
  · rw [Set.mem_insert_iff] at hMem ⊢
    rcases hMem with hNew | hOld
    · obtain ⟨rfl, -⟩ := List.append_inj' hNew rfl
      exact hParent.imp_right Or.inr
    · exact (hTree.parent hOld).imp_right Or.inr

theorem prune (hTree : Rooted nodes) (top : List α) :
    Rooted {path | path ∈ nodes ∧ ¬ top <+: path} := by
  refine ⟨fun hMem => hTree.root hMem.1, fun {path last} hMem => ?_⟩
  refine (hTree.parent hMem.1).imp_right fun hPath => ⟨hPath, fun hTop => hMem.2 ?_⟩
  exact hTop.trans (List.prefix_append _ _)

/-- What does not move onto itself has moved out of its subtree. -/
theorem not_prefix_new (hOld : old ∈ nodes) (hFresh : parent ++ [last] ∉ nodes)
    (hOutside : ¬ old <+: parent) : ¬ old <+: parent ++ [last] := by
  intro hPrefix
  rcases List.prefix_concat_iff.mp hPrefix with rfl | hAbove
  · exact hFresh hOld
  · exact hOutside hAbove

variable [DecidableEq α]

/-- A moved subtree leaves a tree, when it has moved to a path that was free, in
a place outside itself. -/
theorem move (hTree : Rooted nodes) (hOld : old ∈ nodes) (hParent : parent = [] ∨ parent ∈ nodes)
    (hOutside : ¬ old <+: parent) (last : α) :
    Rooted (relocate old (parent ++ [last]) '' nodes) := by
  refine ⟨?_, fun {path final} hMem => ?_⟩
  · rintro ⟨node, hNode, hEq⟩
    unfold relocate at hEq
    split at hEq
    · simp at hEq
    · exact hTree.root (hEq ▸ hNode)
  · obtain ⟨node, hNode, hEq⟩ := hMem
    by_cases hInside : old <+: node
    · obtain ⟨rest, rfl⟩ := hInside
      rw [relocate_append] at hEq
      cases rest using List.reverseRecOn with
      | nil =>
          -- the node is the top of the subtree: its new parent has not moved
          rw [List.append_nil] at hEq
          obtain ⟨rfl, -⟩ := List.append_inj' hEq rfl
          refine hParent.imp_right fun hMem => ⟨_, hMem, relocate_of_outside _ hOutside⟩
      | append_singleton rest inner =>
          rw [← List.append_assoc] at hEq hNode
          obtain ⟨rfl, -⟩ := List.append_inj' hEq rfl
          rcases hTree.parent hNode with hRoot | hAbove
          · exact absurd ((List.append_eq_nil_iff.mp hRoot).1 ▸ hOld) hTree.root
          · exact Or.inr ⟨_, hAbove, relocate_append _ _ _⟩
    · rw [relocate_of_outside _ hInside] at hEq
      subst hEq
      refine (hTree.parent hNode).imp_right fun hAbove => ⟨path, hAbove, ?_⟩
      exact relocate_of_outside _ fun hPrefix => hInside (hPrefix.trans (List.prefix_append _ _))

/-- No two nodes meet when a subtree moves to a free path. -/
theorem relocate_injOn (hTree : Rooted nodes) (hNew : new ≠ []) (hFresh : new ∉ nodes) :
    Set.InjOn (relocate old new) nodes := by
  intro first hFirst second hSecond hEq
  by_cases hFirstIn : old <+: first
  · obtain ⟨rest, rfl⟩ := hFirstIn
    rw [relocate_append] at hEq
    by_cases hSecondIn : old <+: second
    · obtain ⟨rest', rfl⟩ := hSecondIn
      rw [relocate_append] at hEq
      rw [List.append_cancel_left hEq]
    · rw [relocate_of_outside _ hSecondIn] at hEq
      exact absurd (hEq ▸ hSecond) (hTree.append_notMem hNew hFresh rest)
  · rw [relocate_of_outside _ hFirstIn] at hEq
    by_cases hSecondIn : old <+: second
    · obtain ⟨rest', rfl⟩ := hSecondIn
      rw [relocate_append] at hEq
      exact absurd (hEq ▸ hFirst) (hTree.append_notMem hNew hFresh rest')
    · rwa [relocate_of_outside _ hSecondIn] at hEq

end Rooted
end PathTree
end Tracecat
