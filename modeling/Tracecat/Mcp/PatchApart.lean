import Tracecat.Mcp.JsonPatch

/-!
# A patch leaves the caller's objects alone

Whatever the document and the values of a patch share with one another, the patch
writes to copies only: what is reachable from the copy of the document never refers
back to an object of the caller.
-/

namespace Tracecat

namespace JsonPatch

open CellHeap Stateful

variable {α β X : Type}

/-! ## Children after a change -/

theorem childAt_mem (node : JsonNode α X) (slot : Fin node.shape.children.length) :
    node.childAt slot ∈ node.children :=
  List.mem_of_getElem? (node.getElem?_childAt slot)

theorem mem_setChild {node : JsonNode α X} {position : Nat} {value child : X}
    (hChild : child ∈ (node.setChild position value).children) :
    child = value ∨ child ∈ node.children := by
  rw [JsonNode.children_setChild] at hChild
  exact (List.mem_or_eq_of_mem_set hChild).symm

theorem mem_containerReplace {path token : String} {node changed : JsonNode α X} {value child : X}
    (hChange : containerReplace path token value node = .ok changed)
    (hChild : child ∈ changed.children) : child = value ∨ child ∈ node.children := by
  rw [containerReplace] at hChange
  cases hSlot : childSlot path node.shape token with
  | error error => rw [hSlot] at hChange; cases hChange
  | ok slot =>
      rw [hSlot] at hChange
      cases hChange
      exact mem_setChild hChild

theorem mem_containerRemove {path token : String} {node changed : JsonNode α X} {gone : X}
    (hChange : containerRemove path token node = .ok (gone, changed)) :
    gone ∈ node.children ∧ changed.children ⊆ node.children := by
  rw [containerRemove] at hChange
  cases hSlot : childSlot path node.shape token with
  | error error => rw [hSlot] at hChange; cases hChange
  | ok slot =>
      rw [hSlot] at hChange
      cases hChange
      refine ⟨childAt_mem node slot, ?_⟩
      rw [JsonNode.children_removeChild]
      exact (List.eraseIdx_sublist _ _).subset

theorem mem_containerAdd {path token : String} {node changed : JsonNode α X} {value child : X}
    (hChange : containerAdd path token value node = .ok changed)
    (hChild : child ∈ changed.children) : child = value ∨ child ∈ node.children := by
  cases node with
  | atom => cases hChange
  | list items =>
      rw [containerAdd] at hChange
      cases hIndex : jsonPointerArrayIndex token items.length true with
      | error error => rw [hIndex] at hChange; cases hChange
      | ok index =>
          rw [hIndex] at hChange
          cases hChange
          exact List.eq_or_mem_of_mem_insertIdx hChild
  | dict entries =>
      rw [containerAdd] at hChange
      cases hPosition : JsonNode.position? entries token with
      | some position =>
          rw [hPosition] at hChange
          cases hChange
          exact mem_setChild hChild
      | none =>
          rw [hPosition] at hChange
          cases hChange
          simp only [JsonNode.appendEntry, JsonNode.children, List.map_append, List.mem_append,
            List.map_cons, List.map_nil, List.mem_singleton] at hChild
          exact hChild.symm

/-! ## The objects of the caller -/

/-- The objects of the caller are as they were, and the others do not refer to them. -/
structure Apart (start heap : CellHeap α) : Prop where
  length_le : start.length ≤ heap.length
  same : ∀ cell, cell < start.length → heap[cell]? = start[cell]?
  closed : ∀ ref cell, start.length ≤ ref → heap[ref]? = some cell →
    ∀ child ∈ cell.children, start.length ≤ child

namespace Apart

variable {start heap : CellHeap α} {ref : Nat}

theorem refl (start : CellHeap α) : Apart start start where
  length_le := le_rfl
  same := fun _ _ => rfl
  closed := by
    intro ref cell hRef hCell
    rw [List.getElem?_eq_none hRef] at hCell
    cases hCell

theorem node_children (hApart : Apart start heap) (hRef : start.length ≤ ref) :
    ∀ child ∈ (heap.node ref).children, start.length ≤ child := by
  rw [CellHeap.node, List.getD_eq_getElem?_getD]
  cases hCell : heap[ref]? with
  | none =>
      intro child hChild
      cases hChild
  | some cell => exact hApart.closed ref cell hRef hCell

theorem follow (hApart : Apart start heap) {path : String} {tokens : List String} {target : Nat}
    (hRef : start.length ≤ ref)
    (hFollow : heap.follow (childSlot path) ref tokens = .ok target) : start.length ≤ target := by
  induction tokens generalizing ref with
  | nil =>
      cases hFollow
      exact hRef
  | cons token tokens ih =>
      rw [CellHeap.follow] at hFollow
      cases hSlot : childSlot path (heap.node ref).shape token with
      | error error => rw [hSlot] at hFollow; cases hFollow
      | ok slot =>
          rw [hSlot] at hFollow
          exact ih (hApart.node_children hRef _ (childAt_mem _ slot)) hFollow

theorem deepcopy (hApart : Apart start heap) (ref : Nat) :
    Apart start (heap.deepcopy ref).2 where
  length_le := by
    rw [CellHeap.deepcopy, List.length_append]
    exact le_trans hApart.length_le (Nat.le_add_right _ _)
  same := fun cell hCell => by
    rw [deepcopy_old ref (lt_of_lt_of_le hCell hApart.length_le), hApart.same cell hCell]
  closed := by
    intro place cell hPlace hCell child hChild
    by_cases hOld : place < heap.length
    · rw [deepcopy_old ref hOld] at hCell
      exact hApart.closed place cell hPlace hCell child hChild
    · obtain ⟨source, rfl⟩ : ∃ source, place = source + heap.length :=
        ⟨place - heap.length, by omega⟩
      rw [deepcopy_new] at hCell
      obtain ⟨original, -, rfl⟩ := Option.map_eq_some_iff.mp hCell
      rw [JsonNode.children_map] at hChild
      obtain ⟨before, -, rfl⟩ := List.mem_map.mp hChild
      exact le_trans hApart.length_le (Nat.le_add_left _ _)

theorem set (hApart : Apart start heap) (hRef : start.length ≤ ref) {changed : JsonNode α Nat}
    (hChanged : ∀ child ∈ changed.children, start.length ≤ child) :
    Apart start (heap.set ref changed) where
  length_le := by
    rw [List.length_set]
    exact hApart.length_le
  same := fun cell hCell => by
    rw [List.getElem?_set_ne (by omega), hApart.same cell hCell]
  closed := by
    intro place cell hPlace hCell
    rw [List.getElem?_set] at hCell
    split_ifs at hCell with hEq hLt
    · cases hCell
      exact hChanged
    · exact hApart.closed place cell hPlace hCell

end Apart

/-! ## The patch -/

section Patch

variable {start : CellHeap α} {document value : Nat} (path : String)
  (hDocument : start.length ≤ document)

theorem deepcopy_ensures (source : Nat) :
    Ensures (Apart start) (deepcopy source : PatchM α Nat) (start.length ≤ ·) := by
  refine Ensures.get.bind fun heap hHeap => ?_
  refine (Ensures.set (hHeap.deepcopy source)).bind fun _ _ => Ensures.pure ?_
  exact le_trans hHeap.length_le (Nat.le_add_left _ _)

include hDocument

theorem jsonPointerGet_ensures :
    Ensures (Apart start) (jsonPointerGet document path : PatchM α Nat) (start.length ≤ ·) := by
  have hTokens : Ensures (Apart start) (lift (decodeJsonPointer path) : PatchM α (List String))
      fun _ => True := Ensures.lift fun _ _ => trivial
  refine hTokens.bind fun tokens _ => Ensures.get.bind fun heap hHeap => Ensures.lift ?_
  exact fun target hTarget => hHeap.follow hDocument hTarget

theorem getParent_ensures :
    Ensures (Apart start) (jsonPointerGetParent document path : PatchM α (Nat × String))
      fun parent => start.length ≤ parent.1 := by
  have hTokens : Ensures (Apart start) (lift (decodeJsonPointer path) : PatchM α (List String))
      fun _ => True := Ensures.lift fun _ _ => trivial
  refine hTokens.bind fun tokens _ => ?_
  cases tokens.getLast? with
  | none => exact Ensures.throw _
  | some token =>
      refine Ensures.get.bind fun heap hHeap => ?_
      have hFollow : Ensures (Apart start)
          (lift (heap.follow (childSlot path) document tokens.dropLast) : PatchM α Nat)
          (start.length ≤ ·) := Ensures.lift fun target hTarget => hHeap.follow hDocument hTarget
      refine hFollow.bind fun parent hParent => ?_
      split
      · exact Ensures.pure hParent
      · exact Ensures.throw _

theorem changeParent_ensures {Q : β → Prop}
    {change : String → JsonNode α Nat → Except PatchError (β × JsonNode α Nat)}
    (hChange : ∀ {token node result changed}, (∀ child ∈ node.children, start.length ≤ child) →
      change token node = .ok (result, changed) →
      Q result ∧ ∀ child ∈ changed.children, start.length ≤ child) :
    Ensures (Apart start) (changeParent document path change) Q := by
  refine (getParent_ensures path hDocument).bind fun parent hParent => ?_
  refine Ensures.get.bind fun heap hHeap => ?_
  have hOutcome : Ensures (Apart start)
      (lift (change parent.2 (heap.node parent.1)) : PatchM α (β × JsonNode α Nat))
      fun outcome => Q outcome.1 ∧ ∀ child ∈ outcome.2.children, start.length ≤ child :=
    Ensures.lift fun outcome hOutcome => hChange (hHeap.node_children hParent) hOutcome
  refine hOutcome.bind fun outcome hOutcome => ?_
  exact (Ensures.set (hHeap.set hParent hOutcome.2)).bind fun _ _ => Ensures.pure hOutcome.1

theorem jsonPointerAdd_ensures (hValue : start.length ≤ value) :
    Ensures (Apart start) (jsonPointerAdd document path value : PatchM α Unit) fun _ => True := by
  refine changeParent_ensures path hDocument fun {token node result changed} hNode hAdd => ?_
  refine ⟨trivial, fun child hChild => ?_⟩
  cases hEq : containerAdd path token value node with
  | error error => rw [hEq] at hAdd; cases hAdd
  | ok added =>
      rw [hEq] at hAdd
      cases hAdd
      rcases mem_containerAdd hEq hChild with rfl | hOld
      · exact hValue
      · exact hNode child hOld

theorem jsonPointerReplace_ensures (hValue : start.length ≤ value) :
    Ensures (Apart start) (jsonPointerReplace document path value : PatchM α Unit)
      fun _ => True := by
  refine changeParent_ensures path hDocument fun {token node result changed} hNode hReplace => ?_
  refine ⟨trivial, fun child hChild => ?_⟩
  cases hEq : containerReplace path token value node with
  | error error => rw [hEq] at hReplace; cases hReplace
  | ok replaced =>
      rw [hEq] at hReplace
      cases hReplace
      rcases mem_containerReplace hEq hChild with rfl | hOld
      · exact hValue
      · exact hNode child hOld

theorem jsonPointerRemove_ensures :
    Ensures (Apart start) (jsonPointerRemove document path : PatchM α Nat) (start.length ≤ ·) := by
  refine changeParent_ensures path hDocument fun {token node result changed} hNode hRemove => ?_
  obtain ⟨hGone, hKept⟩ := mem_containerRemove hRemove
  exact ⟨hNode _ hGone, fun child hChild => hNode child (hKept hChild)⟩

theorem applyOperation_ensures (atomEqual : α → α → Bool) (patchOp : JsonPatchOperation Nat) :
    Ensures (Apart start) (applyOperation atomEqual document patchOp) fun _ => True := by
  obtain ⟨op, path, from_, given⟩ := patchOp
  cases op with
  | add =>
      cases given with
      | none => exact Ensures.throw _
      | some source =>
          exact (deepcopy_ensures source).bind fun copied hCopied =>
            jsonPointerAdd_ensures path hDocument hCopied
  | remove =>
      exact (jsonPointerRemove_ensures path hDocument).bind fun _ _ => Ensures.pure trivial
  | replace =>
      cases given with
      | none => exact Ensures.throw _
      | some source =>
          exact (deepcopy_ensures source).bind fun copied hCopied =>
            jsonPointerReplace_ensures path hDocument hCopied
  | move =>
      cases from_ with
      | none => exact Ensures.throw _
      | some source =>
          exact (jsonPointerRemove_ensures source hDocument).bind fun moved hMoved =>
            jsonPointerAdd_ensures path hDocument hMoved
  | copy =>
      cases from_ with
      | none => exact Ensures.throw _
      | some source =>
          exact (jsonPointerGet_ensures source hDocument).bind fun found _ =>
            (deepcopy_ensures found).bind fun copied hCopied =>
              jsonPointerAdd_ensures path hDocument hCopied
  | test =>
      cases given with
      | none => exact Ensures.throw _
      | some expected =>
          refine (jsonPointerGet_ensures path hDocument).bind fun current _ => ?_
          have hEqual : Ensures (Apart start) (equal atomEqual current expected) fun _ => True := by
            refine Ensures.get.bind fun heap _ => ?_
            split
            · exact Ensures.pure trivial
            · exact Ensures.throw _
          refine hEqual.bind fun same _ => ?_
          split
          · exact Ensures.pure trivial
          · exact Ensures.throw _

omit hDocument in
/-- A patch writes to no object of the caller, whether it succeeds or not. -/
theorem applyJsonPatchOperations_apart (atomEqual : α → α → Bool) (start : CellHeap α)
    (document : Nat) (patchOps : List (JsonPatchOperation Nat)) :
    Apart start (exec (applyJsonPatchOperations atomEqual document patchOps) start).2 := by
  have hPatch : Ensures (Apart start) (applyJsonPatchOperations atomEqual document patchOps)
      fun _ => True := by
    refine (deepcopy_ensures document).bind fun result hResult => ?_
    refine (Ensures.forM fun patchOp _ =>
      applyOperation_ensures hResult atomEqual patchOp).bind fun _ _ => Ensures.pure trivial
  exact (hPatch start (Apart.refl start)).1

end Patch

end JsonPatch

end Tracecat
