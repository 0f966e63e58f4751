import Tracecat.Mcp.JsonPatch

/-!
# Patches in the heap and on documents

The patch in place and the patch of the document as a value are the same: as long as
the document in the heap shares no part with itself, every operation raises the same
error in both, or leaves in the heap the document that it makes of the value.
-/

namespace Tracecat

namespace JsonPatch

open CellHeap Stateful

variable {α β γ X Y : Type}

/-! ## Containers -/

theorem position?_eq_keys (entries : List (String × X)) (key : String) :
    JsonNode.position? entries key = (entries.map Prod.fst).findIdx? (· == key) := by
  rw [List.findIdx?_map]
  rfl

theorem keys_of_shape {entries : List (String × X)} {others : List (String × Y)}
    (hShape : (JsonNode.dict entries : JsonNode α X).shape = (JsonNode.dict others).shape) :
    entries.map Prod.fst = others.map Prod.fst := by
  have hEq := congrArg (List.map Prod.fst) (JsonNode.dict.inj hShape)
  simpa [List.map_map, Function.comp_def] using hEq

section Slot

variable {path token : String} {node : JsonNode α X} {shape : JsonNode α Unit}
  (hShape : node.shape = shape)

include hShape

theorem containerRemove_error {error : PatchError} (hSlot : childSlot path shape token = .error error) :
    containerRemove path token node = .error error := by
  subst hShape
  rw [containerRemove, hSlot]
  rfl

theorem containerRemove_ok {slot : Fin shape.children.length} {child : X}
    (hSlot : childSlot path shape token = .ok slot) (hChild : node.children[slot.val]? = some child) :
    containerRemove path token node = .ok (child, node.removeChild slot) := by
  subst hShape
  rw [node.getElem?_childAt slot] at hChild
  cases hChild
  rw [containerRemove, hSlot]
  rfl

theorem containerReplace_error {error : PatchError} (value : X)
    (hSlot : childSlot path shape token = .error error) :
    containerReplace path token value node = .error error := by
  subst hShape
  rw [containerReplace, hSlot]
  rfl

theorem containerReplace_ok {slot : Fin shape.children.length} (value : X)
    (hSlot : childSlot path shape token = .ok slot) :
    containerReplace path token value node = .ok (node.setChild slot value) := by
  subst hShape
  rw [containerReplace, hSlot]
  rfl

end Slot

theorem containerAdd_list (path token : String) (value : X) (items : List X) :
    containerAdd path token value (.list items : JsonNode α X) =
      ((jsonPointerArrayIndex token items.length true).map Fin.val).map fun index =>
        .list (items.insertIdx index value) := by
  rw [containerAdd]
  cases jsonPointerArrayIndex token items.length true <;> rfl

/-- What a change makes of a container in the heap and of the container as a value: both
raise, or both change in the same way, and the cells that are kept and those of the child
that is gone lie within the bound. -/
inductive Changed (heap : CellHeap α) (bound : Multiset Nat)
    (R : β → γ → Multiset Nat → Prop) :
    Except PatchError (β × JsonNode α Nat) → Except PatchError (γ × JsonNode α (JsonTree α)) → Prop
  | error (error : PatchError) : Changed heap bound R (.error error) (.error error)
  | ok {value : β} {result : γ} {cell : JsonNode α Nat} {found : JsonNode α (JsonTree α)}
      {kept gone : Multiset Nat} (hShape : cell.shape = found.shape)
      (hChildren : HoldsAll heap cell.children found.children kept) (hResult : R value result gone)
      (hBound : kept + gone ≤ bound) : Changed heap bound R (.ok (value, cell)) (.ok (result, found))

/-- Nothing is returned, and no child is gone. -/
def Silent (_ _ : Unit) (gone : Multiset Nat) : Prop := gone = 0

/-- A reference to the child that is gone, and the child. -/
def Removed (heap : CellHeap α) (ref : Nat) (tree : JsonTree α) (gone : Multiset Nat) : Prop :=
  Holds heap ref tree gone

section Containers

variable {heap : CellHeap α} {cell : JsonNode α Nat} {found : JsonNode α (JsonTree α)}
  {below own : Multiset Nat} {ref : Nat} {tree : JsonTree α} (path token : String)
  (hShape : cell.shape = found.shape)
  (hChildren : HoldsAll heap cell.children found.children below)

include hChildren

theorem slot_children (slot : Fin found.shape.children.length) :
    slot.val < cell.children.length ∧ slot.val < found.children.length := by
  have hSlot : slot.val < found.children.length := by
    rw [← found.length_children_shape]
    exact slot.isLt
  exact ⟨by rwa [hChildren.length_eq], hSlot⟩

include hShape

theorem containerRemove_changed :
    Changed heap (below + 0) (Removed heap) (containerRemove path token cell)
      (containerRemove path token found) := by
  cases hSlot : childSlot path found.shape token with
  | error error =>
      rw [containerRemove_error hShape hSlot, containerRemove_error rfl hSlot]
      exact .error error
  | ok slot =>
      obtain ⟨hRefs, hFound⟩ := slot_children hChildren slot
      have hRef := List.getElem?_eq_getElem hRefs
      have hTree := List.getElem?_eq_getElem hFound
      rw [containerRemove_ok hShape hSlot hRef, containerRemove_ok rfl hSlot hTree]
      obtain ⟨gone, kept, hGone, hKept, rfl⟩ := hChildren.eraseIdx hTree hRef
      have hRow : HoldsAll heap (cell.removeChild slot).children (found.removeChild slot).children
          kept := by
        rw [JsonNode.children_removeChild, JsonNode.children_removeChild]
        exact hKept
      refine .ok (JsonNode.shape_removeChild hShape _) hRow hGone ?_
      rw [add_zero, add_comm]

theorem setChild_changed (slot : Fin found.shape.children.length)
    (hValue : Holds heap ref tree own) :
    Changed heap (below + own) Silent (.ok ((), cell.setChild slot ref))
      (.ok ((), found.setChild slot tree)) := by
  obtain ⟨hRefs, hFound⟩ := slot_children hChildren slot
  obtain ⟨old, kept, -, hKept, rfl⟩ :=
    hChildren.eraseIdx (List.getElem?_eq_getElem hFound) (List.getElem?_eq_getElem hRefs)
  have hRow : HoldsAll heap (cell.setChild slot ref).children (found.setChild slot tree).children
      (own + kept) := by
    rw [JsonNode.children_setChild, JsonNode.children_setChild]
    exact hKept.set hValue hRefs hFound
  refine .ok ?_ hRow rfl ?_
  · rw [JsonNode.shape_setChild, JsonNode.shape_setChild, hShape]
  · rw [add_zero, add_assoc, add_comm own kept]
    exact Multiset.le_add_left _ _

theorem containerReplace_changed (hValue : Holds heap ref tree own) :
    Changed heap (below + own) Silent
      ((fun changed => ((), changed)) <$> containerReplace path token ref cell)
      ((fun changed => ((), changed)) <$> containerReplace path token tree found) := by
  cases hSlot : childSlot path found.shape token with
  | error error =>
      rw [containerReplace_error hShape ref hSlot, containerReplace_error rfl tree hSlot]
      exact .error error
  | ok slot =>
      rw [containerReplace_ok hShape ref hSlot, containerReplace_ok rfl tree hSlot]
      exact setChild_changed hShape hChildren slot hValue

theorem containerAdd_changed (hValue : Holds heap ref tree own) :
    Changed heap (below + own) Silent
      ((fun changed => ((), changed)) <$> containerAdd path token ref cell)
      ((fun changed => ((), changed)) <$> containerAdd path token tree found) := by
  cases cell with
  | atom value =>
      cases found with
      | atom => exact .error _
      | list => cases hShape
      | dict => cases hShape
  | list items =>
      cases found with
      | atom => cases hShape
      | dict => cases hShape
      | list others =>
          have hLength : items.length = others.length := hChildren.length_eq
          rw [containerAdd_list, containerAdd_list, hLength]
          cases hIndex : jsonPointerArrayIndex token others.length true with
          | error error => exact .error error
          | ok index =>
              have hRow := hChildren.insertIdx hValue (Nat.le_of_lt_succ index.isLt)
              exact .ok (JsonNode.shape_insertChild hShape index ref tree) hRow rfl
                (by rw [add_zero, add_comm])
  | dict entries =>
      cases found with
      | atom => cases hShape
      | list => cases hShape
      | dict others =>
          have hKeys := keys_of_shape hShape
          have hPosition : JsonNode.position? entries token = JsonNode.position? others token := by
            rw [position?_eq_keys, position?_eq_keys, hKeys]
          simp only [containerAdd, hPosition]
          cases hOther : JsonNode.position? others token with
          | some position =>
              obtain ⟨hLt, -⟩ := List.findIdx?_eq_some_iff_findIdx_eq.mp hOther
              have hSlot : position < (JsonNode.dict others : JsonNode α _).shape.children.length := by
                rw [JsonNode.length_children_shape, JsonNode.children, List.length_map]
                exact hLt
              exact setChild_changed hShape hChildren ⟨position, hSlot⟩ hValue
          | none =>
              have hRow := hChildren.insertIdx hValue le_rfl
              rw [List.insertIdx_length_self] at hRow
              have hEnd := hChildren.length_eq
              rw [← hEnd, List.insertIdx_length_self] at hRow
              refine .ok (JsonNode.shape_appendEntry hShape token ref tree) ?_ rfl
                (by rw [add_zero, add_comm] : own + below + 0 ≤ below + own)
              simpa [JsonNode.appendEntry, JsonNode.children] using hRow

end Containers

theorem isContainer_shape (node : JsonNode α X) : isContainer node.shape = isContainer node := by
  cases node <;> rfl

/-! ## Locations -/

section Parents

variable {path token : String} {tokens : List String}

theorem locateParent_eq (tree : JsonTree α) (hDecode : decodeJsonPointer path = .ok tokens)
    (hLast : tokens.getLast? = some token) :
    locateParent path tree = (tree.locate (childSlot path) tokens.dropLast).bind fun focus =>
      if isContainer focus.1 then .ok (token, focus.1, focus.2) else .error (.notFound path) := by
  simp only [locateParent, hDecode, bind, Except.bind, hLast]
  rfl

theorem exec_getParent (heap : CellHeap α) (document : Nat)
    (hDecode : decodeJsonPointer path = .ok tokens) (hLast : tokens.getLast? = some token) :
    exec (jsonPointerGetParent document path) heap =
      ((heap.follow (childSlot path) document tokens.dropLast).bind fun parent =>
        if isContainer (heap.node parent) then .ok (parent, token) else .error (.notFound path),
      heap) := by
  rw [jsonPointerGetParent, hDecode, exec_bind_ok (exec_lift _ _)]
  simp only [hLast]
  rw [exec_bind_ok (exec_get _)]
  cases hFollow : heap.follow (childSlot path) document tokens.dropLast with
  | error error => exact exec_bind_error (exec_lift _ _)
  | ok parent =>
      rw [exec_bind_ok (exec_lift _ _)]
      cases hContainer : isContainer (heap.node parent)
      · simp only [Except.bind, hContainer]
        exact exec_throw _ _
      · simp only [Except.bind, hContainer]
        exact exec_pure _ _

theorem getParent_root (heap : CellHeap α) (document : Nat) (tree : JsonTree α)
    (hDecode : decodeJsonPointer path = .ok tokens) (hLast : tokens.getLast? = none) :
    exec (jsonPointerGetParent document path) heap = (.error .root, heap) ∧
      locateParent path tree = .error .root := by
  constructor
  · rw [jsonPointerGetParent, hDecode, exec_bind_ok (exec_lift _ _)]
    simp only [hLast]
    exact exec_throw _ _
  · simp only [locateParent, hDecode, bind, Except.bind, hLast]
    rfl

end Parents

section Locations

variable {heap : CellHeap α} {document : Nat} {tree : JsonTree α} {cells own : Multiset Nat}
  (hHolds : Holds heap document tree cells) (path : String)

include hHolds

/-- A pointer leads to the same node in the heap and in the document, or both raise. -/
theorem jsonPointerGet_focus :
    (∃ error, exec (jsonPointerGet document path) heap = (.error error, heap) ∧
        getValue path tree = .error error) ∨
      ∃ target found plug cell below outside,
        exec (jsonPointerGet document path) heap = (.ok target, heap) ∧
          getValue path tree = .ok (.node found) ∧
          Focus heap document cells target found plug cell below outside := by
  rw [jsonPointerGet, getValue]
  cases hDecode : decodeJsonPointer path with
  | error error =>
      exact .inl ⟨error, exec_bind_error (exec_lift _ _), rfl⟩
  | ok tokens =>
      rw [exec_bind_ok (exec_lift _ _), exec_bind_ok (exec_get _), exec_lift]
      rcases hHolds.focus (childSlot path) tokens with ⟨error, hFollow, hLocate⟩ |
        ⟨target, found, plug, cell, below, outside, hFollow, hLocate, hFocus⟩
      · refine .inl ⟨error, by rw [hFollow], ?_⟩
        change (tree.locate (childSlot path) tokens).bind _ = _
        rw [hLocate]
        rfl
      · refine .inr ⟨target, found, plug, cell, below, outside, by rw [hFollow], ?_, hFocus⟩
        change (tree.locate (childSlot path) tokens).bind _ = _
        rw [hLocate]
        rfl

theorem getParent_focus :
    (∃ error, exec (jsonPointerGetParent document path) heap = (.error error, heap) ∧
        locateParent path tree = .error error) ∨
      ∃ target token found plug cell below outside,
        exec (jsonPointerGetParent document path) heap = (.ok (target, token), heap) ∧
          locateParent path tree = .ok (token, found, plug) ∧
          Focus heap document cells target found plug cell below outside := by
  cases hDecode : decodeJsonPointer path with
  | error error =>
      refine .inl ⟨error, ?_, ?_⟩
      · rw [jsonPointerGetParent, hDecode]
        exact exec_bind_error (exec_lift _ _)
      · rw [locateParent, hDecode]
        rfl
  | ok tokens =>
      cases hLast : tokens.getLast? with
      | none => exact .inl ⟨.root, getParent_root heap document tree hDecode hLast⟩
      | some token =>
          rw [exec_getParent heap document hDecode hLast, locateParent_eq tree hDecode hLast]
          rcases hHolds.focus (childSlot path) tokens.dropLast with
            ⟨error, hFollow, hLocate⟩ |
            ⟨target, found, plug, cell, below, outside, hFollow, hLocate, hFocus⟩
          · exact .inl ⟨error, by rw [hFollow]; rfl, by rw [hLocate]; rfl⟩
          · rw [hFollow, hLocate]
            have hContainer : isContainer (heap.node target) = isContainer found := by
              rw [node_eq hFocus.cell_eq, ← isContainer_shape, hFocus.shape_eq, isContainer_shape]
            simp only [Except.bind, hContainer]
            cases isContainer found
            · exact .inl ⟨.notFound path, rfl, rfl⟩
            · exact .inr ⟨target, token, found, plug, cell, below, outside, rfl, rfl, hFocus⟩

end Locations

/-! ## Changes -/

/-- What a change of a parent makes of the heap and of the document: both raise and the
heap stays, or the changed document lies in the heap, in cells of its own. -/
inductive Ran (heap : CellHeap α) (document : Nat) (cells bound : Multiset Nat)
    (R : β → γ → Multiset Nat → Prop) :
    Except PatchError β × CellHeap α → Except PatchError (γ × JsonTree α) → Prop
  | error (error : PatchError) : Ran heap document cells bound R (.error error, heap) (.error error)
  | ok {other : CellHeap α} {value : β} {result : γ} {tree : JsonTree α}
      {kept gone : Multiset Nat} (hLength : other.length = heap.length)
      (hSame : ∀ cell, cell ∉ cells → other[cell]? = heap[cell]?)
      (hGone : ∀ cell ∈ gone, other[cell]? = heap[cell]?)
      (hHolds : Holds other document tree kept) (hResult : R value result gone)
      (hBound : kept + gone ≤ bound) :
      Ran heap document cells bound R (.ok value, other) (.ok (result, tree))

theorem changeParent_ran {heap : CellHeap α} {document : Nat} {tree : JsonTree α}
    {cells own : Multiset Nat} {R : β → γ → Multiset Nat → Prop}
    {changeCell : String → JsonNode α Nat → Except PatchError (β × JsonNode α Nat)}
    {changeNode : String → JsonNode α (JsonTree α) →
      Except PatchError (γ × JsonNode α (JsonTree α))}
    (hHolds : Holds heap document tree cells) (hNodup : (cells + own).Nodup) (path : String)
    (hChange : ∀ token {cell found below}, cell.shape = found.shape →
      HoldsAll heap cell.children found.children below →
      Changed heap (below + own) R (changeCell token cell) (changeNode token found)) :
    Ran heap document cells (cells + own) R (exec (changeParent document path changeCell) heap)
      (changeTree path changeNode tree) := by
  rw [changeParent, changeTree]
  rcases getParent_focus hHolds path with ⟨error, hHeap, hTree⟩ |
    ⟨target, token, found, plug, cell, below, outside, hHeap, hTree, hFocus⟩
  · rw [exec_bind_error hHeap, hTree]
    exact .error error
  · rw [exec_bind_ok hHeap, exec_bind_ok (exec_get _), node_eq hFocus.cell_eq, hTree]
    change Ran heap document cells (cells + own) R _ ((changeNode token found).bind _)
    have hChanged := hChange token hFocus.shape_eq hFocus.children
    revert hChanged
    cases hCell : changeCell token cell with
    | error error =>
        intro hChanged
        generalize changeNode token found = outcome at hChanged
        cases hChanged
        rw [exec_bind_error (exec_lift _ _)]
        exact .error error
    | ok outcome =>
        intro hChanged
        generalize hNode : changeNode token found = result at hChanged
        cases hChanged with
        | @ok value result changed node kept gone hShape hChildren hResult hBound =>
            rw [exec_bind_ok (exec_lift _ _), exec_bind_ok (exec_set _ _), exec_pure]
            have hCells := hFocus.cells_eq
            have hTarget : target ∉ below + outside + own := by
              rw [hCells, Multiset.cons_add, Multiset.cons_add, Multiset.nodup_cons] at hNodup
              exact hNodup.1
            -- The cell of the parent is none of those that the change keeps or gives back.
            have hOther : ∀ place ∈ kept + gone, place ≠ target := by
              rintro place hPlace rfl
              have hMem := Multiset.mem_of_le hBound hPlace
              refine hTarget ?_
              rw [Multiset.mem_add] at hMem ⊢
              exact hMem.imp_left fun hBelow => Multiset.mem_add.mpr (.inl hBelow)
            have hSet : ∀ place, place ≠ target →
                (heap.set target changed)[place]? = heap[place]? := fun place hPlace =>
              List.getElem?_set_ne (Ne.symm hPlace)
            have hLt := (List.getElem?_eq_some_iff.mp hFocus.cell_eq).1
            refine .ok List.length_set (fun place hPlace => hSet place ?_)
              (fun place hPlace => hSet place (hOther place (Multiset.mem_add.mpr (.inr hPlace))))
              (hFocus.plugged (fun place hPlace => hSet place ?_) (List.getElem?_set_self hLt) hShape
                (hChildren.congr fun place hPlace =>
                  hSet place (hOther place (Multiset.mem_add.mpr (.inl hPlace))))) hResult ?_
            · rintro rfl
              refine hPlace ?_
              rw [hCells, Multiset.cons_add]
              exact Multiset.mem_cons_self _ _
            · rintro rfl
              exact hTarget (Multiset.mem_add.mpr (.inl (Multiset.mem_add.mpr (.inr hPlace))))
            · calc (target ::ₘ kept) + outside + gone
                  = target ::ₘ (kept + gone + outside) := by
                    rw [Multiset.cons_add, Multiset.cons_add, add_right_comm]
                _ ≤ target ::ₘ (below + own + outside) :=
                    Multiset.cons_le_cons _ (add_le_add_left hBound _)
                _ = cells + own := by
                    rw [hCells, Multiset.cons_add, Multiset.cons_add, add_right_comm]

/-! ## Operations -/

/-- A document lies in a heap in cells that the heap of the caller does not have, and the
cells that it has are as they were. -/
structure Lies (start heap : CellHeap α) (document : Nat) (tree : JsonTree α) : Prop where
  length_le : start.length ≤ heap.length
  same : ∀ cell, cell < start.length → heap[cell]? = start[cell]?
  holds : ∃ cells, Holds heap document tree cells ∧ cells.Nodup ∧
    ∀ cell ∈ cells, start.length ≤ cell

/-- A reference of the caller to a document that shares no part with itself. -/
def ValueAt (start : CellHeap α) (ref : Nat) (tree : JsonTree α) : Prop :=
  ∃ cells, Holds start ref tree cells ∧ cells.Nodup

/-- An operation whose value lies in the heap of the caller, and the operation with the
value itself. -/
structure SameOperation (start : CellHeap α) (patchOp : JsonPatchOperation Nat)
    (treeOp : JsonPatchOperation (JsonTree α)) : Prop where
  op_eq : patchOp.op = treeOp.op
  path_eq : patchOp.path = treeOp.path
  from_eq : patchOp.from_ = treeOp.from_
  value : Option.Rel (ValueAt start) patchOp.value treeOp.value

/-- What an operation leaves: the same error, or the document that it makes. -/
inductive Stepped (start : CellHeap α) (document : Nat) :
    Except PatchError Unit × CellHeap α → Except PatchError (JsonTree α) → Prop
  | error (error : PatchError) (heap : CellHeap α) :
      Stepped start document (.error error, heap) (.error error)
  | ok {heap : CellHeap α} {tree : JsonTree α} (hLies : Lies start heap document tree) :
      Stepped start document (.ok (), heap) (.ok tree)

section Operations

variable {start heap : CellHeap α} {document ref : Nat} {tree value : JsonTree α}
  {cells own : Multiset Nat}

theorem exec_deepcopy (heap : CellHeap α) (ref : Nat) :
    exec (deepcopy ref) heap = (.ok (ref + heap.length), (heap.deepcopy ref).2) := by
  rw [deepcopy, exec_bind_ok (exec_get _), exec_bind_ok (exec_set _ _), exec_pure]
  rfl

theorem stepped_of_ran {run : Except PatchError Unit × CellHeap α}
    {result : Except PatchError (Unit × JsonTree α)} (hLength : start.length ≤ heap.length)
    (hSame : ∀ cell, cell < start.length → heap[cell]? = start[cell]?)
    (hNodup : (cells + own).Nodup) (hCells : ∀ cell ∈ cells + own, start.length ≤ cell)
    (hRan : Ran heap document cells (cells + own) Silent run result) :
    Stepped start document run (Prod.snd <$> result) := by
  cases hRan with
  | error error => exact .error error heap
  | @ok other _ _ tree kept gone hOther hKeep _ hHolds _ hBound =>
      have hKept : kept ≤ cells + own := le_trans (Multiset.le_add_right _ _) hBound
      refine .ok ⟨by omega, fun cell hCell => ?_, kept, hHolds, Multiset.nodup_of_le hKept hNodup,
        fun cell hCell => hCells cell (Multiset.mem_of_le hKept hCell)⟩
      rw [hKeep cell fun hMem => ?_, hSame cell hCell]
      have := hCells cell (Multiset.mem_add.mpr (.inl hMem))
      omega

theorem nodup_copy {source : Multiset Nat} (hNodup : cells.Nodup)
    (hCells : ∀ cell ∈ cells, cell < heap.length) (hSource : source.Nodup) :
    (cells + source.map (· + heap.length)).Nodup := by
  refine Multiset.nodup_add.mpr ⟨hNodup, hSource.map fun _ _ hEq => by simpa using hEq, ?_⟩
  rw [Multiset.disjoint_left]
  intro cell hCell hCopy
  obtain ⟨original, -, rfl⟩ := Multiset.mem_map.mp hCopy
  have := hCells _ hCell
  omega

theorem copied_stepped {code : Nat → PatchM α Unit}
    {result : Except PatchError (Unit × JsonTree α)} {source : Multiset Nat}
    (hLies : Lies start heap document tree) (hValue : Holds heap ref value source)
    (hSource : source.Nodup)
    (hCode : ∀ {heap : CellHeap α} {ref : Nat} {cells own : Multiset Nat},
      Holds heap document tree cells → Holds heap ref value own → (cells + own).Nodup →
      Ran heap document cells (cells + own) Silent (exec (code ref) heap) result) :
    Stepped start document (exec (deepcopy ref >>= code) heap) (Prod.snd <$> result) := by
  obtain ⟨cells, hHolds, hNodup, hCells⟩ := hLies.holds
  have hNew := nodup_copy hNodup hHolds.lt_length hSource
  have hOld : ∀ cell, cell < heap.length → (heap.deepcopy ref).2[cell]? = heap[cell]? :=
    fun cell hCell => deepcopy_old ref hCell
  rw [exec_bind_ok (exec_deepcopy heap ref)]
  have hLength : heap.length ≤ (heap.deepcopy ref).2.length := by
    rw [CellHeap.deepcopy, List.length_append]
    exact Nat.le_add_right _ _
  refine stepped_of_ran (le_trans hLies.length_le hLength) (fun cell hCell => ?_) hNew ?_
    (hCode (hHolds.congr fun cell hCell => hOld cell (hHolds.lt_length cell hCell))
      (hValue.deepcopy ref) hNew)
  · rw [hOld cell (lt_of_lt_of_le hCell hLies.length_le), hLies.same cell hCell]
  · intro cell hCell
    rcases Multiset.mem_add.mp hCell with hCell | hCell
    · exact hCells cell hCell
    · obtain ⟨original, -, rfl⟩ := Multiset.mem_map.mp hCell
      exact le_trans hLies.length_le (Nat.le_add_left _ _)

theorem jsonPointerAdd_ran (path : String) (hHolds : Holds heap document tree cells)
    (hValue : Holds heap ref value own) (hNodup : (cells + own).Nodup) :
    Ran heap document cells (cells + own) Silent (exec (jsonPointerAdd document path ref) heap)
      (changeTree path (fun token parent =>
        (fun changed => ((), changed)) <$> containerAdd path token value parent) tree) :=
  changeParent_ran hHolds hNodup path fun token {_ _ _} hShape hChildren =>
    containerAdd_changed path token hShape hChildren hValue

theorem jsonPointerReplace_ran (path : String) (hHolds : Holds heap document tree cells)
    (hValue : Holds heap ref value own) (hNodup : (cells + own).Nodup) :
    Ran heap document cells (cells + own) Silent (exec (jsonPointerReplace document path ref) heap)
      (changeTree path (fun token parent =>
        (fun changed => ((), changed)) <$> containerReplace path token value parent) tree) :=
  changeParent_ran hHolds hNodup path fun token {_ _ _} hShape hChildren =>
    containerReplace_changed path token hShape hChildren hValue

theorem jsonPointerRemove_ran (path : String) (hHolds : Holds heap document tree cells)
    (hNodup : cells.Nodup) :
    Ran heap document cells (cells + 0) (Removed heap) (exec (jsonPointerRemove document path) heap)
      (removeValue path tree) :=
  changeParent_ran hHolds (by rwa [add_zero]) path fun token {_ _ _} hShape hChildren =>
    containerRemove_changed path token hShape hChildren

section

variable (hLies : Lies start heap document tree)
include hLies

theorem Lies.valueAt (hValue : ValueAt start ref value) :
    ∃ source, Holds heap ref value source ∧ source.Nodup := by
  obtain ⟨source, hHolds, hNodup⟩ := hValue
  exact ⟨source, hHolds.congr fun cell hCell => hLies.same cell (hHolds.lt_length cell hCell), hNodup⟩

theorem remove_stepped (path : String) :
    Stepped start document
      (exec (do let _ ← jsonPointerRemove document path; return ()) heap)
      (Prod.snd <$> removeValue path tree) := by
  obtain ⟨cells, hHolds, hNodup, hCells⟩ := hLies.holds
  have hRan := jsonPointerRemove_ran path hHolds hNodup
  cases hRun : exec (jsonPointerRemove document path) heap with
  | mk outcome other =>
      rw [hRun] at hRan
      generalize removeValue path tree = result at hRan ⊢
      cases hRan with
      | error error =>
          rw [exec_bind_error hRun]
          exact .error error _
      | @ok _ _ _ rest kept gone hLength hKeep hGone hRest hResult hBound =>
          rw [exec_bind_ok hRun, exec_pure]
          rw [add_zero] at hBound
          have hKept : kept ≤ cells := le_trans (Multiset.le_add_right _ _) hBound
          refine .ok ⟨by have := hLies.length_le; omega, fun cell hCell => ?_, kept, hRest,
            Multiset.nodup_of_le hKept hNodup,
            fun cell hCell => hCells cell (Multiset.mem_of_le hKept hCell)⟩
          rw [hKeep cell fun hMem => ?_, hLies.same cell hCell]
          have := hCells cell hMem
          omega

theorem move_stepped (source path : String) :
    Stepped start document
      (exec (do
        let moved ← jsonPointerRemove document source
        jsonPointerAdd document path moved) heap)
      (do
        let (moved, rest) ← removeValue source tree
        addValue path moved rest) := by
  obtain ⟨cells, hHolds, hNodup, hCells⟩ := hLies.holds
  have hRan := jsonPointerRemove_ran source hHolds hNodup
  cases hRun : exec (jsonPointerRemove document source) heap with
  | mk outcome other =>
      rw [hRun] at hRan
      generalize removeValue source tree = result at hRan ⊢
      cases hRan with
      | error error =>
          rw [exec_bind_error hRun]
          exact .error error _
      | @ok _ ref moved rest kept gone hLength hKeep hGone hRest hMoved hBound =>
          rw [exec_bind_ok hRun]
          rw [add_zero] at hBound
          -- The subtree that was taken out lies beside the rest of the document.
          have hBoth := Multiset.nodup_of_le hBound hNodup
          refine stepped_of_ran (by have := hLies.length_le; omega) (fun cell hCell => ?_) hBoth
            (fun cell hCell => hCells cell (Multiset.mem_of_le hBound hCell))
            (jsonPointerAdd_ran path hRest (Holds.congr hMoved hGone) hBoth)
          rw [hKeep cell fun hMem => ?_, hLies.same cell hCell]
          have := hCells cell hMem
          omega

theorem copy_stepped (source path : String) :
    Stepped start document
      (exec (do
        let found ← jsonPointerGet document source
        let copied ← deepcopy found
        jsonPointerAdd document path copied) heap)
      (do
        let found ← getValue source tree
        addValue path found tree) := by
  obtain ⟨cells, hHolds, hNodup, -⟩ := hLies.holds
  rcases jsonPointerGet_focus hHolds source with ⟨error, hHeap, hTree⟩ |
    ⟨target, found, plug, cell, below, outside, hHeap, hTree, hFocus⟩
  · rw [exec_bind_error hHeap, hTree]
    exact .error error heap
  · rw [exec_bind_ok hHeap, hTree]
    have hFound : Holds heap target (.node found) (target ::ₘ below) :=
      .node hFocus.cell_eq hFocus.shape_eq hFocus.children
    have hOwn : (target ::ₘ below).Nodup :=
      Multiset.nodup_of_le (Multiset.le_add_right _ outside) (hFocus.cells_eq ▸ hNodup)
    exact copied_stepped hLies hFound hOwn fun hHolds hValue hNodup =>
      jsonPointerAdd_ran path hHolds hValue hNodup

theorem test_stepped (atomEqual : α → α → Bool) (path : String) (hValue : ValueAt start ref value) :
    Stepped start document
      (exec (do
        let current ← jsonPointerGet document path
        if ← equal atomEqual current ref then return () else throw (.testFailed path)) heap)
      (do
        let current ← getValue path tree
        if current.equal atomEqual value then return tree else throw (.testFailed path)) := by
  obtain ⟨cells, hHolds, hNodup, -⟩ := hLies.holds
  obtain ⟨source, hSource, hOwn⟩ := hLies.valueAt hValue
  rcases jsonPointerGet_focus hHolds path with ⟨error, hHeap, hTree⟩ |
    ⟨target, found, plug, cell, below, outside, hHeap, hTree, hFocus⟩
  · rw [exec_bind_error hHeap, hTree]
    exact .error error heap
  · rw [exec_bind_ok hHeap, hTree]
    have hFound : Holds heap target (.node found) (target ::ₘ below) :=
      .node hFocus.cell_eq hFocus.shape_eq hFocus.children
    have hFoundNodup : (target ::ₘ below).Nodup :=
      Multiset.nodup_of_le (Multiset.le_add_right _ outside) (hFocus.cells_eq ▸ hNodup)
    have hEqual : exec (equal atomEqual target ref) heap =
        (.ok ((JsonTree.node found).equal atomEqual value), heap) := by
      rw [equal, exec_bind_ok (exec_get _)]
      simp only [hFound.unfold_eq hFoundNodup, hSource.unfold_eq hOwn]
      exact exec_pure _ _
    rw [exec_bind_ok hEqual]
    change Stepped start document _ (if (JsonTree.node found).equal atomEqual value then _ else _)
    cases (JsonTree.node found).equal atomEqual value
    · exact .error _ heap
    · exact .ok hLies

/-- An operation in place does what it does to the value. -/
theorem applyOperation_stepped (atomEqual : α → α → Bool) {patchOp : JsonPatchOperation Nat}
    {treeOp : JsonPatchOperation (JsonTree α)} (hOp : SameOperation start patchOp treeOp) :
    Stepped start document (exec (applyOperation atomEqual document patchOp) heap)
      (applyToTree atomEqual tree treeOp) := by
  obtain ⟨op, path, from_, given⟩ := patchOp
  obtain ⟨treeOp, treePath, treeFrom, treeValue⟩ := treeOp
  obtain ⟨rfl, rfl, rfl, hValue⟩ := hOp
  cases op with
  | add =>
      cases hValue with
      | none => exact .error _ heap
      | some hValue =>
          obtain ⟨source, hSource, hNodup⟩ := hLies.valueAt hValue
          exact copied_stepped hLies hSource hNodup fun hHolds hValue hNodup =>
            jsonPointerAdd_ran path hHolds hValue hNodup
  | remove => exact remove_stepped hLies path
  | replace =>
      cases hValue with
      | none => exact .error _ heap
      | some hValue =>
          obtain ⟨source, hSource, hNodup⟩ := hLies.valueAt hValue
          exact copied_stepped hLies hSource hNodup fun hHolds hValue hNodup =>
            jsonPointerReplace_ran path hHolds hValue hNodup
  | move =>
      cases from_ with
      | none => exact .error _ heap
      | some source => exact move_stepped hLies source path
  | copy =>
      cases from_ with
      | none => exact .error _ heap
      | some source => exact copy_stepped hLies source path
  | test =>
      cases hValue with
      | none => exact .error _ heap
      | some hValue => exact test_stepped hLies atomEqual path hValue

theorem forM_stepped {patchOps : List (JsonPatchOperation Nat)}
    {treeOps : List (JsonPatchOperation (JsonTree α))} (atomEqual : α → α → Bool)
    (hOps : List.Forall₂ (SameOperation start) patchOps treeOps) :
    Stepped start document (exec (patchOps.forM (applyOperation atomEqual document)) heap)
      (applyAllToTree atomEqual tree treeOps) := by
  induction hOps generalizing heap tree with
  | nil => exact .ok hLies
  | @cons patchOp treeOp patchOps treeOps hOp _ ih =>
      have hStep := applyOperation_stepped hLies atomEqual hOp
      rw [applyAllToTree, List.foldlM_cons]
      change Stepped start document (exec (applyOperation atomEqual document patchOp >>= fun _ =>
        patchOps.forM (applyOperation atomEqual document)) heap) _
      cases hRun : exec (applyOperation atomEqual document patchOp) heap with
      | mk outcome next =>
          rw [hRun] at hStep
          generalize applyToTree atomEqual tree treeOp = result at hStep
          cases hStep with
          | error error =>
              rw [exec_bind_error hRun]
              exact .error error next
          | ok hNext =>
              rw [exec_bind_ok hRun]
              exact ih hNext

end

/-- A patch in place does what it does to the value: it raises the same error, or leaves
the document that it makes. -/
theorem applyJsonPatchOperations_tree {patchOps : List (JsonPatchOperation Nat)}
    {treeOps : List (JsonPatchOperation (JsonTree α))} (hTree : ValueAt heap document tree)
    (atomEqual : α → α → Bool) (hOps : List.Forall₂ (SameOperation heap) patchOps treeOps) :
    (∃ error, (exec (applyJsonPatchOperations atomEqual document patchOps) heap).1 = .error error ∧
        applyAllToTree atomEqual tree treeOps = .error error) ∨
      ∃ result patched final,
        exec (applyJsonPatchOperations atomEqual document patchOps) heap = (.ok result, final) ∧
          applyAllToTree atomEqual tree treeOps = .ok patched ∧ ValueAt final result patched := by
  obtain ⟨cells, hHolds, hNodup⟩ := hTree
  have hCopy : Lies heap (heap.deepcopy document).2 (document + heap.length) tree := by
    refine ⟨?_, fun cell hCell => deepcopy_old document hCell, _, hHolds.deepcopy document,
      hNodup.map fun _ _ hEq => by simpa using hEq, fun cell hCell => ?_⟩
    · rw [CellHeap.deepcopy, List.length_append]
      exact Nat.le_add_right _ _
    · obtain ⟨original, -, rfl⟩ := Multiset.mem_map.mp hCell
      exact Nat.le_add_left _ _
  have hStep := forM_stepped hCopy atomEqual hOps
  rw [applyJsonPatchOperations, exec_bind_ok (exec_deepcopy heap document)]
  cases hRun : exec (patchOps.forM (applyOperation atomEqual (document + heap.length)))
      (heap.deepcopy document).2 with
  | mk outcome final =>
      rw [hRun] at hStep
      generalize applyAllToTree atomEqual tree treeOps = result at hStep ⊢
      cases hStep with
      | error error =>
          rw [exec_bind_error hRun]
          exact .inl ⟨error, rfl, rfl⟩
      | @ok _ patched hFinal =>
          rw [exec_bind_ok hRun, exec_pure]
          obtain ⟨kept, hKept, hKeptNodup, -⟩ := hFinal.holds
          exact .inr ⟨_, patched, final, rfl, rfl, kept, hKept, hKeptNodup⟩

end Operations

end JsonPatch

end Tracecat
