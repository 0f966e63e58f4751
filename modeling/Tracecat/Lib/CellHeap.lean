import Mathlib.Algebra.Order.Group.Multiset
import Mathlib.Data.Multiset.Range
import Mathlib.Data.Multiset.UnionInter
import Tracecat.Lib.JsonTree

/-!
# Documents in a heap

A heap of nodes that refer to one another by number, and the documents that lie
in it.

* `Holds heap ref tree cells`: the document lies at a reference and takes up these
  cells.  No cell is taken up twice when the cells are without duplicates, which
  is how a document that shares no part with itself lies in a heap.
* `deepcopy`: a copy of what is reachable, part by part, with the sharing that the
  original has.
* `Holds.focus`: a node inside a document can change together with its children,
  and the document around it stays.
-/

namespace Tracecat

variable {α κ ε : Type}

abbrev CellHeap (α : Type) : Type := List (JsonNode α Nat)

namespace CellHeap

/-- The node at a reference.  One that dangles, which no program has, reads as an
empty list. -/
def node (heap : CellHeap α) (ref : Nat) : JsonNode α Nat := heap.getD ref (.list [])

/-- A copy of everything, behind the original: what refers to a cell refers to the
copy of the cell. -/
def deepcopy (heap : CellHeap α) (ref : Nat) : Nat × CellHeap α :=
  (ref + heap.length, heap ++ heap.map fun cell => cell.map (· + heap.length))

/-- The document at a reference, as far as it is not deeper than the fuel. -/
def unfold (heap : CellHeap α) : Nat → Nat → Option (JsonTree α)
  | 0, _ => none
  | fuel + 1, ref => .node <$> (heap.node ref).traverse (unfold heap fuel)

/-- The reference at the end of some keys. -/
def follow (slotOf : ChildSlot α κ ε) (heap : CellHeap α) : Nat → List κ → Except ε Nat
  | ref, [] => .ok ref
  | ref, key :: keys => do
      let slot ← slotOf (heap.node ref).shape key
      follow slotOf heap ((heap.node ref).childAt slot) keys

mutual

/-- A document at a reference, with the cells that it takes up. -/
inductive Holds (heap : CellHeap α) : Nat → JsonTree α → Multiset Nat → Prop
  | node {ref : Nat} {cell : JsonNode α Nat} {node : JsonNode α (JsonTree α)}
      {below : Multiset Nat} (hCell : heap[ref]? = some cell) (hShape : cell.shape = node.shape)
      (hChildren : HoldsAll heap cell.children node.children below) :
      Holds heap ref (.node node) (ref ::ₘ below)

/-- A row of documents, each with cells of its own. -/
inductive HoldsAll (heap : CellHeap α) : List Nat → List (JsonTree α) → Multiset Nat → Prop
  | nil : HoldsAll heap [] [] 0
  | cons {ref : Nat} {tree : JsonTree α} {refs : List Nat} {trees : List (JsonTree α)}
      {cells others : Multiset Nat} (hTree : Holds heap ref tree cells)
      (hTrees : HoldsAll heap refs trees others) :
      HoldsAll heap (ref :: refs) (tree :: trees) (cells + others)

end

variable {heap other : CellHeap α} {ref : Nat} {tree : JsonTree α} {cells : Multiset Nat}
  {refs : List Nat} {trees : List (JsonTree α)}

/-! ## Heaps that agree -/

theorem Holds.congr (hHolds : Holds heap ref tree cells)
    (hSame : ∀ cell ∈ cells, other[cell]? = heap[cell]?) : Holds other ref tree cells := by
  revert hSame
  refine @Holds.rec α heap
    (fun ref tree cells _ => (∀ cell ∈ cells, other[cell]? = heap[cell]?) →
      Holds other ref tree cells)
    (fun refs trees cells _ => (∀ cell ∈ cells, other[cell]? = heap[cell]?) →
      HoldsAll other refs trees cells) ?node ?nil ?cons ref tree cells hHolds
  case node =>
    intro ref cell node below hCell hShape _ ih hSame
    refine .node (by rw [hSame ref (Multiset.mem_cons_self _ _), hCell]) hShape (ih ?_)
    exact fun cell hMem => hSame cell (Multiset.mem_cons_of_mem hMem)
  case nil => exact fun _ => .nil
  case cons =>
    intro ref tree refs trees cells others _ _ ihTree ihTrees hSame
    exact .cons (ihTree fun cell hMem => hSame cell (Multiset.mem_add.mpr (.inl hMem)))
      (ihTrees fun cell hMem => hSame cell (Multiset.mem_add.mpr (.inr hMem)))

theorem HoldsAll.congr (hHolds : HoldsAll heap refs trees cells)
    (hSame : ∀ cell ∈ cells, other[cell]? = heap[cell]?) : HoldsAll other refs trees cells := by
  induction trees generalizing refs cells with
  | nil =>
      cases hHolds
      exact .nil
  | cons tree trees ih =>
      cases hHolds with
      | cons hTree hTrees =>
          exact .cons (hTree.congr fun cell hMem => hSame cell (Multiset.mem_add.mpr (.inl hMem)))
            (ih hTrees fun cell hMem => hSame cell (Multiset.mem_add.mpr (.inr hMem)))

theorem Holds.lt_length (hHolds : Holds heap ref tree cells) : ∀ cell ∈ cells, cell < heap.length := by
  refine @Holds.rec α heap (fun _ _ cells _ => ∀ cell ∈ cells, cell < heap.length)
    (fun _ _ cells _ => ∀ cell ∈ cells, cell < heap.length) ?node ?nil ?cons ref tree cells hHolds
  case node =>
    intro ref cell node below hCell _ _ ih place hMem
    rcases Multiset.mem_cons.mp hMem with rfl | hMem
    · exact (List.getElem?_eq_some_iff.mp hCell).1
    · exact ih place hMem
  case nil => simp
  case cons =>
    intro ref tree refs trees cells others _ _ ihTree ihTrees place hMem
    rcases Multiset.mem_add.mp hMem with hMem | hMem
    · exact ihTree place hMem
    · exact ihTrees place hMem

/-! ## Copies -/

theorem deepcopy_old (ref : Nat) {cell : Nat} (hCell : cell < heap.length) :
    (heap.deepcopy ref).2[cell]? = heap[cell]? := by
  rw [deepcopy, List.getElem?_append_left hCell]

theorem deepcopy_new (ref cell : Nat) :
    (heap.deepcopy ref).2[cell + heap.length]? =
      heap[cell]?.map fun node => node.map (· + heap.length) := by
  rw [deepcopy, List.getElem?_append_right (by omega), Nat.add_sub_cancel, List.getElem?_map]

theorem Holds.deepcopy (hHolds : Holds heap ref tree cells) (source : Nat) :
    Holds (heap.deepcopy source).2 (ref + heap.length) tree (cells.map (· + heap.length)) := by
  refine @Holds.rec α heap
    (fun ref tree cells _ => Holds (heap.deepcopy source).2 (ref + heap.length) tree
      (cells.map (· + heap.length)))
    (fun refs trees cells _ => HoldsAll (heap.deepcopy source).2 (refs.map (· + heap.length)) trees
      (cells.map (· + heap.length))) ?node ?nil ?cons ref tree cells hHolds
  case node =>
    intro ref cell node below hCell hShape _ ih
    have hNew : (heap.deepcopy source).2[ref + heap.length]? =
        some (cell.map (· + heap.length)) := by
      rw [deepcopy_new, hCell, Option.map_some]
    rw [Multiset.map_cons]
    refine .node hNew (by rw [JsonNode.shape_map, hShape]) ?_
    rw [JsonNode.children_map]
    exact ih
  case nil => exact .nil
  case cons =>
    intro ref tree refs trees cells others _ _ ihTree ihTrees
    rw [List.map_cons, Multiset.map_add]
    exact .cons ihTree ihTrees

/-! ## Rows of documents -/

theorem HoldsAll.length_eq (hHolds : HoldsAll heap refs trees cells) :
    refs.length = trees.length := by
  induction trees generalizing refs cells with
  | nil =>
      cases hHolds
      rfl
  | cons tree trees ih =>
      cases hHolds with
      | cons _ hTrees => simp [ih hTrees]

theorem HoldsAll.eraseIdx (hHolds : HoldsAll heap refs trees cells) {position : Nat}
    {tree : JsonTree α} {ref : Nat} (hTree : trees[position]? = some tree)
    (hRef : refs[position]? = some ref) :
    ∃ own rest, Holds heap ref tree own ∧
      HoldsAll heap (refs.eraseIdx position) (trees.eraseIdx position) rest ∧
      cells = own + rest := by
  induction trees generalizing refs cells position with
  | nil => cases hTree
  | cons head trees ih =>
      cases hHolds with
      | @cons headRef _ refs _ headCells others hHead hTrees =>
          cases position with
          | zero =>
              cases hTree
              cases hRef
              exact ⟨headCells, others, hHead, hTrees, rfl⟩
          | succ position =>
              obtain ⟨own, rest, hOwn, hRest, rfl⟩ := ih hTrees hTree hRef
              refine ⟨own, headCells + rest, hOwn, .cons hHead hRest, ?_⟩
              rw [add_left_comm]

theorem HoldsAll.insertIdx {own : Multiset Nat} (hHolds : HoldsAll heap refs trees cells)
    (hTree : Holds heap ref tree own) {position : Nat} (hPosition : position ≤ trees.length) :
    HoldsAll heap (refs.insertIdx position ref) (trees.insertIdx position tree)
      (own + cells) := by
  induction position generalizing refs trees cells with
  | zero =>
      rw [List.insertIdx_zero, List.insertIdx_zero]
      exact .cons hTree hHolds
  | succ position ih =>
      cases hHolds with
      | nil => simp at hPosition
      | cons hHead hTrees =>
          rw [List.insertIdx_succ_cons, List.insertIdx_succ_cons, add_left_comm]
          exact .cons hHead (ih hTrees (by simpa using hPosition))

theorem HoldsAll.set {own : Multiset Nat} {position : Nat}
    (hRest : HoldsAll heap (refs.eraseIdx position) (trees.eraseIdx position) cells)
    (hTree : Holds heap ref tree own) (hRefs : position < refs.length)
    (hTrees : position < trees.length) :
    HoldsAll heap (refs.set position ref) (trees.set position tree) (own + cells) := by
  rw [← List.insertIdx_eraseIdx_self (Nat.ne_of_lt hRefs),
    ← List.insertIdx_eraseIdx_self (Nat.ne_of_lt hTrees)]
  refine hRest.insertIdx hTree ?_
  rw [List.length_eraseIdx_of_lt hTrees]
  omega

/-! ## A node inside a document -/

theorem node_eq {cell : JsonNode α Nat} (hCell : heap[ref]? = some cell) : heap.node ref = cell := by
  rw [node, List.getD_eq_getElem?_getD, hCell, Option.getD_some]

section Follow

variable {slotOf : ChildSlot α κ ε} {cell : JsonNode α Nat} {shape : JsonNode α Unit} {key : κ}
  {keys : List κ} (hCell : heap[ref]? = some cell) (hShape : cell.shape = shape)

include hCell hShape

theorem follow_cons_error {error : ε} (hSlot : slotOf shape key = .error error) :
    follow slotOf heap ref (key :: keys) = .error error := by
  obtain rfl := node_eq hCell
  subst hShape
  rw [follow, hSlot]
  rfl

theorem follow_cons_ok {child : Nat} {slot : Fin shape.children.length}
    (hSlot : slotOf shape key = .ok slot) (hChild : cell.children[slot.val]? = some child) :
    follow slotOf heap ref (key :: keys) = follow slotOf heap child keys := by
  obtain rfl := node_eq hCell
  subst hShape
  rw [JsonNode.getElem?_childAt] at hChild
  cases hChild
  rw [follow, hSlot]
  rfl

end Follow

theorem unfold_of_card (hHolds : Holds heap ref tree cells) :
    ∀ fuel, cells.card ≤ fuel → heap.unfold fuel ref = some tree := by
  refine @Holds.rec α heap
    (fun ref tree cells _ => ∀ fuel, cells.card ≤ fuel → heap.unfold fuel ref = some tree)
    (fun refs trees cells _ => ∀ fuel, cells.card ≤ fuel →
      refs.mapM (heap.unfold fuel) = some trees) ?node ?nil ?cons ref tree cells hHolds
  case node =>
    intro ref cell node below hCell hShape _ ih fuel hFuel
    rw [Multiset.card_cons] at hFuel
    obtain ⟨fuel, rfl⟩ : ∃ less, fuel = less + 1 := ⟨fuel - 1, by omega⟩
    rw [unfold, node_eq hCell, JsonNode.traverse_eq hShape (ih fuel (by omega))]
    rfl
  case nil => exact fun _ _ => rfl
  case cons =>
    intro ref tree refs trees cells others _ _ ihTree ihTrees fuel hFuel
    rw [Multiset.card_add] at hFuel
    rw [List.mapM_cons, ihTree fuel (by omega), ihTrees fuel (by omega)]
    rfl

/-- A document without a part in common with itself is not deeper than the heap is long. -/
theorem Holds.unfold_eq (hHolds : Holds heap ref tree cells) (hNodup : cells.Nodup) :
    heap.unfold (heap.length + 1) ref = some tree := by
  have hSub : cells ≤ Multiset.range heap.length := by
    refine (Multiset.le_iff_subset hNodup).mpr fun cell hMem => ?_
    exact Multiset.mem_range.mpr (hHolds.lt_length cell hMem)
  have hCard := Multiset.card_le_card hSub
  rw [Multiset.card_range] at hCard
  exact unfold_of_card hHolds _ (by omega)

/-- Where a node lies that keys lead to: its cell, the cells below it and the other cells
of the document, and that the document around it stays when the node changes. -/
structure Focus (heap : CellHeap α) (ref : Nat) (cells : Multiset Nat) (target : Nat)
    (found : JsonNode α (JsonTree α)) (plug : JsonNode α (JsonTree α) → JsonTree α)
    (cell : JsonNode α Nat) (below outside : Multiset Nat) : Prop where
  cell_eq : heap[target]? = some cell
  shape_eq : cell.shape = found.shape
  children : HoldsAll heap cell.children found.children below
  cells_eq : cells = (target ::ₘ below) + outside
  plugged : ∀ {other : CellHeap α} {cell : JsonNode α Nat} {changed : JsonNode α (JsonTree α)}
    {below : Multiset Nat}, (∀ place ∈ outside, other[place]? = heap[place]?) →
    other[target]? = some cell → cell.shape = changed.shape →
    HoldsAll other cell.children changed.children below →
    Holds other ref (plug changed) ((target ::ₘ below) + outside)

theorem cons_around (ref : Nat) (inner outside rest : Multiset Nat) :
    ref ::ₘ (inner + outside + rest) = inner + (outside + (ref ::ₘ rest)) := by
  rw [Multiset.add_cons, Multiset.add_cons, add_assoc]

/-- Keys lead to the same place in the heap and in the document, or nowhere in both. -/
theorem Holds.focus (hHolds : Holds heap ref tree cells) (slotOf : ChildSlot α κ ε)
    (keys : List κ) :
    (∃ error, follow slotOf heap ref keys = .error error ∧
        tree.locate slotOf keys = .error error) ∨
      ∃ target found plug cell below outside, follow slotOf heap ref keys = .ok target ∧
        tree.locate slotOf keys = .ok (found, plug) ∧
        Focus heap ref cells target found plug cell below outside := by
  induction keys generalizing ref tree cells with
  | nil =>
      cases hHolds with
      | @node _ cell found below hCell hShape hChildren =>
          refine .inr ⟨ref, found, .node, cell, below, 0, rfl, rfl, hCell, hShape, hChildren,
            (add_zero _).symm, ?_⟩
          intro other cell changed below _ hCell hShape hChildren
          rw [add_zero]
          exact .node hCell hShape hChildren
  | cons key keys ih =>
      cases hHolds with
      | @node _ cell found below hCell hShape hChildren =>
          cases hSlot : slotOf found.shape key with
          | error error =>
              exact .inl ⟨error, follow_cons_error hCell hShape hSlot,
                JsonTree.locate_cons_error rfl hSlot⟩
          | ok slot =>
              have hFound : slot.val < found.children.length := by
                rw [← found.length_children_shape]
                exact slot.isLt
              have hRefs : slot.val < cell.children.length := by
                rwa [hChildren.length_eq]
              have hRef := List.getElem?_eq_getElem hRefs
              have hTree := List.getElem?_eq_getElem hFound
              obtain ⟨own, rest, hOwn, hRest, rfl⟩ := hChildren.eraseIdx hTree hRef
              rw [follow_cons_ok hCell hShape hSlot hRef, JsonTree.locate_cons_ok rfl hSlot hTree]
              rcases ih hOwn with ⟨error, hFollow, hLocate⟩ |
                ⟨target, inner, plug, innerCell, below, outside, hFollow, hLocate, hFocus⟩
              · exact .inl ⟨error, hFollow, by rw [hLocate]; rfl⟩
              · refine .inr ⟨target, inner, _, innerCell, below, outside + (ref ::ₘ rest), hFollow,
                  by rw [hLocate]; rfl, hFocus.cell_eq, hFocus.shape_eq, hFocus.children, ?_, ?_⟩
                · rw [hFocus.cells_eq, cons_around]
                · intro other cell' changed below' hSame hCell' hShape' hChildren'
                  have hInner := hFocus.plugged
                    (fun place hPlace => hSame place (Multiset.mem_add.mpr (.inl hPlace)))
                    hCell' hShape' hChildren'
                  have hRest' := hRest.congr fun place hPlace => hSame place
                    (Multiset.mem_add.mpr (.inr (Multiset.mem_cons_of_mem hPlace)))
                  have hRow := hRest'.set hInner hRefs hFound
                  rw [List.set_getElem_self] at hRow
                  have hTop : other[ref]? = some cell := by
                    rw [hSame ref (Multiset.mem_add.mpr (.inr (Multiset.mem_cons_self _ _))), hCell]
                  rw [← cons_around]
                  refine .node hTop ?_ ?_
                  · rw [JsonNode.shape_setChild, hShape]
                  · rw [JsonNode.children_setChild]
                    exact hRow

end CellHeap

end Tracecat
