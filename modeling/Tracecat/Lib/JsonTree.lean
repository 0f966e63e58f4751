import Mathlib.Data.List.Basic
import Mathlib.Data.List.InsertIdx

/-!
# Nodes of JSON documents

A node is an atom, a list or a dictionary whose children are of any kind:
references to other nodes when it lies in a heap, documents when it is part of a
tree.  What an operation does to a node is then stated once, by the position of
the child that it touches.

* `position?`, `setChild`, `removeChild`, `insertChild`, `appendEntry`: the child
  under a key or at an index, and what becomes of the row of children.
* `SameShape`: nodes that differ in their children only.  Operations act on the
  rows of children of such nodes in the same way.
* `JsonTree`: documents, with their equality up to an equality of atoms and the
  order of entries.
-/

namespace Tracecat

variable {α X Y : Type}

/-- A node.  The keys of a dictionary are in the order of their insertion. -/
inductive JsonNode (α X : Type)
  | atom (value : α)
  | list (items : List X)
  | dict (entries : List (String × X))

namespace JsonNode

def children : JsonNode α X → List X
  | atom _ => []
  | list items => items
  | dict entries => entries.map Prod.snd

def map (f : X → Y) : JsonNode α X → JsonNode α Y
  | atom value => atom value
  | list items => list (items.map f)
  | dict entries => dict (entries.map fun entry => (entry.1, f entry.2))

def shape (node : JsonNode α X) : JsonNode α Unit := node.map fun _ => ()

/-- The node with what a partial function makes of its children. -/
def traverse (f : X → Option Y) : JsonNode α X → Option (JsonNode α Y)
  | atom value => some (atom value)
  | list items => list <$> items.mapM f
  | dict entries => dict <$> entries.mapM fun entry => (entry.1, ·) <$> f entry.2

theorem children_map (f : X → Y) (node : JsonNode α X) :
    (node.map f).children = node.children.map f := by
  cases node <;> simp [map, children]

theorem shape_map (f : X → Y) (node : JsonNode α X) : (node.map f).shape = node.shape := by
  cases node with
  | atom value => rfl
  | list items => simp only [map, shape, List.map_map, Function.comp_def]
  | dict entries => simp only [map, shape, List.map_map, Function.comp_def]

theorem length_children_shape (node : JsonNode α X) :
    node.shape.children.length = node.children.length := by
  rw [shape, children_map, List.length_map]

/-! ## Rows of children -/

def position? (entries : List (String × X)) (key : String) : Option Nat :=
  entries.findIdx? fun entry => entry.1 == key

def setChild (position : Nat) (child : X) : JsonNode α X → JsonNode α X
  | atom value => atom value
  | list items => list (items.set position child)
  | dict entries => dict (entries.modify position fun entry => (entry.1, child))

def removeChild (position : Nat) : JsonNode α X → JsonNode α X
  | atom value => atom value
  | list items => list (items.eraseIdx position)
  | dict entries => dict (entries.eraseIdx position)

def insertChild (position : Nat) (child : X) : JsonNode α X → JsonNode α X
  | list items => list (items.insertIdx position child)
  | node => node

/-- A new entry of a dictionary, after the others. -/
def appendEntry (key : String) (child : X) : JsonNode α X → JsonNode α X
  | dict entries => dict (entries ++ [(key, child)])
  | node => node

theorem children_setChild (position : Nat) (child : X) (node : JsonNode α X) :
    (node.setChild position child).children = node.children.set position child := by
  cases node with
  | atom value => rfl
  | list items => rfl
  | dict entries =>
      simp only [setChild, children]
      apply List.ext_getElem?
      intro index
      simp only [List.getElem?_map, List.getElem?_modify, List.getElem?_set, List.length_map]
      by_cases hIndex : position = index
      · subst hIndex
        cases hEntry : entries[position]? with
        | none =>
            have hLength := List.getElem?_eq_none_iff.mp hEntry
            simp [show ¬ position < entries.length by omega]
        | some entry =>
            obtain ⟨hLength, -⟩ := List.getElem?_eq_some_iff.mp hEntry
            simp [hLength]
      · simp [hIndex]

theorem children_removeChild (position : Nat) (node : JsonNode α X) :
    (node.removeChild position).children = node.children.eraseIdx position := by
  cases node with
  | atom value => rfl
  | list items => rfl
  | dict entries => simp [removeChild, children, List.eraseIdx_map]

theorem shape_setChild (position : Nat) (child : X) (node : JsonNode α X) :
    (node.setChild position child).shape = node.shape := by
  cases node with
  | atom value => rfl
  | list items =>
      simp only [setChild, shape, map, list.injEq]
      apply List.ext_getElem <;> simp
  | dict entries =>
      simp only [setChild, shape, map, dict.injEq]
      apply List.ext_getElem?
      intro index
      simp only [List.getElem?_map, List.getElem?_modify]
      by_cases hIndex : position = index
      · subst hIndex
        cases entries[position]? <;> simp
      · simp [hIndex]

section SameShape

variable {node : JsonNode α X} {other : JsonNode α Y} (hShape : node.shape = other.shape)

include hShape

theorem shape_removeChild (position : Nat) :
    (node.removeChild position).shape = (other.removeChild position).shape := by
  have hMap : ∀ {Z : Type} (node : JsonNode α Z),
      (node.removeChild position).shape = node.shape.removeChild position := by
    intro Z node
    cases node with
    | atom value => rfl
    | list items => simp only [removeChild, shape, map, List.eraseIdx_map]
    | dict entries => simp only [removeChild, shape, map, List.eraseIdx_map]
  rw [hMap, hMap, hShape]

theorem shape_insertChild (position : Nat) (child : X) (other' : Y) :
    (node.insertChild position child).shape = (other.insertChild position other').shape := by
  have hMap : ∀ {Z : Type} (node : JsonNode α Z) (child : Z),
      (node.insertChild position child).shape = node.shape.insertChild position () := by
    intro Z node child
    cases node <;> simp [insertChild, shape, map, List.map_insertIdx]
  rw [hMap, hMap, hShape]

theorem shape_appendEntry (key : String) (child : X) (other' : Y) :
    (node.appendEntry key child).shape = (other.appendEntry key other').shape := by
  have hMap : ∀ {Z : Type} (node : JsonNode α Z) (child : Z),
      (node.appendEntry key child).shape = node.shape.appendEntry key () := by
    intro Z node child
    cases node <;> simp [appendEntry, shape, map]
  rw [hMap, hMap, hShape]

end SameShape

/-! ## Traversals -/

theorem mapM_entries {f : X → Option Y} {entries : List (String × X)} {others : List (String × Y)}
    (hKeys : entries.map Prod.fst = others.map Prod.fst)
    (hValues : (entries.map Prod.snd).mapM f = some (others.map Prod.snd)) :
    (entries.mapM fun entry => (entry.1, ·) <$> f entry.2) = some others := by
  induction entries generalizing others with
  | nil =>
      cases others with
      | nil => rfl
      | cons other others => simp at hKeys
  | cons entry entries ih =>
      cases others with
      | nil => simp at hKeys
      | cons other others =>
          simp only [List.map_cons, List.cons.injEq] at hKeys
          simp only [List.map_cons, List.mapM_cons, Option.bind_eq_bind, Option.pure_def] at hValues
          obtain ⟨value, hValue, hValues⟩ := Option.bind_eq_some_iff.mp hValues
          obtain ⟨values, hRest, hEq⟩ := Option.bind_eq_some_iff.mp hValues
          obtain ⟨rfl, rfl⟩ := List.cons.inj (Option.some.inj hEq)
          rw [List.mapM_cons, ih hKeys.2 hRest, hValue, hKeys.1]
          rfl

/-- A node that has the shape of another and whose children become those of the other
becomes the other. -/
theorem traverse_eq {f : X → Option Y} {node : JsonNode α X} {other : JsonNode α Y}
    (hShape : node.shape = other.shape) (hChildren : node.children.mapM f = some other.children) :
    node.traverse f = some other := by
  cases node with
  | atom value =>
      cases other with
      | atom => cases hShape; rfl
      | list => cases hShape
      | dict => cases hShape
  | list items =>
      cases other with
      | atom => cases hShape
      | list others =>
          change items.mapM f = some others at hChildren
          rw [traverse, hChildren]
          rfl
      | dict => cases hShape
  | dict entries =>
      cases other with
      | atom => cases hShape
      | list => cases hShape
      | dict others =>
          have hKeys : entries.map Prod.fst = others.map Prod.fst := by
            have hEq := congrArg (List.map Prod.fst) (JsonNode.dict.inj hShape)
            simpa [List.map_map, Function.comp_def] using hEq
          rw [traverse, mapM_entries hKeys hChildren]
          rfl

end JsonNode

/-- Which child of a node a key stands for, by the shape of the node alone. -/
abbrev ChildSlot (α κ ε : Type) : Type :=
  (shape : JsonNode α Unit) → κ → Except ε (Fin shape.children.length)

def JsonNode.childAt (node : JsonNode α X) (slot : Fin node.shape.children.length) : X :=
  node.children.get (slot.cast node.length_children_shape)

theorem JsonNode.getElem?_childAt (node : JsonNode α X) (slot : Fin node.shape.children.length) :
    node.children[slot.val]? = some (node.childAt slot) := by
  have hSlot : slot.val < node.children.length := by
    rw [← node.length_children_shape]
    exact slot.isLt
  rw [List.getElem?_eq_getElem hSlot]
  rfl

inductive JsonTree (α : Type)
  | node (node : JsonNode α (JsonTree α))

namespace JsonTree

def top : JsonTree α → JsonNode α (JsonTree α)
  | .node found => found

/-- The node at the end of some keys, with the document around it. -/
def locate {κ ε : Type} (slotOf : ChildSlot α κ ε) :
    List κ → JsonTree α → Except ε (JsonNode α (JsonTree α) × (JsonNode α (JsonTree α) → JsonTree α))
  | [], tree => .ok (tree.top, .node)
  | key :: keys, tree => do
      let slot ← slotOf tree.top.shape key
      let (found, plug) ← locate slotOf keys (tree.top.childAt slot)
      return (found, fun node => .node (tree.top.setChild slot (plug node)))

section Locate

variable {κ ε : Type} {slotOf : ChildSlot α κ ε} {found : JsonNode α (JsonTree α)}
  {shape : JsonNode α Unit} {key : κ} {keys : List κ} {child : JsonTree α}
  {slot : Fin shape.children.length}

theorem locate_cons_error {error : ε} (hShape : found.shape = shape)
    (hSlot : slotOf shape key = .error error) :
    (JsonTree.node found).locate slotOf (key :: keys) = .error error := by
  subst hShape
  rw [locate, top, hSlot]
  rfl

theorem locate_cons_ok (hShape : found.shape = shape) (hSlot : slotOf shape key = .ok slot)
    (hChild : found.children[slot.val]? = some child) :
    (JsonTree.node found).locate slotOf (key :: keys) =
      (child.locate slotOf keys).map fun focus =>
        (focus.1, fun node => .node (found.setChild slot (focus.2 node))) := by
  subst hShape
  rw [found.getElem?_childAt slot] at hChild
  cases hChild
  rw [locate, top, hSlot]
  cases hRest : locate slotOf keys (found.childAt slot) with
  | error error => simp [bind, Except.bind, hRest, Except.map]
  | ok focus => simp [bind, Except.bind, pure, Except.pure, hRest, Except.map]

end Locate

mutual

/-- Equality of documents, given that of atoms: lists are equal item by item,
dictionaries when they have as many entries and the same value under each key. -/
def equal (atomEqual : α → α → Bool) : JsonTree α → JsonTree α → Bool
  | .node (.atom value), .node (.atom other) => atomEqual value other
  | .node (.list items), .node (.list others) => equalItems atomEqual items others
  | .node (.dict entries), .node (.dict others) =>
      entries.length == others.length && equalEntries atomEqual entries others
  | _, _ => false

def equalItems (atomEqual : α → α → Bool) : List (JsonTree α) → List (JsonTree α) → Bool
  | [], [] => true
  | item :: items, other :: others => equal atomEqual item other && equalItems atomEqual items others
  | _, _ => false

def equalEntries (atomEqual : α → α → Bool) :
    List (String × JsonTree α) → List (String × JsonTree α) → Bool
  | [], _ => true
  | (key, value) :: entries, others =>
      (match others.lookup key with
        | some other => equal atomEqual value other
        | none => false) && equalEntries atomEqual entries others

end

variable {atomEqual wider : α → α → Bool}
  (hWider : ∀ value other, atomEqual value other = true → wider value other = true)

include hWider

-- items and entries use the hypothesis through the tree only
set_option linter.unusedSectionVars false in
mutual

theorem equal_mono : ∀ tree other : JsonTree α,
    equal atomEqual tree other = true → equal wider tree other = true
  | .node (.atom value), .node (.atom other), hEqual => hWider value other hEqual
  | .node (.list items), .node (.list others), hEqual => equalItems_mono items others hEqual
  | .node (.dict entries), .node (.dict others), hEqual => by
      rw [equal, Bool.and_eq_true] at hEqual ⊢
      exact ⟨hEqual.1, equalEntries_mono entries others hEqual.2⟩

theorem equalItems_mono : ∀ items others : List (JsonTree α),
    equalItems atomEqual items others = true → equalItems wider items others = true
  | [], [], _ => rfl
  | item :: items, other :: others, hEqual => by
      rw [equalItems, Bool.and_eq_true] at hEqual ⊢
      exact ⟨equal_mono item other hEqual.1, equalItems_mono items others hEqual.2⟩

theorem equalEntries_mono : ∀ entries others : List (String × JsonTree α),
    equalEntries atomEqual entries others = true → equalEntries wider entries others = true
  | [], _, _ => rfl
  | (key, value) :: entries, others, hEqual => by
      rw [equalEntries, Bool.and_eq_true] at hEqual ⊢
      refine ⟨?_, equalEntries_mono entries others hEqual.2⟩
      have hValue := hEqual.1
      cases hOther : others.lookup key with
      | none => rw [hOther] at hValue; cases hValue
      | some other => rw [hOther] at hValue; exact equal_mono value other hValue

end

end JsonTree

end Tracecat
