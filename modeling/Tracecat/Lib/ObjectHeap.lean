import Mathlib.Logic.Function.Basic
import Tracecat.Lib.Assoc

/-!
# Objects with identity

A heap of lists and dictionaries that refer to one another, as a language with
object references sees them.  An identity names the arena in which its object
was allocated, so that concurrent tasks allocate without agreeing on a counter.

* `view` reads an object as the tree that its references unfold to: two objects
  are equal when their views are.
* `follow_congr`: what one sees from a set of arenas that is closed under
  references does not depend on the other arenas.
* `follow_of_link`: setting one entry of a dictionary adds only the paths that
  go through that entry.
-/

namespace Tracecat

/-- An identity: the arena of the allocation and the place there. -/
structure HeapRef (Arena : Type) where
  arena : Arena
  slot : Nat
  deriving DecidableEq

/-- An object.  Atoms are immutable. -/
inductive HeapObject (Arena Atom : Type)
  | atom (value : Atom)
  | list (items : List (HeapRef Arena))
  | dict (entries : List (String × HeapRef Arena))

/-- One step into an object. -/
inductive Access
  | key (name : String)
  | index (position : Nat)
  deriving DecidableEq

/-- What one sees of an object without following its references. -/
inductive Shape (Atom : Type)
  | atom (value : Atom)
  | list (length : Nat)
  | dict (keys : List String)
  deriving DecidableEq

namespace HeapObject

variable {Arena Atom : Type}

def child : HeapObject Arena Atom → Access → Option (HeapRef Arena)
  | dict entries, .key name => entries.lookup name
  | list items, .index position => items[position]?
  | _, _ => none

def shape : HeapObject Arena Atom → Shape Atom
  | atom value => .atom value
  | list items => .list items.length
  | dict entries => .dict (entries.map Prod.fst)

def refs : HeapObject Arena Atom → List (HeapRef Arena)
  | atom _ => []
  | list items => items
  | dict entries => entries.map Prod.snd

theorem child_mem_refs {object : HeapObject Arena Atom} {access : Access} {ref : HeapRef Arena}
    (hChild : object.child access = some ref) : ref ∈ object.refs := by
  cases object with
  | atom value => simp [child] at hChild
  | list items =>
      cases access with
      | key name => simp [child] at hChild
      | index position => exact List.mem_of_getElem? hChild
  | dict entries =>
      cases access with
      | key name =>
          obtain ⟨before, after, hEntries, _⟩ := List.lookup_eq_some_iff.mp hChild
          rw [refs, hEntries]
          simp
      | index position => simp [child] at hChild

end HeapObject

/-- The objects of each arena, in the order of their allocation. -/
structure ObjectHeap (Arena Atom : Type) where
  cells : Arena → List (HeapObject Arena Atom)

namespace ObjectHeap

variable {Arena Atom : Type}

def get (heap : ObjectHeap Arena Atom) (ref : HeapRef Arena) : Option (HeapObject Arena Atom) :=
  (heap.cells ref.arena)[ref.slot]?

def follow (heap : ObjectHeap Arena Atom) (ref : HeapRef Arena) :
    List Access → Option (HeapRef Arena)
  | [] => some ref
  | access :: path =>
      ((heap.get ref).bind (·.child access)).bind fun child => heap.follow child path

/-- An object as the tree that its references unfold to. -/
def view (heap : ObjectHeap Arena Atom) (ref : HeapRef Arena) (path : List Access) :
    Option (Shape Atom) :=
  ((heap.follow ref path).bind heap.get).map HeapObject.shape

/-- The objects of these arenas refer to objects of these arenas. -/
def ClosedOn (heap : ObjectHeap Arena Atom) (within : Arena → Prop) : Prop :=
  ∀ ref object, within ref.arena → heap.get ref = some object →
    ∀ child ∈ object.refs, within child.arena

/-- The heaps agree on these arenas. -/
def AgreeOn (within : Arena → Prop) (heap other : ObjectHeap Arena Atom) : Prop :=
  ∀ arena, within arena → heap.cells arena = other.cells arena

variable [DecidableEq Arena]

/-- A new object in an arena, with its identity. -/
def alloc (heap : ObjectHeap Arena Atom) (arena : Arena) (object : HeapObject Arena Atom) :
    HeapRef Arena × ObjectHeap Arena Atom :=
  (⟨arena, (heap.cells arena).length⟩,
    ⟨Function.update heap.cells arena (heap.cells arena ++ [object])⟩)

def write (heap : ObjectHeap Arena Atom) (ref : HeapRef Arena) (object : HeapObject Arena Atom) :
    ObjectHeap Arena Atom :=
  ⟨Function.update heap.cells ref.arena ((heap.cells ref.arena).set ref.slot object)⟩

variable {heap other : ObjectHeap Arena Atom} {within : Arena → Prop} {ref target : HeapRef Arena}
  {object : HeapObject Arena Atom} {arena : Arena} {path : List Access}

/-! ## Reading after an allocation or a write -/

@[simp] theorem alloc_arena : (heap.alloc arena object).1.arena = arena := rfl

theorem get_alloc : (heap.alloc arena object).2.get ref =
    if ref = (heap.alloc arena object).1 then some object else heap.get ref := by
  obtain ⟨refArena, slot⟩ := ref
  simp only [alloc, get, HeapRef.mk.injEq]
  by_cases hArena : refArena = arena
  · subst hArena
    rw [Function.update_self, List.getElem?_append]
    split_ifs with hLow hBoth hBoth
    · omega
    · rfl
    · rw [hBoth.2, Nat.sub_self, List.getElem?_cons_zero]
    · have hHigh : (heap.cells refArena).length < slot := by
        have hNe : slot ≠ (heap.cells refArena).length := fun hEq => hBoth ⟨rfl, hEq⟩
        omega
      rw [List.getElem?_eq_none (by simp; omega), List.getElem?_eq_none (Nat.le_of_lt hHigh)]
  · rw [Function.update_of_ne hArena, if_neg (fun hBoth => hArena hBoth.1)]

theorem get_write {old : HeapObject Arena Atom} (hOld : heap.get target = some old) :
    (heap.write target object).get ref = if ref = target then some object else heap.get ref := by
  obtain ⟨targetArena, targetSlot⟩ := target
  obtain ⟨refArena, slot⟩ := ref
  simp only [write, get, HeapRef.mk.injEq] at hOld ⊢
  by_cases hArena : refArena = targetArena
  · subst hArena
    rw [Function.update_self, List.getElem?_set]
    obtain ⟨hSlot, _⟩ := List.getElem?_eq_some_iff.mp hOld
    by_cases hSame : targetSlot = slot
    · subst hSame
      rw [if_pos rfl, if_pos hSlot, if_pos ⟨rfl, rfl⟩]
    · rw [if_neg hSame, if_neg fun hBoth => hSame hBoth.2.symm]
  · rw [Function.update_of_ne hArena, if_neg (fun hBoth => hArena hBoth.1)]

theorem cells_alloc_of_ne {elsewhere : Arena} (hNe : elsewhere ≠ arena) :
    (heap.alloc arena object).2.cells elsewhere = heap.cells elsewhere :=
  Function.update_of_ne hNe _ _

theorem cells_write_of_ne {elsewhere : Arena} (hNe : elsewhere ≠ target.arena) :
    (heap.write target object).cells elsewhere = heap.cells elsewhere :=
  Function.update_of_ne hNe _ _

theorem get_fresh : heap.get (heap.alloc arena object).1 = none := by
  simp [get, alloc]

theorem get_alloc_of_get {found : HeapObject Arena Atom} (hFound : heap.get ref = some found) :
    (heap.alloc arena object).2.get ref = some found := by
  rw [get_alloc, if_neg, hFound]
  rintro rfl
  rw [get_fresh] at hFound
  cases hFound

/-! ## Agreement on arenas -/

omit [DecidableEq Arena] in
theorem AgreeOn.get (hAgree : AgreeOn within heap other) (hWithin : within ref.arena) :
    heap.get ref = other.get ref := by
  rw [ObjectHeap.get, ObjectHeap.get, hAgree _ hWithin]

theorem AgreeOn.alloc (hAgree : AgreeOn within heap other) (object : HeapObject Arena Atom)
    (hWithin : within arena) :
    (heap.alloc arena object).1 = (other.alloc arena object).1 ∧
      AgreeOn within (heap.alloc arena object).2 (other.alloc arena object).2 := by
  have hCells := hAgree arena hWithin
  refine ⟨by rw [ObjectHeap.alloc, ObjectHeap.alloc, hCells], fun elsewhere hElsewhere => ?_⟩
  simp only [ObjectHeap.alloc, Function.update_apply, hCells, hAgree elsewhere hElsewhere]

theorem AgreeOn.write (hAgree : AgreeOn within heap other) (hWithin : within target.arena) :
    AgreeOn within (heap.write target object) (other.write target object) := by
  intro elsewhere hElsewhere
  simp only [ObjectHeap.write, Function.update_apply, hAgree _ hWithin, hAgree _ hElsewhere]

theorem ClosedOn.alloc (hClosed : heap.ClosedOn within)
    (hObject : ∀ child ∈ object.refs, within child.arena) :
    (heap.alloc arena object).2.ClosedOn within := by
  intro ref found hRef hFound
  rw [get_alloc] at hFound
  by_cases hNew : ref = (heap.alloc arena object).1
  · rw [if_pos hNew] at hFound
    cases hFound
    exact hObject
  · rw [if_neg hNew] at hFound
    exact hClosed ref found hRef hFound

theorem ClosedOn.write {old : HeapObject Arena Atom} (hClosed : heap.ClosedOn within)
    (hOld : heap.get target = some old) (hObject : ∀ child ∈ object.refs, within child.arena) :
    (heap.write target object).ClosedOn within := by
  intro ref found hRef hFound
  rw [get_write hOld] at hFound
  by_cases hTarget : ref = target
  · rw [if_pos hTarget] at hFound
    cases hFound
    exact hObject
  · rw [if_neg hTarget] at hFound
    exact hClosed ref found hRef hFound

omit [DecidableEq Arena] in
/-- A path from closed arenas stays there, and reads the same in every heap
that agrees on them. -/
theorem follow_congr (hClosed : heap.ClosedOn within) (hAgree : AgreeOn within heap other)
    (hRef : within ref.arena) (path : List Access) :
    heap.follow ref path = other.follow ref path ∧
      ∀ found, heap.follow ref path = some found → within found.arena := by
  induction path generalizing ref with
  | nil =>
      refine ⟨rfl, fun found hFound => ?_⟩
      cases hFound
      exact hRef
  | cons access path ih =>
      simp only [follow, ← hAgree.get hRef]
      cases hObject : heap.get ref with
      | none => exact ⟨rfl, fun found hFound => by cases hFound⟩
      | some object =>
          cases hChild : object.child access with
          | none =>
              simp only [Option.bind_some, hChild, Option.bind_none]
              exact ⟨trivial, fun found hFound => by cases hFound⟩
          | some child =>
              simp only [Option.bind_some, hChild]
              exact ih (hClosed ref object hRef hObject child (HeapObject.child_mem_refs hChild))

omit [DecidableEq Arena] in
theorem view_congr (hClosed : heap.ClosedOn within) (hAgree : AgreeOn within heap other)
    (hRef : within ref.arena) : heap.view ref = other.view ref := by
  funext path
  obtain ⟨hFollow, hWithin⟩ := follow_congr hClosed hAgree hRef path
  rw [view, view, ← hFollow]
  cases hFound : heap.follow ref path with
  | none => rfl
  | some found => rw [Option.bind_some, Option.bind_some, hAgree.get (hWithin found hFound)]

omit [DecidableEq Arena] in
/-! ## Paths -/

omit [DecidableEq Arena] in
theorem follow_append {later : List Access} :
    heap.follow ref (path ++ later) =
      (heap.follow ref path).bind fun found => heap.follow found later := by
  induction path generalizing ref with
  | nil => rfl
  | cons access path ih =>
      simp only [List.cons_append, follow]
      cases (heap.get ref).bind (·.child access) with
      | none => rfl
      | some child => simpa using ih

omit [DecidableEq Arena] in
theorem view_append {later : List Access} :
    heap.view ref (path ++ later) =
      (heap.follow ref path).bind fun found => heap.view found later := by
  rw [view, follow_append]
  cases heap.follow ref path <;> rfl

omit [DecidableEq Arena] in
theorem follow_concat {access : Access} {found child : HeapRef Arena}
    {object : HeapObject Arena Atom} (hFollow : heap.follow ref path = some found)
    (hObject : heap.get found = some object) (hChild : object.child access = some child) :
    heap.follow ref (path ++ [access]) = some child := by
  rw [follow_append, hFollow]
  simp [follow, hObject, hChild]

omit [DecidableEq Arena] in
theorem follow_mono {found : HeapRef Arena}
    (hKeep : ∀ seen access child, (heap.get seen).bind (·.child access) = some child →
      (other.get seen).bind (·.child access) = some child)
    (hFound : heap.follow ref path = some found) : other.follow ref path = some found := by
  induction path generalizing ref with
  | nil => exact hFound
  | cons access path ih =>
      rw [follow] at hFound ⊢
      obtain ⟨child, hChild, hRest⟩ := Option.bind_eq_some_iff.mp hFound
      rw [hKeep ref access child hChild]
      exact ih hRest

omit [DecidableEq Arena] in
/-- A dictionary entry is set: a path either was there before, or goes through
the entry. -/
theorem follow_of_link {key : String} {entries : List (String × HeapRef Arena)}
    {value found : HeapRef Arena} (hOld : heap.get target = some (.dict entries))
    (hNew : other.get target = some (.dict (Assoc.set key value entries)))
    (hSame : ∀ seen, seen ≠ target → (∃ front, heap.follow ref front = some seen) →
      other.get seen = heap.get seen)
    (hFound : other.follow ref path = some found) :
    heap.follow ref path = some found ∨
      ∃ front back, path = front ++ .key key :: back ∧ heap.follow ref front = some target ∧
        other.follow value back = some found := by
  induction path generalizing ref with
  | nil => exact Or.inl hFound
  | cons access path ih =>
      rw [follow] at hFound
      -- a step that the old heap has too
      have hStep (object : HeapObject Arena Atom) (child : HeapRef Arena)
          (hObject : heap.get ref = some object) (hChild : object.child access = some child)
          (hRest : other.follow child path = some found) :
          heap.follow ref (access :: path) = some found ∨
            ∃ front back, access :: path = front ++ .key key :: back ∧
              heap.follow ref front = some target ∧ other.follow value back = some found := by
        have hFirst : ∀ later, heap.follow ref (access :: later) = heap.follow child later := by
          intro later
          simp [follow, hObject, hChild]
        have hBelow : ∀ seen, seen ≠ target → (∃ front, heap.follow child front = some seen) →
            other.get seen = heap.get seen := by
          rintro seen hSeen ⟨front, hFront⟩
          exact hSame seen hSeen ⟨access :: front, by rw [hFirst, hFront]⟩
        rcases ih hBelow hRest with hLeft | ⟨front, back, hPath, hFront, hBack⟩
        · exact Or.inl (by rw [hFirst, hLeft])
        · refine Or.inr ⟨access :: front, back, ?_, ?_, hBack⟩
          · rw [hPath, List.cons_append]
          · rw [hFirst, hFront]
      by_cases hRef : ref = target
      · subst hRef
        rw [hNew, Option.bind_some] at hFound
        cases access with
        | index position => simp [HeapObject.child] at hFound
        | key name =>
            simp only [HeapObject.child, Assoc.lookup_set] at hFound
            by_cases hName : name = key
            · rw [if_pos hName, Option.bind_some] at hFound
              exact Or.inr ⟨[], path, by rw [hName, List.nil_append], rfl, hFound⟩
            · rw [if_neg hName] at hFound
              obtain ⟨child, hChild, hRest⟩ := Option.bind_eq_some_iff.mp hFound
              exact hStep _ child hOld hChild hRest
      · have hGet := hSame ref hRef ⟨[], rfl⟩
        rw [hGet] at hFound
        obtain ⟨child, hChild, hRest⟩ := Option.bind_eq_some_iff.mp hFound
        obtain ⟨object, hObject, hChild⟩ := Option.bind_eq_some_iff.mp hChild
        exact hStep object child hObject hChild hRest

end ObjectHeap

end Tracecat
