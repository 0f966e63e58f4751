import Tracecat.Expressions.PatchObject

/-!
# The rows of a loop

What `dispatch_action` and `_evaluate_loop_iterations` start from: a base context
and the evaluated iterables, whose zip gives the loop variables of each index.
Every iteration allocates in an arena of its own.
-/

namespace Tracecat

open ObjectHeap

variable {Atom : Type}

/-- What existed before the loop, or what an iteration allocates. -/
abbrev LoopArena : Type := Option Nat

/-- What the loop starts from: the base context and the evaluated iterables,
whose objects all exist. -/
structure LoopInput (Atom : Type) where
  heap : ObjectHeap LoopArena Atom
  base : HeapRef LoopArena
  iterators : List (IterableExpr LoopArena)
  closed : heap.ClosedOn (· = none)
  before : ∀ index, heap.cells (some index) = []
  base_arena : base.arena = none
  base_dict : ∃ entries, heap.get base = some (.dict entries)
  item_arena : ∀ iterable ∈ iterators, ∀ item ∈ iterable.collection, item.arena = none

/-- `input.exec_context.get(ExprContext.LOCAL_VARS)`. -/
def loopVarsOf (heap : ObjectHeap LoopArena Atom) (context : HeapRef LoopArena) :
    Option (HeapRef LoopArena) :=
  (heap.get context).bind (·.child (.key localVars))

namespace LoopInput

variable (input : LoopInput Atom)

/-- `zip(*iterators, strict=False)`. -/
def rows : List (LoopRow LoopArena) :=
  zipIterables input.iterators

/-- The base context patched with the loop variables of one index, and with
nothing else. -/
def aloneContext (index : Nat) :
    Option (HeapRef LoopArena × ObjectHeap LoopArena Atom) :=
  input.rows[index]?.bind fun items =>
    (patchedContext input.heap (some index) input.base items).toOption

/-- The base context has no loop variables, and no loop variable is set inside
one that is set before it. -/
def Independent : Prop :=
  loopVarsOf input.heap input.base = none ∧ Unnested (input.iterators.map IterableExpr.iterator)

end LoopInput

/-! ## Rows -/

theorem mem_zipIterables {iterables : List (IterableExpr LoopArena)} {row : LoopRow LoopArena}
    (hRow : row ∈ zipIterables iterables) :
    row.map Prod.fst = iterables.map IterableExpr.iterator ∧
      ∀ entry ∈ row, ∃ iterable ∈ iterables, entry.2 ∈ iterable.collection := by
  induction iterables generalizing row with
  | nil => cases hRow
  | cons first rest ih =>
      cases rest with
      | nil =>
          obtain ⟨item, hItem, rfl⟩ := List.mem_map.mp hRow
          refine ⟨rfl, fun entry hEntry => ⟨first, List.mem_singleton_self _, ?_⟩⟩
          rwa [List.mem_singleton.mp hEntry]
      | cons second rest =>
          obtain ⟨position, hPosition⟩ := List.mem_iff_getElem?.mp hRow
          obtain ⟨item, later, hItem, hLater, rfl⟩ := List.getElem?_zipWith_eq_some.mp hPosition
          obtain ⟨hPaths, hItems⟩ := ih (List.mem_of_getElem? hLater)
          refine ⟨congrArg (first.iterator :: ·) hPaths, fun entry hEntry => ?_⟩
          rcases List.mem_cons.mp hEntry with rfl | hEntry
          · exact ⟨first, List.mem_cons_self, List.mem_of_getElem? hItem⟩
          · obtain ⟨iterable, hMem, hEntry⟩ := hItems entry hEntry
            exact ⟨iterable, List.mem_cons_of_mem _ hMem, hEntry⟩

namespace LoopInput

variable {input : LoopInput Atom} {index : Nat} {row : LoopRow LoopArena}

theorem row_arena (hRow : input.rows[index]? = some row) :
    ∀ entry ∈ row, entry.2.arena = none := by
  intro entry hEntry
  obtain ⟨iterable, hMem, hItem⟩ :=
    (mem_zipIterables (List.mem_of_getElem? hRow)).2 entry hEntry
  exact input.item_arena iterable hMem entry.2 hItem

theorem closed_of_none {within : LoopArena → Prop} (hNone : within none) :
    input.heap.ClosedOn within := by
  intro ref object hRef hObject child hChild
  cases hArena : ref.arena with
  | none =>
      rw [input.closed ref object hArena hObject child hChild]
      exact hNone
  | some index =>
      rw [ObjectHeap.get, hArena, input.before index] at hObject
      cases hObject

/-- The arenas that an iteration sees. -/
def Sees (index : Nat) (arena : LoopArena) : Prop :=
  arena = none ∨ arena = some index

/-- By itself, an index gets its context and leaves the base context as it is. -/
theorem Independent.alone (hIndependent : input.Independent)
    (hRow : input.rows[index]? = some row) :
    ∃ own heap, patchedContext input.heap (some index) input.base row = .ok (own, heap) ∧
      own.arena = some index ∧ heap.cells none = input.heap.cells none := by
  obtain ⟨entries, hEntries⟩ := input.base_dict
  have hNone : (none : LoopArena) ≠ some index := by simp
  have hBase : input.base.arena ≠ some index := by
    rw [input.base_arena]
    exact hNone
  have hVar : entries.lookup localVars = none := by
    have hVars := hIndependent.1
    rwa [loopVarsOf, hEntries] at hVars
  have hItems : ∀ entry ∈ row, entry.2.arena ≠ some index := by
    intro entry hEntry
    rw [row_arena hRow entry hEntry]
    exact hNone
  have hUnnested : Unnested (row.map Prod.fst) := by
    rw [(mem_zipIterables (List.mem_of_getElem? hRow)).1]
    exact hIndependent.2
  obtain ⟨own, heap, hPatched, hOwn, hElsewhere⟩ := patchedContext_owned
    (closed_of_none hNone) hBase hEntries hVar hItems hUnnested
  exact ⟨own, heap, hPatched, hOwn, hElsewhere none hNone⟩

theorem aloneContext_eq {own : HeapRef LoopArena} {heap : ObjectHeap LoopArena Atom}
    (hRow : input.rows[index]? = some row)
    (hPatched : patchedContext input.heap (some index) input.base row = .ok (own, heap)) :
    input.aloneContext index = some (own, heap) := by
  rw [aloneContext, hRow, Option.bind_some, hPatched]
  rfl

end LoopInput

open LoopInput

/-- The heap when the first indices have their contexts: the base context is as
it was, and every context is what it is by itself. -/
structure LoopHeap (input : LoopInput Atom) (position : Nat)
    (heap : ObjectHeap LoopArena Atom) : Prop where
  base : heap.cells none = input.heap.cells none
  unused : ∀ index, position ≤ index → heap.cells (some index) = []
  contexts : ∀ index, index < position → ∃ own alone,
    input.aloneContext index = some (own, alone) ∧ own.arena = some index ∧
      alone.ClosedOn (Sees index) ∧ AgreeOn (Sees index) alone heap

namespace LoopHeap

variable {input : LoopInput Atom} {position index : Nat} {heap alone : ObjectHeap LoopArena Atom}
  {row : LoopRow LoopArena} {own : HeapRef LoopArena}

theorem start : LoopHeap input 0 input.heap where
  base := rfl
  unused index _ := input.before index
  contexts index hIndex := absurd hIndex (Nat.not_lt_zero index)

theorem patch (hHeap : LoopHeap input position heap) (hIndependent : input.Independent)
    (hRow : input.rows[position]? = some row) :
    ∃ own alone patched,
      patchedContext heap (some position) input.base row = .ok (own, patched) ∧
        input.aloneContext position = some (own, alone) ∧
        LoopHeap input (position + 1) patched := by
  obtain ⟨own, alone, hAlone, hOwn, hAloneBase⟩ := hIndependent.alone hRow
  have hAgree : AgreeOn (Sees position) input.heap heap := by
    rintro arena (rfl | rfl)
    · exact hHeap.base.symm
    · rw [input.before, hHeap.unused _ (Nat.le_refl _)]
  obtain ⟨patched, hPatched, hLocal⟩ := patchedContext_local (closed_of_none (Or.inl rfl)) hAgree
    (Or.inr rfl) (Or.inl input.base_arena)
    (fun entry hEntry => Or.inl (row_arena hRow entry hEntry)) hAlone
  have hContext := aloneContext_eq hRow hAlone
  have hBase : patched.cells none = input.heap.cells none := by
    rw [← hLocal.agree none (Or.inl rfl), hAloneBase]
  -- the arenas of the other iterations stay
  have hOthers : ∀ index, index ≠ position →
      patched.cells (some index) = heap.cells (some index) := by
    intro index hIndex
    apply hLocal.frame
    rintro (hNone | hSome)
    · cases hNone
    · exact hIndex (Option.some.inj hSome)
  refine ⟨own, alone, patched, hPatched, hContext, hBase, ?_, ?_⟩
  · intro index hIndex
    have hPast : position < index := hIndex
    rw [hOthers index (Nat.ne_of_gt hPast), hHeap.unused index (Nat.le_of_lt hPast)]
  · intro index hIndex
    rcases Nat.lt_succ_iff_lt_or_eq.mp hIndex with hBefore | rfl
    · obtain ⟨before, aloneBefore, hBefore', hArena, hClosed, hAgreeBefore⟩ :=
        hHeap.contexts index hBefore
      refine ⟨before, aloneBefore, hBefore', hArena, hClosed, ?_⟩
      rintro arena (rfl | rfl)
      · rw [hAgreeBefore none (Or.inl rfl), hHeap.base, hBase]
      · rw [hAgreeBefore _ (Or.inr rfl), hOthers index (Nat.ne_of_lt hBefore)]
    · exact ⟨own, alone, hContext, hOwn, hLocal.closed, hLocal.agree⟩

/-- A context is, and stays, what it is by itself. -/
theorem follow_eq (hHeap : LoopHeap input position heap) (hIndex : index < position)
    (hAlone : input.aloneContext index = some (own, alone)) (path : List Access) :
    alone.follow own path = heap.follow own path ∧
      ∀ found, alone.follow own path = some found → alone.view found = heap.view found := by
  obtain ⟨own', alone', hAlone', hArena, hClosed, hAgree⟩ := hHeap.contexts index hIndex
  rw [hAlone, Option.some.injEq, Prod.mk.injEq] at hAlone'
  obtain ⟨rfl, rfl⟩ := hAlone'
  obtain ⟨hFollow, hWithin⟩ := follow_congr hClosed hAgree (Or.inr hArena) path
  exact ⟨hFollow, fun found hFound => view_congr hClosed hAgree (hWithin found hFound)⟩

theorem view_eq (hHeap : LoopHeap input position heap) (hIndex : index < position)
    (hAlone : input.aloneContext index = some (own, alone)) : alone.view own = heap.view own :=
  (hHeap.follow_eq hIndex hAlone []).2 own rfl

theorem loopVarsOf_eq (hHeap : LoopHeap input position heap) (hIndex : index < position)
    (hAlone : input.aloneContext index = some (own, alone)) :
    loopVarsOf alone own = loopVarsOf heap own := by
  obtain ⟨own', alone', hAlone', hArena, _, hAgree⟩ := hHeap.contexts index hIndex
  rw [hAlone, Option.some.injEq, Prod.mk.injEq] at hAlone'
  obtain ⟨rfl, rfl⟩ := hAlone'
  rw [loopVarsOf, loopVarsOf, hAgree.get (Or.inr hArena)]

end LoopHeap

namespace SampleLoop

def path (first : String) (rest : List String)
    (hPlain : ∀ name ∈ first :: rest, '.' ∉ name.toList) : AttributePath where
  names := first :: rest
  nonempty := List.cons_ne_nil first rest
  plain := hPlain

def pathA : AttributePath := path "a" [] (by decide)

def pathB : AttributePath := path "b" [] (by decide)

def pathAB : AttributePath := path "a" ["b"] (by decide)

/-- The context with `TRIGGER` as two empty dictionaries, and two atoms. -/
def objects (one two : Atom) : List (HeapObject LoopArena Atom) :=
  [.dict [("TRIGGER", ⟨none, 1⟩)], .list [⟨none, 2⟩, ⟨none, 3⟩], .dict [], .dict [],
    .atom one, .atom two]

/-- `var.a` runs over the dictionaries and the second variable over the atoms. -/
def input (one two : Atom) (second : AttributePath) : LoopInput Atom where
  heap := ⟨fun arena => if arena = none then objects one two else []⟩
  base := ⟨none, 0⟩
  iterators := [⟨pathA, [⟨none, 2⟩, ⟨none, 3⟩]⟩, ⟨second, [⟨none, 4⟩, ⟨none, 5⟩]⟩]
  closed := by
    rintro ⟨arena, slot⟩ object rfl hObject child hChild
    have hMem : object ∈ objects one two := List.mem_of_getElem? hObject
    have hRefs : ∀ found ∈ objects one two, ∀ ref ∈ found.refs, ref.arena = none := by
      simp [objects, HeapObject.refs]
    exact hRefs object hMem child hChild
  before _ := rfl
  base_arena := rfl
  base_dict := ⟨_, rfl⟩
  item_arena := by simp

end SampleLoop

end Tracecat
