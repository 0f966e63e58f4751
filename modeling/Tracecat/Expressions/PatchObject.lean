import Tracecat.Lib.Checks
import Tracecat.Lib.ObjectHeap

/-!
# Loop variables

`patch_object` (`executor/service.py`) and `_patch_object` (`dsl/action.py`)
write a loop variable under `var` in a shallow copy of the base context.  A task
allocates in an arena of its own.

* `patchedContext_local`: what a task patches depends on the arenas that it sees.
* `patchedContext_owned`: when the base context has no `var` and no loop variable
  is set inside another one, a task changes no object but those that it made.
-/

namespace Tracecat

variable {Arena Atom : Type}

/-- The text of `ATTRIBUTE_PATH`, `("." CNAME)+`. -/
structure AttributePath where
  names : List String
  nonempty : names ≠ []
  plain : ∀ name ∈ names, '.' ∉ name.toList

def AttributePath.text (path : AttributePath) : String :=
  String.join (path.names.map ("." ++ ·))

/-- `IterableExpr`, with the objects that iterating over its collection gives. -/
structure IterableExpr (Arena : Type) where
  iterator : AttributePath
  collection : List (HeapRef Arena)

/-- `ExprContext.LOCAL_VARS`. -/
def localVars : String := "var"

/-- What `zip` gives for one index. -/
abbrev LoopRow (Arena : Type) : Type := List (AttributePath × HeapRef Arena)

/-- `zip(*iterators, strict=False)`. -/
def zipIterables : List (IterableExpr Arena) → List (LoopRow Arena)
  | [] => []
  | [last] => last.collection.map fun item => [(last.iterator, item)]
  | first :: rest =>
      List.zipWith (fun item row => (first.iterator, item) :: row) first.collection
        (zipIterables rest)

/-- What Python raises when the object on the way is no dictionary. -/
inductive PatchError
  | attributeError
  | typeError
  deriving DecidableEq, Repr

/-- `path.split(sep=sep)`. -/
def splitPath (path : String) : List String :=
  (path.toList.splitOn '.').map String.ofList

variable [DecidableEq Arena]

/-- `obj.setdefault(key, {})`. -/
def setdefault (heap : ObjectHeap Arena Atom) (arena : Arena) (obj : HeapRef Arena)
    (key : String) : Except PatchError (HeapRef Arena × ObjectHeap Arena Atom) :=
  match heap.get obj with
  | some (.dict entries) =>
      match entries.lookup key with
      | some child => .ok (child, heap)
      | none =>
          let fresh := heap.alloc arena (.dict [])
          .ok (fresh.1, fresh.2.write obj (.dict (Assoc.set key fresh.1 entries)))
  | _ => .error .attributeError

/-- `obj[key] = value`. -/
def setitem (heap : ObjectHeap Arena Atom) (obj : HeapRef Arena) (key : String)
    (value : HeapRef Arena) : Except PatchError (ObjectHeap Arena Atom) :=
  match heap.get obj with
  | some (.dict entries) => .ok (heap.write obj (.dict (Assoc.set key value entries)))
  | _ => .error .typeError

/-- The loop of `patch_object` over the keys of the path. -/
def patchKeys (heap : ObjectHeap Arena Atom) (arena : Arena) (obj : HeapRef Arena)
    (value : HeapRef Arena) : List String → Except PatchError (ObjectHeap Arena Atom)
  | [] => .ok heap
  | [leaf] => setitem heap obj leaf value
  | key :: rest => do
      let (child, heap) ← setdefault heap arena obj key
      patchKeys heap arena child value rest

theorem patchKeys_cons_cons (heap : ObjectHeap Arena Atom) (arena : Arena)
    (obj value : HeapRef Arena) (key next : String) (rest : List String) :
    patchKeys heap arena obj value (key :: next :: rest) =
      (setdefault heap arena obj key >>= fun found =>
        patchKeys found.2 arena found.1 value (next :: rest)) := rfl

def patchObject (heap : ObjectHeap Arena Atom) (arena : Arena) (obj : HeapRef Arena)
    (path : String) (value : HeapRef Arena) : Except PatchError (ObjectHeap Arena Atom) :=
  patchKeys heap arena obj value (splitPath path)

/-- Every loop variable of a row is patched in. -/
def patchRow (arena : Arena) (obj : HeapRef Arena) :
    LoopRow Arena → ObjectHeap Arena Atom → Except PatchError (ObjectHeap Arena Atom)
  | [], heap => .ok heap
  | (iteratorPath, iteratorValue) :: row, heap => do
      let heap ← patchObject heap arena obj (localVars ++ iteratorPath.text) iteratorValue
      patchRow arena obj row heap

/-- `base_context.copy()` with the loop variables of a row. -/
def patchedContext (heap : ObjectHeap Arena Atom) (arena : Arena) (base : HeapRef Arena)
    (row : LoopRow Arena) : Except PatchError (HeapRef Arena × ObjectHeap Arena Atom) :=
  match heap.get base with
  | some (.dict entries) => do
      let copy := heap.alloc arena (.dict entries)
      let heap ← patchRow arena copy.1 row copy.2
      .ok (copy.1, heap)
  | _ => .error .attributeError

/-- No loop variable is set inside one that is set before it. -/
def Unnested (paths : List AttributePath) : Prop :=
  paths.Pairwise fun earlier later =>
    earlier.names <+: later.names → earlier.names = later.names

instance (paths : List AttributePath) : Decidable (Unnested paths) :=
  inferInstanceAs (Decidable (paths.Pairwise _))

/-! ## Paths -/

omit [DecidableEq Arena] in
theorem toList_text (names : List String) :
    (String.join (names.map ("." ++ ·))).toList =
      (names.map fun name => '.' :: name.toList).flatten := by
  induction names with
  | nil => rfl
  | cons name names ih => simp [ih]

theorem splitPath_localVars (path : AttributePath) :
    splitPath (localVars ++ path.text) = localVars :: path.names := by
  have hList : (localVars ++ path.text).toList =
      ['.'].intercalate ((localVars :: path.names).map String.toList) := by
    rw [String.toList_append, AttributePath.text, toList_text]
    generalize localVars = first
    induction path.names generalizing first with
    | nil => simp
    | cons name names ih =>
        have hRest := ih name
        simp only [List.map_cons, List.intercalate_cons_cons, List.flatten_cons] at hRest ⊢
        simp [← hRest]
  rw [splitPath, hList, List.splitOn_intercalate]
  · simp
  · intro chars hChars
    obtain ⟨name, hName, rfl⟩ := List.mem_map.mp hChars
    rcases List.mem_cons.mp hName with rfl | hName
    · decide
    · exact path.plain name hName
  · simp

variable {heap other : ObjectHeap Arena Atom} {within : Arena → Prop} {arena : Arena}
  {obj value base : HeapRef Arena} {key : String}

/-! ## A task sees its arenas only -/

open ObjectHeap

/-- An operation that gave `patched` gives the same in a heap that agrees, and
leaves the other arenas as they are. -/
structure LocalStep (within : Arena → Prop) (other patched patchedOther : ObjectHeap Arena Atom) :
    Prop where
  closed : patched.ClosedOn within
  agree : AgreeOn within patched patchedOther
  frame : ∀ elsewhere, ¬ within elsewhere → patchedOther.cells elsewhere = other.cells elsewhere

theorem setdefault_local {child : HeapRef Arena} {patched : ObjectHeap Arena Atom}
    (hClosed : heap.ClosedOn within) (hAgree : AgreeOn within heap other) (hArena : within arena)
    (hObj : within obj.arena) (hPatched : setdefault heap arena obj key = .ok (child, patched)) :
    within child.arena ∧ ∃ patchedOther, setdefault other arena obj key = .ok (child, patchedOther) ∧
      LocalStep within other patched patchedOther := by
  unfold setdefault at hPatched ⊢
  rw [← hAgree.get hObj]
  cases hObject : heap.get obj with
  | none => simp [hObject] at hPatched
  | some object =>
      cases object with
      | atom value => simp [hObject] at hPatched
      | list items => simp [hObject] at hPatched
      | dict entries =>
          have hEntries := hClosed obj _ hObj hObject
          cases hLookup : entries.lookup key with
          | some found =>
              simp only [hObject, hLookup, Except.ok.injEq, Prod.mk.injEq] at hPatched ⊢
              obtain ⟨rfl, rfl⟩ := hPatched
              have hChild : (HeapObject.dict entries : HeapObject Arena Atom).child (.key key) =
                  some found := hLookup
              exact ⟨hEntries found (HeapObject.child_mem_refs hChild), other, ⟨rfl, rfl⟩,
                hClosed, hAgree, fun _ _ => rfl⟩
          | none =>
              simp only [hObject, hLookup, Except.ok.injEq, Prod.mk.injEq] at hPatched ⊢
              obtain ⟨rfl, rfl⟩ := hPatched
              have hNew : (heap.alloc arena (.dict [])).2.ClosedOn within :=
                hClosed.alloc (by simp [HeapObject.refs])
              obtain ⟨hRef, hAlloc⟩ := hAgree.alloc (.dict []) hArena
              refine ⟨hArena, _, ⟨hRef.symm, rfl⟩, ?_, ?_, ?_⟩
              · apply hNew.write (get_alloc_of_get hObject)
                intro ref hMem
                rcases Assoc.mem_values_set hMem with rfl | hMem
                · exact hArena
                · exact hEntries ref hMem
              · rw [← hRef]
                exact hAlloc.write hObj
              · intro elsewhere hElsewhere
                have hNe : elsewhere ≠ arena := fun hEq => hElsewhere (hEq ▸ hArena)
                have hNeObj : elsewhere ≠ obj.arena := fun hEq => hElsewhere (hEq ▸ hObj)
                rw [cells_write_of_ne hNeObj, cells_alloc_of_ne hNe]

theorem setitem_local {patched : ObjectHeap Arena Atom}
    (hClosed : heap.ClosedOn within) (hAgree : AgreeOn within heap other)
    (hObj : within obj.arena) (hValue : within value.arena)
    (hPatched : setitem heap obj key value = .ok patched) :
    ∃ patchedOther, setitem other obj key value = .ok patchedOther ∧
      LocalStep within other patched patchedOther := by
  unfold setitem at hPatched ⊢
  rw [← hAgree.get hObj]
  cases hObject : heap.get obj with
  | none => simp [hObject] at hPatched
  | some object =>
      cases object with
      | atom value => simp [hObject] at hPatched
      | list items => simp [hObject] at hPatched
      | dict entries =>
          simp only [hObject, Except.ok.injEq] at hPatched ⊢
          subst hPatched
          refine ⟨_, rfl, ?_, hAgree.write hObj, ?_⟩
          · apply hClosed.write hObject
            intro ref hMem
            rcases Assoc.mem_values_set hMem with rfl | hMem
            · exact hValue
            · exact hClosed obj _ hObj hObject ref hMem
          · intro elsewhere hElsewhere
            exact cells_write_of_ne (fun hEq => hElsewhere (hEq ▸ hObj))

omit [DecidableEq Arena] in
theorem LocalStep.trans {between betweenOther patched patchedOther : ObjectHeap Arena Atom}
    (hFirst : LocalStep within other between betweenOther)
    (hSecond : LocalStep within betweenOther patched patchedOther) :
    LocalStep within other patched patchedOther where
  closed := hSecond.closed
  agree := hSecond.agree
  frame elsewhere hElsewhere := by
    rw [hSecond.frame elsewhere hElsewhere, hFirst.frame elsewhere hElsewhere]

theorem patchKeys_local {keys : List String} {patched : ObjectHeap Arena Atom}
    (hClosed : heap.ClosedOn within) (hAgree : AgreeOn within heap other) (hArena : within arena)
    (hObj : within obj.arena) (hValue : within value.arena)
    (hPatched : patchKeys heap arena obj value keys = .ok patched) :
    ∃ patchedOther, patchKeys other arena obj value keys = .ok patchedOther ∧
      LocalStep within other patched patchedOther := by
  induction keys generalizing heap other obj with
  | nil =>
      rw [patchKeys, Except.ok.injEq] at hPatched
      subst hPatched
      exact ⟨other, rfl, hClosed, hAgree, fun _ _ => rfl⟩
  | cons key keys ih =>
      cases keys with
      | nil => exact setitem_local hClosed hAgree hObj hValue hPatched
      | cons next keys =>
          obtain ⟨⟨child, between⟩, hFirst, hRest⟩ := Checks.bind_eq_ok.mp hPatched
          obtain ⟨hChild, betweenOther, hOther, hStep⟩ :=
            setdefault_local hClosed hAgree hArena hObj hFirst
          obtain ⟨patchedOther, hPatchedOther, hLater⟩ := ih hStep.closed hStep.agree hChild hRest
          refine ⟨patchedOther, ?_, hStep.trans hLater⟩
          rw [patchKeys_cons_cons, hOther]
          exact hPatchedOther

theorem patchRow_local {row : LoopRow Arena} {patched : ObjectHeap Arena Atom}
    (hClosed : heap.ClosedOn within) (hAgree : AgreeOn within heap other) (hArena : within arena)
    (hObj : within obj.arena) (hRow : ∀ entry ∈ row, within entry.2.arena)
    (hPatched : patchRow arena obj row heap = .ok patched) :
    ∃ patchedOther, patchRow arena obj row other = .ok patchedOther ∧
      LocalStep within other patched patchedOther := by
  induction row generalizing heap other with
  | nil =>
      rw [patchRow, Except.ok.injEq] at hPatched
      subst hPatched
      exact ⟨other, rfl, hClosed, hAgree, fun _ _ => rfl⟩
  | cons entry row ih =>
      obtain ⟨between, hFirst, hRest⟩ := Checks.bind_eq_ok.mp hPatched
      obtain ⟨betweenOther, hOther, hStep⟩ :=
        patchKeys_local hClosed hAgree hArena hObj (hRow entry List.mem_cons_self) hFirst
      obtain ⟨patchedOther, hPatchedOther, hLater⟩ := ih hStep.closed hStep.agree
        (fun later hMem => hRow later (List.mem_cons_of_mem _ hMem)) hRest
      refine ⟨patchedOther, ?_, hStep.trans hLater⟩
      rw [patchRow, patchObject, hOther]
      exact hPatchedOther

theorem patchedContext_local {row : LoopRow Arena} {context : HeapRef Arena}
    {patched : ObjectHeap Arena Atom}
    (hClosed : heap.ClosedOn within) (hAgree : AgreeOn within heap other) (hArena : within arena)
    (hBase : within base.arena) (hRow : ∀ entry ∈ row, within entry.2.arena)
    (hPatched : patchedContext heap arena base row = .ok (context, patched)) :
    ∃ patchedOther, patchedContext other arena base row = .ok (context, patchedOther) ∧
      LocalStep within other patched patchedOther := by
  unfold patchedContext at hPatched ⊢
  rw [← hAgree.get hBase]
  cases hObject : heap.get base with
  | none => simp [hObject] at hPatched
  | some object =>
      cases object with
      | atom value => simp [hObject] at hPatched
      | list items => simp [hObject] at hPatched
      | dict entries =>
          simp only [hObject] at hPatched ⊢
          obtain ⟨between, hPatch, hResult⟩ := Checks.bind_eq_ok.mp hPatched
          cases hResult
          obtain ⟨hRef, hAlloc⟩ := hAgree.alloc (.dict entries) hArena
          have hNew : (heap.alloc arena (.dict entries)).2.ClosedOn within :=
            hClosed.alloc (hClosed base _ hBase hObject)
          obtain ⟨patchedOther, hOther, hStep⟩ :=
            patchRow_local hNew hAlloc hArena hArena hRow hPatch
          refine ⟨patchedOther, ?_, hStep.closed, hStep.agree, fun elsewhere hElsewhere => ?_⟩
          · rw [← hRef, hOther]
            rfl
          · have hNe : elsewhere ≠ arena := fun hEq => hElsewhere (hEq ▸ hArena)
            rw [hStep.frame elsewhere hElsewhere, cells_alloc_of_ne hNe]

/-! ## A task changes what it made -/

/-- The path of keys under `var`. -/
def varPath (names : List String) : List Access :=
  (localVars :: names).map .key

/-- The loop variables `done` are in the copy, and whatever else is below `var`
was made for it.  The objects of the task form a tree. -/
structure Owned (start : ObjectHeap Arena Atom) (arena : Arena) (context : HeapRef Arena)
    (done : List (List String)) (heap : ObjectHeap Arena Atom) : Prop where
  elsewhere : ∀ other, other ≠ arena → heap.cells other = start.cells other
  own : ∀ path found, heap.follow context path = some found → found.arena = arena →
    ∃ entries, heap.get found = some (.dict entries)
  covered : ∀ names found, heap.follow context (varPath names) = some found →
    found.arena ≠ arena → ∃ earlier ∈ done, earlier <+: names
  unique : ∀ path other found, heap.follow context path = some found →
    heap.follow context other = some found → found.arena = arena → path = other

variable {start : ObjectHeap Arena Atom} {context : HeapRef Arena} {done : List (List String)}

omit [DecidableEq Arena] in
theorem follow_outside (hClosed : start.ClosedOn (· ≠ arena))
    (hElsewhere : ∀ other, other ≠ arena → heap.cells other = start.cells other)
    {ref found : HeapRef Arena} {path : List Access} (hRef : ref.arena ≠ arena)
    (hFound : heap.follow ref path = some found) : found.arena ≠ arena := by
  have hAgree : AgreeOn (· ≠ arena) start heap := fun other hOther => (hElsewhere other hOther).symm
  obtain ⟨hSame, hStays⟩ := follow_congr hClosed hAgree hRef path
  exact hStays found (hSame.trans hFound)

theorem Owned.setdefault_ok (hOwned : Owned start arena context done heap) (key : String)
    {path : List Access} (hPath : heap.follow context path = some obj) (hObj : obj.arena = arena) :
    ∃ child patched, setdefault heap arena obj key = .ok (child, patched) ∧
      Owned start arena context done patched ∧
      patched.follow context (path ++ [.key key]) = some child := by
  obtain ⟨entries, hEntries⟩ := hOwned.own path obj hPath hObj
  cases hLookup : entries.lookup key with
  | some child =>
      refine ⟨child, heap, by simp [setdefault, hEntries, hLookup], hOwned, ?_⟩
      exact follow_concat hPath hEntries hLookup
  | none =>
      set fresh := (heap.alloc arena (.dict [])).1 with hFreshRef
      set patched := (heap.alloc arena (.dict [])).2.write obj
        (.dict (Assoc.set key fresh entries)) with hPatched
      have hUnused : heap.get fresh = none := get_fresh
      have hGet (ref : HeapRef Arena) : patched.get ref =
          if ref = obj then some (.dict (Assoc.set key fresh entries))
          else if ref = fresh then some (.dict []) else heap.get ref := by
        rw [hPatched, get_write (get_alloc_of_get hEntries), get_alloc]
      -- the new identity is at the end of no path of the old heap
      have hNotFresh (front : List Access) (seen : HeapRef Arena)
          (hSeen : heap.follow context front = some seen) : seen ≠ fresh := by
        rintro rfl
        obtain ⟨_, hDict⟩ := hOwned.own front fresh hSeen rfl
        rw [hUnused] at hDict
        cases hDict
      have hObjNe : obj ≠ fresh := hNotFresh path obj hPath
      have hFreshGet : patched.get fresh = some (.dict []) := by
        rw [hGet, if_neg (Ne.symm hObjNe), if_pos rfl]
      have hSame : ∀ seen, seen ≠ obj → (∃ front, heap.follow context front = some seen) →
          patched.get seen = heap.get seen := by
        rintro seen hSeen ⟨front, hFront⟩
        rw [hGet, if_neg hSeen, if_neg (hNotFresh front seen hFront)]
      have hTarget : patched.get obj = some (.dict (Assoc.set key fresh entries)) := by
        rw [hGet, if_pos rfl]
      have hCases (route : List Access) (found : HeapRef Arena)
          (hFound : patched.follow context route = some found) :
          heap.follow context route = some found ∨
            route = path ++ [.key key] ∧ found = fresh := by
        rcases follow_of_link hEntries hTarget hSame hFound with hOld | ⟨front, back, hRoute, hFront,
          hBack⟩
        · exact Or.inl hOld
        · have hFrontEq := hOwned.unique front path obj hFront hPath hObj
          cases back with
          | nil =>
              cases hBack
              exact Or.inr ⟨by rw [hRoute, hFrontEq], rfl⟩
          | cons access back =>
              rw [follow, hFreshGet] at hBack
              cases access <;> simp [HeapObject.child] at hBack
      refine ⟨fresh, patched, by simp [setdefault, hEntries, hLookup, hFreshRef, hPatched],
        ⟨?_, ?_, ?_, ?_⟩, ?_⟩
      · intro other hOther
        rw [hPatched, cells_write_of_ne (fun hEq => hOther (hEq.trans hObj)),
          cells_alloc_of_ne hOther, hOwned.elsewhere other hOther]
      · intro route found hFound hArena
        rcases hCases route found hFound with hOld | ⟨_, rfl⟩
        · obtain ⟨others, hDict⟩ := hOwned.own route found hOld hArena
          by_cases hFoundObj : found = obj
          · exact ⟨_, by rw [hFoundObj, hTarget]⟩
          · exact ⟨others, by rw [hSame found hFoundObj ⟨route, hOld⟩, hDict]⟩
        · exact ⟨[], hFreshGet⟩
      · intro names found hFound hOutside
        rcases hCases _ found hFound with hOld | ⟨_, rfl⟩
        · exact hOwned.covered names found hOld hOutside
        · exact absurd rfl hOutside
      · intro route other found hRoute hOther hArena
        rcases hCases route found hRoute with hOld | ⟨hEq, hNew⟩
        · rcases hCases other found hOther with hOld' | ⟨_, hNew'⟩
          · exact hOwned.unique route other found hOld hOld' hArena
          · exact absurd hNew' (hNotFresh route found hOld)
        · rcases hCases other found hOther with hOld' | ⟨hEq', _⟩
          · exact absurd hNew (hNotFresh other found hOld')
          · rw [hEq, hEq']
      · have hReach : patched.follow context path = some obj := by
          apply follow_mono _ hPath
          intro seen access child hChild
          rw [hGet]
          split_ifs with hSeenObj hSeenFresh
          · rw [hSeenObj, hEntries] at hChild
            cases access with
            | index position => simp [HeapObject.child] at hChild
            | key name =>
                have hName : name ≠ key := by
                  rintro rfl
                  simp [HeapObject.child, hLookup] at hChild
                simpa [HeapObject.child, hName] using hChild
          · rw [hSeenFresh, hUnused] at hChild
            cases hChild
          · exact hChild
        refine follow_concat hReach hTarget ?_
        simp [HeapObject.child]

theorem Owned.setitem_ok (hOwned : Owned start arena context done heap)
    (hClosed : start.ClosedOn (· ≠ arena)) {names : List String} {leaf : String}
    (hPath : heap.follow context ((localVars :: names).map .key) = some obj)
    (hObj : obj.arena = arena) (hValue : value.arena ≠ arena) :
    ∃ patched, setitem heap obj leaf value = .ok patched ∧
      Owned start arena context (done ++ [names ++ [leaf]]) patched := by
  obtain ⟨entries, hEntries⟩ := hOwned.own _ obj hPath hObj
  have hGet (ref : HeapRef Arena) :
      (heap.write obj (.dict (Assoc.set leaf value entries))).get ref =
        if ref = obj then some (.dict (Assoc.set leaf value entries)) else heap.get ref :=
    get_write hEntries
  set patched := heap.write obj (.dict (Assoc.set leaf value entries)) with hPatched
  have hElsewhere : ∀ other, other ≠ arena → patched.cells other = start.cells other := by
    intro other hOther
    rw [hPatched, cells_write_of_ne (fun hEq => hOther (hEq.trans hObj)),
      hOwned.elsewhere other hOther]
  have hTarget : patched.get obj = some (.dict (Assoc.set leaf value entries)) := by
    rw [hGet, if_pos rfl]
  have hSame : ∀ seen, seen ≠ obj → (∃ front, heap.follow context front = some seen) →
      patched.get seen = heap.get seen := by
    rintro seen hSeen -
    rw [hGet, if_neg hSeen]
  -- a new path goes through the new entry, and from there it stays outside
  have hCases (route : List Access) (found : HeapRef Arena)
      (hFound : patched.follow context route = some found) :
      heap.follow context route = some found ∨
        found.arena ≠ arena ∧ varPath (names ++ [leaf]) <+: route := by
    rcases follow_of_link hEntries hTarget hSame hFound with hOld | ⟨front, back, hRoute, hFront,
      hBack⟩
    · exact Or.inl hOld
    · refine Or.inr ⟨follow_outside hClosed hElsewhere hValue hBack, back, ?_⟩
      rw [hRoute, hOwned.unique front _ obj hFront hPath hObj]
      simp [varPath]
  refine ⟨patched, by simp [setitem, hEntries, hPatched], hElsewhere, ?_, ?_, ?_⟩
  · intro route found hFound hArena
    rcases hCases route found hFound with hOld | ⟨hOutside, _⟩
    · obtain ⟨others, hDict⟩ := hOwned.own route found hOld hArena
      by_cases hFoundObj : found = obj
      · exact ⟨_, by rw [hFoundObj, hTarget]⟩
      · exact ⟨others, by rw [hGet, if_neg hFoundObj, hDict]⟩
    · exact absurd hArena hOutside
  · intro later found hFound hOutside
    rcases hCases _ found hFound with hOld | ⟨_, hNew⟩
    · obtain ⟨earlier, hMem, hPrefix⟩ := hOwned.covered later found hOld hOutside
      exact ⟨earlier, List.mem_append_left _ hMem, hPrefix⟩
    · refine ⟨names ++ [leaf], by simp, ?_⟩
      have hKeys : Function.Injective Access.key := fun _ _ hEq => Access.key.inj hEq
      have hCons := (List.prefix_map_iff_of_injective hKeys).mp hNew
      exact (List.cons_prefix_cons.mp hCons).2
  · intro route other found hRoute hOther hArena
    rcases hCases route found hRoute with hOld | ⟨hOutside, _⟩
    · rcases hCases other found hOther with hOld' | ⟨hOutside, _⟩
      · exact hOwned.unique route other found hOld hOld' hArena
      · exact absurd hArena hOutside
    · exact absurd hArena hOutside

theorem Owned.patchKeys_ok (walked : List String) (hClosed : start.ClosedOn (· ≠ arena))
    (hValue : value.arena ≠ arena) {rest : List String} (hRest : rest ≠ [])
    (hOwned : Owned start arena context done heap)
    (hDone : ∀ earlier ∈ done, earlier <+: walked ++ rest → earlier = walked ++ rest)
    (hPath : heap.follow context (varPath walked) = some obj) (hObj : obj.arena = arena) :
    ∃ patched, patchKeys heap arena obj value rest = .ok patched ∧
      Owned start arena context (done ++ [walked ++ rest]) patched := by
  induction rest generalizing heap obj walked with
  | nil => exact absurd rfl hRest
  | cons key rest ih =>
      cases rest with
      | nil => exact hOwned.setitem_ok hClosed hPath hObj hValue
      | cons next rest =>
          obtain ⟨child, between, hSetdefault, hBetween, hChild⟩ :=
            hOwned.setdefault_ok key hPath hObj
          have hStem : varPath (walked ++ [key]) = varPath walked ++ [.key key] := by
            simp [varPath]
          rw [← hStem] at hChild
          have hWhole : (walked ++ [key]) ++ (next :: rest) = walked ++ key :: next :: rest := by
            simp
          have hChildArena : child.arena = arena := by
            by_contra hOutside
            obtain ⟨earlier, hMem, hPrefix⟩ := hBetween.covered _ child hChild hOutside
            have hEq := hDone earlier hMem (hPrefix.trans ⟨next :: rest, hWhole⟩)
            have hLength := hPrefix.length_le
            rw [hEq] at hLength
            simp at hLength
          rw [← hWhole] at hDone ⊢
          obtain ⟨patched, hPatched, hLater⟩ :=
            ih (walked ++ [key]) (by simp) hBetween hDone hChild hChildArena
          refine ⟨patched, ?_, hLater⟩
          rw [patchKeys_cons_cons, hSetdefault]
          exact hPatched

theorem Owned.patchRow_ok (hClosed : start.ClosedOn (· ≠ arena)) (hContext : context.arena = arena)
    {row : LoopRow Arena} (hRow : ∀ entry ∈ row, entry.2.arena ≠ arena)
    (hUnnested : Unnested (row.map Prod.fst)) (hOwned : Owned start arena context done heap)
    (hDone : ∀ earlier ∈ done, ∀ entry ∈ row, earlier <+: entry.1.names →
      earlier = entry.1.names) :
    ∃ patched, patchRow arena context row heap = .ok patched ∧
      ∀ other, other ≠ arena → patched.cells other = start.cells other := by
  induction row generalizing heap done with
  | nil => exact ⟨heap, rfl, hOwned.elsewhere⟩
  | cons entry row ih =>
      obtain ⟨iterator, item⟩ := entry
      have hHead := fun earlier hMem => hDone earlier hMem (iterator, item) List.mem_cons_self
      rw [Unnested, List.map_cons, List.pairwise_cons] at hUnnested
      have hSelf : heap.follow context [] = some context := rfl
      obtain ⟨child, between, hSetdefault, hBetween, hChild⟩ :=
        hOwned.setdefault_ok localVars hSelf hContext
      have hChildArena : child.arena = arena := by
        by_contra hOutside
        obtain ⟨earlier, hMem, hPrefix⟩ := hBetween.covered [] child hChild hOutside
        have hNil : earlier = [] := List.prefix_nil.mp hPrefix
        have hEq := hHead earlier hMem (hNil ▸ List.nil_prefix)
        exact iterator.nonempty (hEq.symm.trans hNil)
      obtain ⟨patched, hPatched, hLater⟩ :=
        Owned.patchKeys_ok [] hClosed (hRow _ List.mem_cons_self) iterator.nonempty hBetween
          hHead hChild hChildArena
      have hFirst : patchObject heap arena context (localVars ++ iterator.text) item =
          .ok patched := by
        rw [patchObject, splitPath_localVars]
        obtain ⟨first, rest, hNames⟩ := List.exists_cons_of_ne_nil iterator.nonempty
        rw [hNames] at hPatched ⊢
        rw [patchKeys_cons_cons, hSetdefault]
        exact hPatched
      have hRest : ∀ earlier ∈ done ++ [[] ++ iterator.names], ∀ entry ∈ row,
          earlier <+: entry.1.names → earlier = entry.1.names := by
        intro earlier hMem entry hEntry hPrefix
        rcases List.mem_append.mp hMem with hOld | hNew
        · exact hDone earlier hOld entry (List.mem_cons_of_mem _ hEntry) hPrefix
        · rw [List.mem_singleton.mp hNew] at hPrefix ⊢
          exact hUnnested.1 entry.1 (List.mem_map_of_mem hEntry) hPrefix
      obtain ⟨last, hLast, hElsewhere⟩ := ih
        (fun later hMem => hRow later (List.mem_cons_of_mem _ hMem)) hUnnested.2 hLater hRest
      refine ⟨last, ?_, hElsewhere⟩
      rw [patchRow, hFirst]
      exact hLast

/-- A copy of a context without loop variables, before the first one is set. -/
theorem owned_copy (hClosed : start.ClosedOn (· ≠ arena)) (hBase : base.arena ≠ arena)
    {entries : List (String × HeapRef Arena)} (hEntries : start.get base = some (.dict entries))
    (hVar : entries.lookup localVars = none) :
    Owned start arena (start.alloc arena (.dict entries)).1 []
      (start.alloc arena (.dict entries)).2 := by
  set copy := start.alloc arena (.dict entries) with hCopy
  have hElsewhere : ∀ other, other ≠ arena → copy.2.cells other = start.cells other :=
    fun other hOther => cells_alloc_of_ne hOther
  have hGet : copy.2.get copy.1 = some (.dict entries) := by
    rw [hCopy, get_alloc, if_pos rfl]
  -- whatever is below the copy belongs to the base context
  have hBelow (access : Access) (route : List Access) (found : HeapRef Arena)
      (hFound : copy.2.follow copy.1 (access :: route) = some found) : found.arena ≠ arena := by
    rw [follow, hGet, Option.bind_some] at hFound
    obtain ⟨child, hChild, hRest⟩ := Option.bind_eq_some_iff.mp hFound
    have hOutside := hClosed base _ hBase hEntries child (HeapObject.child_mem_refs hChild)
    exact follow_outside hClosed hElsewhere hOutside hRest
  refine ⟨hElsewhere, ?_, ?_, ?_⟩
  · intro route found hFound hArena
    cases route with
    | nil =>
        cases hFound
        exact ⟨entries, hGet⟩
    | cons access route => exact absurd hArena (hBelow access route found hFound)
  · intro names found hFound _
    rw [varPath, List.map_cons, follow, hGet, Option.bind_some] at hFound
    simp [HeapObject.child, hVar] at hFound
  · intro route other found hRoute hOther hArena
    cases route with
    | cons access route => exact absurd hArena (hBelow access route found hRoute)
    | nil =>
        cases other with
        | nil => rfl
        | cons access other => exact absurd hArena (hBelow access other found hOther)

/-- A context without loop variables is patched without touching any object but
those that the task made. -/
theorem patchedContext_owned (hClosed : start.ClosedOn (· ≠ arena)) (hBase : base.arena ≠ arena)
    {entries : List (String × HeapRef Arena)} (hEntries : start.get base = some (.dict entries))
    (hVar : entries.lookup localVars = none) {row : LoopRow Arena}
    (hRow : ∀ entry ∈ row, entry.2.arena ≠ arena) (hUnnested : Unnested (row.map Prod.fst)) :
    ∃ context patched, patchedContext start arena base row = .ok (context, patched) ∧
      context.arena = arena ∧
      ∀ other, other ≠ arena → patched.cells other = start.cells other := by
  obtain ⟨patched, hPatched, hElsewhere⟩ :=
    (owned_copy hClosed hBase hEntries hVar).patchRow_ok hClosed rfl hRow hUnnested (by simp)
  refine ⟨(start.alloc arena (.dict entries)).1, patched, ?_, rfl, hElsewhere⟩
  simp only [patchedContext, hEntries]
  rw [hPatched]
  rfl

end Tracecat
