import Tracecat.Lib.Countdown
import Tracecat.Dsl.Accepted

/-!
# The topological sort of `_assign_action_scopes`

The sort visits an action when its last dependency has been visited, in the
scope that this dependency leaves behind.  The invariant below follows the
list of visited actions, latest first, with the scope each was visited in; at
the end of an accepted sort the list holds every action.
-/

namespace Tracecat

open Checks

namespace ActionScopes

/-- The entries that the visit of `stmt` from the scope `current` leaves in
the three mappings. -/
def Assigns (assigned : ActionScopes) (stmt : ActionStatement) (current : Scope) : Prop :=
  if stmt.action.isOpener then
    assigned.scopes.lookup stmt.ref = some (.opened stmt.ref) ∧
      assigned.hierarchy.lookup (.opened stmt.ref) = some (some current) ∧
      assigned.openers.lookup (.opened stmt.ref) = some stmt.action
  else if stmt.action.isCloser then
    ∃ next, assigned.scopes.lookup stmt.ref = some next ∧
      assigned.hierarchy.lookup current = some (some next) ∧
      assigned.openers.lookup current = stmt.action.openerOf
  else assigned.scopes.lookup stmt.ref = some current

/-- The mappings agree outside the entries of `ref`. -/
structure AgreeOutside (before after : ActionScopes) (ref : Ref) : Prop where
  scopes : ∀ other, other ≠ ref → after.scopes.lookup other = before.scopes.lookup other
  hierarchy : ∀ scope, scope ≠ .opened ref →
    after.hierarchy.lookup scope = before.hierarchy.lookup scope
  openers : ∀ scope, scope ≠ .opened ref →
    after.openers.lookup scope = before.openers.lookup scope

theorem assignScope_ok {assigned after : ActionScopes} {ref : Ref} {scope : Scope}
    (hFresh : assigned.scopes.lookup ref = none)
    (hAssign : assigned.assignScope ref scope = .ok after) :
    after = { assigned with scopes := assigned.scopes.insert ref scope } := by
  unfold assignScope at hAssign
  rw [hFresh] at hAssign
  cases hAssign
  rfl

theorem parentOf_eq_some {assigned : ActionScopes} {scope parent : Scope} :
    assigned.parentOf scope = some parent ↔
      assigned.hierarchy.lookup scope = some (some parent) := by
  unfold parentOf Dict.getD
  cases assigned.hierarchy.lookup scope <;> simp

theorem visit_ok {assigned after : ActionScopes} {stmt : ActionStatement}
    {current next : Scope} (hFresh : assigned.scopes.lookup stmt.ref = none)
    (hVisit : assigned.visit stmt current = .ok (after, next)) :
    after.Assigns stmt current ∧ after.scopes.lookup stmt.ref = some next ∧
      AgreeOutside assigned after stmt.ref ∧
      (¬ stmt.action.isOpener →
        after.hierarchy = assigned.hierarchy ∧ after.openers = assigned.openers) := by
  unfold visit at hVisit
  unfold Assigns
  by_cases hOpener : stmt.action.isOpener
  · rw [if_pos hOpener, bind_eq_ok] at hVisit
    obtain ⟨middle, hMiddle, hEq⟩ := hVisit
    cases assignScope_ok hFresh hMiddle
    cases hEq
    rw [if_pos hOpener]
    refine ⟨⟨?_, ?_, ?_⟩, ?_, ⟨?_, ?_, ?_⟩, fun hNot => absurd hOpener hNot⟩
    · exact AList.lookup_insert _
    · exact AList.lookup_insert _
    · exact AList.lookup_insert _
    · exact AList.lookup_insert _
    · exact fun other hOther => AList.lookup_insert_ne hOther
    · exact fun scope hScope => AList.lookup_insert_ne hScope
    · exact fun scope hScope => AList.lookup_insert_ne hScope
  · rw [if_neg hOpener] at hVisit ⊢
    by_cases hCloser : stmt.action.isCloser
    · rw [if_pos hCloser] at hVisit ⊢
      cases hParent : assigned.parentOf current with
      | none => simp [hParent] at hVisit
      | some parent =>
          simp only [hParent] at hVisit
          rw [throw_if_eq_ok, bind_eq_ok] at hVisit
          obtain ⟨hOpenerOf, middle, hMiddle, hEq⟩ := hVisit
          cases assignScope_ok hFresh hMiddle
          cases hEq
          refine ⟨⟨next, ?_, ?_, ?_⟩, ?_, ⟨?_, ?_, ?_⟩, fun _ => ⟨rfl, rfl⟩⟩
          · exact AList.lookup_insert _
          · exact parentOf_eq_some.mp hParent
          · exact not_not.mp hOpenerOf
          · exact AList.lookup_insert _
          · exact fun other hOther => AList.lookup_insert_ne hOther
          · exact fun scope _ => rfl
          · exact fun scope _ => rfl
    · rw [if_neg hCloser, bind_eq_ok] at hVisit
      rw [if_neg hCloser]
      obtain ⟨middle, hMiddle, hEq⟩ := hVisit
      cases assignScope_ok hFresh hMiddle
      cases hEq
      refine ⟨?_, ?_, ⟨?_, ?_, ?_⟩, fun _ => ⟨rfl, rfl⟩⟩
      · exact AList.lookup_insert _
      · exact AList.lookup_insert _
      · exact fun other hOther => AList.lookup_insert_ne hOther
      · exact fun scope _ => rfl
      · exact fun scope _ => rfl

/-- The entries of one action survive the visit of another. -/
theorem Assigns.of_agreeOutside {before after : ActionScopes} {ref : Ref}
    {stmt : ActionStatement} {current : Scope} (hAgree : AgreeOutside before after ref)
    (hKnown : before.hierarchy.lookup (.opened ref) = none) (hNe : stmt.ref ≠ ref)
    (hAssigns : before.Assigns stmt current) : after.Assigns stmt current := by
  have hScope : Scope.opened stmt.ref ≠ .opened ref := by simpa using hNe
  unfold Assigns at hAssigns ⊢
  split
  · rename_i hOpener
    rw [if_pos hOpener] at hAssigns
    rw [hAgree.scopes _ hNe, hAgree.hierarchy _ hScope, hAgree.openers _ hScope]
    exact hAssigns
  · rename_i hOpener
    rw [if_neg hOpener] at hAssigns
    split
    · rename_i hCloser
      rw [if_pos hCloser] at hAssigns
      obtain ⟨next, hNext, hParent, hOpenerOf⟩ := hAssigns
      have hCurrent : current ≠ .opened ref := by
        rintro rfl
        simp [hKnown] at hParent
      refine ⟨next, ?_, ?_, ?_⟩
      · rw [hAgree.scopes _ hNe, hNext]
      · rw [hAgree.hierarchy _ hCurrent, hParent]
      · rw [hAgree.openers _ hCurrent, hOpenerOf]
    · rename_i hCloser
      rw [if_neg hCloser] at hAssigns
      rw [hAgree.scopes _ hNe]
      exact hAssigns

end ActionScopes

/-! ## The edges out of an action -/

namespace DSLInput

variable {dsl : DSLInput}

theorem mem_toAdjacency {src ref : Ref} :
    ref ∈ dsl.toAdjacency src ↔
      ∃ stmt ∈ dsl.actions, stmt.ref = ref ∧ ∃ dep ∈ stmt.deps, dep.1 = src := by
  unfold toAdjacency
  simp only [List.mem_flatMap, List.mem_map, List.mem_filter, decide_eq_true_eq]
  constructor
  · rintro ⟨stmt, hStmt, dep, ⟨hDep, hSrc⟩, hRef⟩
    exact ⟨stmt, hStmt, hRef, dep, hDep, hSrc⟩
  · rintro ⟨stmt, hStmt, hRef, dep, hDep, hSrc⟩
    exact ⟨stmt, hStmt, dep, ⟨hDep, hSrc⟩, hRef⟩

theorem count_toAdjacency (hNodup : (dsl.actions.map ActionStatement.ref).Nodup)
    {stmt : ActionStatement} (hStmt : stmt ∈ dsl.actions) (src : Ref) :
    (dsl.toAdjacency src).count stmt.ref =
      (stmt.deps.filter fun dep => dep.1 = src).length := by
  unfold toAdjacency
  generalize dsl.actions = actions at hNodup hStmt ⊢
  induction actions with
  | nil => simp at hStmt
  | cons head rest ih =>
      rw [List.map_cons, List.nodup_cons] at hNodup
      obtain ⟨hHead, hRest⟩ := hNodup
      rw [List.flatMap_cons, List.count_append, List.map_const', List.count_replicate]
      rcases List.mem_cons.mp hStmt with rfl | hMem
      · have hNone : stmt.ref ∉ rest.flatMap fun action =>
            (action.deps.filter fun dep => dep.1 = src).map fun _ => action.ref := by
          intro hOccurs
          obtain ⟨action, hAction, hRef⟩ := List.mem_flatMap.mp hOccurs
          obtain ⟨-, -, hRef⟩ := List.mem_map.mp hRef
          exact hHead (hRef ▸ List.mem_map_of_mem hAction)
        rw [List.count_eq_zero_of_not_mem hNone]
        simp
      · have hNe : head.ref ≠ stmt.ref := fun hEq => hHead (hEq ▸ List.mem_map_of_mem hMem)
        rw [ih hRest hMem]
        simp [hNe]

end DSLInput

/-! ## The loop invariant -/

namespace TopoState

/-- The scope in which an action is visited: the root scope for an entry
action, and otherwise the scope of one of its dependencies. -/
def Arrives (assigned : ActionScopes) (stmt : ActionStatement) (current : Scope) : Prop :=
  (stmt.deps = [] ∧ current = .root) ∨
    ∃ dep ∈ stmt.deps, assigned.scopes.lookup dep.1 = some current

def visitedRefs (order : List (ActionStatement × Scope)) : List Ref :=
  order.map fun entry => entry.1.ref

/-- A list of visited actions in which every action comes, in the order of the
visits, after its dependencies. -/
inductive Sorted : List (ActionStatement × Scope) → Prop
  | nil : Sorted []
  | cons {stmt : ActionStatement} {current : Scope} {order : List (ActionStatement × Scope)}
      (hOrder : Sorted order) (hDeps : ∀ dep ∈ stmt.deps, dep.1 ∈ visitedRefs order) :
      Sorted ((stmt, current) :: order)

/-- The mappings after the visits of `order`. -/
structure Mapped (assigned : ActionScopes) (order : List (ActionStatement × Scope)) :
    Prop where
  assigns : ∀ entry ∈ order, assigned.Assigns entry.1 entry.2
  arrives : ∀ entry ∈ order, Arrives assigned entry.1 entry.2
  root : assigned.hierarchy.lookup .root = some none
  root_opener : assigned.openers.lookup .root = none
  scopes_visited : ∀ ref, assigned.scopes.lookup ref ≠ none → ref ∈ visitedRefs order
  hierarchy_visited : ∀ ref, assigned.hierarchy.lookup (.opened ref) ≠ none →
    ∃ entry ∈ order, entry.1.ref = ref ∧ entry.1.action.isOpener
  openers_visited : ∀ ref, assigned.openers.lookup (.opened ref) ≠ none →
    ∃ entry ∈ order, entry.1.ref = ref ∧ entry.1.action.isOpener

/-- The loop invariant of the sort, with the actions visited so far. -/
structure Visited (dsl : DSLInput) (state : TopoState)
    (order : List (ActionStatement × Scope)) : Prop where
  count : state.visited = order.length
  nodup : (visitedRefs order ++ state.queue.map Prod.fst).Nodup
  order_mem : ∀ entry ∈ order, entry.1 ∈ dsl.actions
  queue_mem : ∀ entry ∈ state.queue, entry.1 ∈ dsl.actions.map ActionStatement.ref
  sorted : Sorted order
  mapped : Mapped state.assigned order
  indegree : ∀ stmt ∈ dsl.actions, state.indegrees.getD stmt.ref 0 =
    (stmt.deps.filter fun dep => dep.1 ∉ visitedRefs order).length
  queue_ready : ∀ entry ∈ state.queue, ∀ stmt ∈ dsl.actions, stmt.ref = entry.1 →
    (∀ dep ∈ stmt.deps, dep.1 ∈ visitedRefs order) ∧
      Arrives state.assigned stmt entry.2

/-- The inner loop of the sort is a countdown over the successors. -/
theorem release_foldl (next : Scope) (keys : List Ref) (state : TopoState) :
    (keys.foldl (release next) state).assigned = state.assigned ∧
      (keys.foldl (release next) state).visited = state.visited ∧
      (keys.foldl (release next) state).queue = state.queue ++
        (Countdown.released (fun key => state.indegrees.getD key 0) keys).map (·, next) ∧
      ∀ key, (keys.foldl (release next) state).indegrees.getD key 0 =
        state.indegrees.getD key 0 - keys.count key := by
  induction keys generalizing state with
  | nil => simp [Countdown.released]
  | cons head rest ih =>
      obtain ⟨hAssigned, hVisited, hQueue, hIndegree⟩ := ih (release next state head)
      have hCounter : (fun key => (release next state head).indegrees.getD key 0) =
          Countdown.tick (fun key => state.indegrees.getD key 0) head := by
        funext key
        rw [Countdown.tick_apply]
        unfold release
        rw [Dict.getD_insert]
        by_cases hKey : key = head
        · subst hKey
          simp
        · have hNe : head ≠ key := fun h => hKey h.symm
          simp [hKey, hNe]
      refine ⟨by rw [List.foldl_cons, hAssigned]; rfl, by rw [List.foldl_cons, hVisited]; rfl,
        ?_, ?_⟩
      · rw [List.foldl_cons, hQueue, hCounter, Countdown.released, release]
        by_cases hZero : state.indegrees.getD head 0 - 1 = 0
        · simp [hZero]
        · simp [hZero]
      · intro key
        rw [List.foldl_cons, hIndegree, congrFun hCounter key, Countdown.tick_apply,
          List.count_cons]
        by_cases hKey : head = key
        · simp [hKey]
          omega
        · simp [hKey]

theorem Mapped.visit {assigned after : ActionScopes} {order : List (ActionStatement × Scope)}
    {stmt : ActionStatement} {current next : Scope} (hMapped : Mapped assigned order)
    (hNew : stmt.ref ∉ visitedRefs order) (hArrives : Arrives assigned stmt current)
    (hVisit : assigned.visit stmt current = .ok (after, next)) :
    Mapped after ((stmt, current) :: order) ∧ after.scopes.lookup stmt.ref = some next ∧
      ∀ ref, ref ≠ stmt.ref → after.scopes.lookup ref = assigned.scopes.lookup ref := by
  have hFresh : assigned.scopes.lookup stmt.ref = none := by
    by_contra hSome
    exact hNew (hMapped.scopes_visited _ hSome)
  have hKnown : assigned.hierarchy.lookup (.opened stmt.ref) = none := by
    by_contra hSome
    obtain ⟨entry, hEntry, hRef, -⟩ := hMapped.hierarchy_visited _ hSome
    exact hNew (hRef ▸ List.mem_map_of_mem (f := fun entry => entry.1.ref) hEntry)
  obtain ⟨hAssigns, hNext, hAgree, hClosed⟩ := ActionScopes.visit_ok hFresh hVisit
  have hOther : ∀ entry ∈ order, entry.1.ref ≠ stmt.ref := fun entry hEntry hRef =>
    hNew (hRef ▸ List.mem_map_of_mem (f := fun entry => entry.1.ref) hEntry)
  have hKeeps : ∀ stmt' current', Arrives assigned stmt' current' →
      Arrives after stmt' current' := by
    rintro stmt' current' (hEntry | ⟨dep, hDep, hLookup⟩)
    · exact Or.inl hEntry
    · refine Or.inr ⟨dep, hDep, ?_⟩
      have hNe : dep.1 ≠ stmt.ref := by
        intro hEq
        rw [hEq, hFresh] at hLookup
        cases hLookup
      rw [hAgree.scopes _ hNe, hLookup]
  refine ⟨⟨?_, ?_, ?_, ?_, ?_, ?_, ?_⟩, hNext, hAgree.scopes⟩
  · intro entry hEntry
    rcases List.mem_cons.mp hEntry with rfl | hEntry
    · exact hAssigns
    · exact (hMapped.assigns entry hEntry).of_agreeOutside hAgree hKnown (hOther entry hEntry)
  · intro entry hEntry
    rcases List.mem_cons.mp hEntry with rfl | hEntry
    · exact hKeeps _ _ hArrives
    · exact hKeeps _ _ (hMapped.arrives entry hEntry)
  · rw [hAgree.hierarchy _ (by simp), hMapped.root]
  · rw [hAgree.openers _ (by simp), hMapped.root_opener]
  · intro ref hSome
    by_cases hRef : ref = stmt.ref
    · exact hRef ▸ List.mem_cons_self
    · rw [hAgree.scopes _ hRef] at hSome
      exact List.mem_cons_of_mem _ (hMapped.scopes_visited ref hSome)
  · intro ref hSome
    by_cases hRef : ref = stmt.ref
    · by_cases hOpener : stmt.action.isOpener
      · exact ⟨(stmt, current), List.mem_cons_self, hRef.symm, hOpener⟩
      · rw [(hClosed hOpener).1, hRef, hKnown] at hSome
        exact absurd rfl hSome
    · rw [hAgree.hierarchy _ (by simpa using hRef)] at hSome
      obtain ⟨entry, hEntry, hFacts⟩ := hMapped.hierarchy_visited ref hSome
      exact ⟨entry, List.mem_cons_of_mem _ hEntry, hFacts⟩
  · intro ref hSome
    by_cases hRef : ref = stmt.ref
    · by_cases hOpener : stmt.action.isOpener
      · exact ⟨(stmt, current), List.mem_cons_self, hRef.symm, hOpener⟩
      · rw [(hClosed hOpener).2, hRef] at hSome
        obtain ⟨entry, hEntry, hFacts⟩ := hMapped.openers_visited _ hSome
        exact ⟨entry, List.mem_cons_of_mem _ hEntry, hFacts.1.trans hRef.symm, hFacts.2⟩
    · rw [hAgree.openers _ (by simpa using hRef)] at hSome
      obtain ⟨entry, hEntry, hFacts⟩ := hMapped.openers_visited ref hSome
      exact ⟨entry, List.mem_cons_of_mem _ hEntry, hFacts⟩

theorem mem_visitedRefs_cons {ref : Ref} {entry : ActionStatement × Scope}
    {order : List (ActionStatement × Scope)} :
    ref ∈ visitedRefs (entry :: order) ↔ ref = entry.1.ref ∨ ref ∈ visitedRefs order := by
  simp [visitedRefs]

theorem unvisited_cons (deps : List AdjDst) (entry : ActionStatement × Scope)
    {order : List (ActionStatement × Scope)} (hNew : entry.1.ref ∉ visitedRefs order) :
    (deps.filter fun dep => dep.1 ∉ visitedRefs order).length =
      (deps.filter fun dep => dep.1 ∉ visitedRefs (entry :: order)).length +
        (deps.filter fun dep => dep.1 = entry.1.ref).length := by
  induction deps with
  | nil => simp
  | cons dep rest ih =>
      simp only [mem_visitedRefs_cons] at ih ⊢
      by_cases hSource : dep.1 = entry.1.ref
      · simp [hSource, hNew] at ih ⊢
        omega
      · by_cases hVisited : dep.1 ∈ visitedRefs order
        · simp [hSource, hVisited] at ih ⊢
          omega
        · simp [hSource, hVisited] at ih ⊢
          omega

theorem Sorted.deps_visited {order : List (ActionStatement × Scope)} (hSorted : Sorted order)
    {entry : ActionStatement × Scope} (hEntry : entry ∈ order) {dep : AdjDst}
    (hDep : dep ∈ entry.1.deps) : dep.1 ∈ visitedRefs order := by
  induction hSorted with
  | nil => cases hEntry
  | cons _ hDeps ih =>
      rcases List.mem_cons.mp hEntry with rfl | hEntry
      · exact mem_visitedRefs_cons.mpr (Or.inr (hDeps dep hDep))
      · exact mem_visitedRefs_cons.mpr (Or.inr (ih hEntry))

/-- The counter of an action is the number of its unvisited dependencies, and a
visit takes from it those on the visited action. -/
theorem Visited.indegree_eq {dsl : DSLInput} {state : TopoState}
    {order : List (ActionStatement × Scope)} (hVisited : Visited dsl state order)
    {stmt : ActionStatement} (current : Scope) (hResolved : dsl.Resolved)
    (hNew : stmt.ref ∉ visitedRefs order)
    {action : ActionStatement} (hAction : action ∈ dsl.actions) :
    state.indegrees.getD action.ref 0 =
      ((action.deps.filter fun dep =>
        dep.1 ∉ visitedRefs ((stmt, current) :: order)).length : Int) +
        (dsl.toAdjacency stmt.ref).count action.ref := by
  rw [hVisited.indegree action hAction,
    DSLInput.count_toAdjacency hResolved.refs_nodup hAction,
    unvisited_cons action.deps (stmt, current) hNew]
  push_cast
  rfl

/-- No counter is overdrawn by a visit. -/
theorem Visited.count_le {dsl : DSLInput} (hResolved : dsl.Resolved) {state : TopoState}
    {order : List (ActionStatement × Scope)} (hVisited : Visited dsl state order)
    {stmt : ActionStatement} (hNew : stmt.ref ∉ visitedRefs order) :
    ∀ key ∈ dsl.toAdjacency stmt.ref,
      ((dsl.toAdjacency stmt.ref).count key : Int) ≤ state.indegrees.getD key 0 := by
  intro key hKey
  obtain ⟨action, hAction, rfl, -⟩ := DSLInput.mem_toAdjacency.mp hKey
  rw [hVisited.indegree_eq .root hResolved hNew hAction]
  omega

/-- A visit releases the actions that depend on the visited one and on no
unvisited action. -/
theorem Visited.mem_released_iff {dsl : DSLInput} {state : TopoState}
    {order : List (ActionStatement × Scope)} (hVisited : Visited dsl state order)
    {stmt : ActionStatement} (current : Scope) (hResolved : dsl.Resolved)
    (hNew : stmt.ref ∉ visitedRefs order) {action : ActionStatement}
    (hAction : action ∈ dsl.actions) :
    action.ref ∈ Countdown.released (fun key => state.indegrees.getD key 0)
        (dsl.toAdjacency stmt.ref) ↔
      (∃ dep ∈ action.deps, dep.1 = stmt.ref) ∧
        ∀ dep ∈ action.deps, dep.1 ∈ visitedRefs ((stmt, current) :: order) := by
  have hCounter := hVisited.indegree_eq current hResolved hNew hAction
  rw [Countdown.mem_released_iff _ _ (hVisited.count_le hResolved hNew), hCounter,
    DSLInput.mem_toAdjacency]
  constructor
  · rintro ⟨⟨other, hOther, hRef, hDep⟩, hUsed⟩
    have hSame := List.inj_on_of_nodup_map hResolved.refs_nodup hOther hAction hRef
    subst hSame
    have hNone : (other.deps.filter fun dep =>
        dep.1 ∉ visitedRefs ((stmt, current) :: order)) = [] :=
      List.length_eq_zero_iff.mp (by omega)
    exact ⟨hDep, fun dep hDep => by simpa using List.filter_eq_nil_iff.mp hNone dep hDep⟩
  · rintro ⟨hDep, hAll⟩
    have hNone : (action.deps.filter fun dep =>
        dep.1 ∉ visitedRefs ((stmt, current) :: order)) = [] :=
      List.filter_eq_nil_iff.mpr fun dep hDep => by simpa using hAll dep hDep
    refine ⟨⟨action, hAction, rfl, hDep⟩, ?_⟩
    rw [hNone]
    simp

theorem Visited.released_new {dsl : DSLInput} (hResolved : dsl.Resolved) {state : TopoState}
    {order : List (ActionStatement × Scope)} (hVisited : Visited dsl state order)
    {stmt : ActionStatement} (hMem : stmt ∈ dsl.actions) (hNew : stmt.ref ∉ visitedRefs order)
    (hDeps : ∀ dep ∈ stmt.deps, dep.1 ∈ visitedRefs order) {key : Ref}
    (hKey : key ∈ Countdown.released (fun key => state.indegrees.getD key 0)
      (dsl.toAdjacency stmt.ref)) :
    key ∉ visitedRefs order ∧ key ≠ stmt.ref ∧ key ∉ state.queue.map Prod.fst := by
  obtain ⟨action, hAction, rfl, dep, hDep, hSource⟩ :=
    DSLInput.mem_toAdjacency.mp (Countdown.released_subset _ _ hKey)
  have hPending : ¬ ∀ dep ∈ action.deps, dep.1 ∈ visitedRefs order := fun hAll =>
    hNew (hSource ▸ hAll dep hDep)
  refine ⟨fun hOld => ?_, fun hEq => ?_, fun hOld => ?_⟩
  · obtain ⟨entry, hEntry, hRef⟩ := List.mem_map.mp hOld
    have hSame := List.inj_on_of_nodup_map hResolved.refs_nodup (hVisited.order_mem _ hEntry)
      hAction hRef
    exact hPending fun dep hDep => hVisited.sorted.deps_visited hEntry (hSame ▸ hDep)
  · have hSame := List.inj_on_of_nodup_map hResolved.refs_nodup hAction hMem hEq
    exact hPending (hSame ▸ hDeps)
  · obtain ⟨entry, hQueued, hRef⟩ := List.mem_map.mp hOld
    exact hPending (hVisited.queue_ready entry hQueued action hAction hRef.symm).1

theorem Visited.turn {dsl : DSLInput} (hResolved : dsl.Resolved) {state : TopoState}
    {order : List (ActionStatement × Scope)} (hVisited : Visited dsl state order)
    {ref : Ref} {current : Scope} {rest : List (Ref × Scope)}
    (hQueue : state.queue = (ref, current) :: rest) {stmt : ActionStatement}
    (hStmt : dsl.stmt? ref = some stmt) {after : ActionScopes} {next : Scope}
    (hVisit : state.assigned.visit stmt current = .ok (after, next)) :
    Visited dsl
      ((dsl.toAdjacency ref).foldl (release next)
        { state with assigned := after, queue := rest, visited := state.visited + 1 })
      ((stmt, current) :: order) := by
  obtain ⟨hMem, rfl⟩ := DSLInput.stmt?_some_mem hStmt
  have hHead : (stmt.ref, current) ∈ state.queue := hQueue ▸ List.mem_cons_self
  obtain ⟨hDeps, hArrives⟩ := hVisited.queue_ready _ hHead stmt hMem rfl
  have hNodup := hVisited.nodup
  rw [hQueue, List.map_cons, List.nodup_append] at hNodup
  obtain ⟨hOrder, hRest, hDisjoint⟩ := hNodup
  have hNew : stmt.ref ∉ visitedRefs order := fun hOld =>
    hDisjoint _ hOld _ List.mem_cons_self rfl
  obtain ⟨hMapped, hNext, hSame⟩ := hVisited.mapped.visit hNew hArrives hVisit
  obtain ⟨hAssigned, hCount, hReleased, hIndegrees⟩ := release_foldl next (dsl.toAdjacency stmt.ref)
    { state with assigned := after, queue := rest, visited := state.visited + 1 }
  have hArrivesAfter : ∀ action entryScope, Arrives state.assigned action entryScope →
      Arrives after action entryScope := by
    rintro action entryScope (hEntry | ⟨dep, hDep, hLookup⟩)
    · exact Or.inl hEntry
    · refine Or.inr ⟨dep, hDep, ?_⟩
      rw [hSame dep.1 ?_, hLookup]
      intro hEq
      exact hNew (hVisited.mapped.scopes_visited _ (by rw [← hEq, hLookup]; simp))
  refine ⟨?_, ?_, ?_, ?_, .cons hVisited.sorted hDeps, hAssigned ▸ hMapped, ?_, ?_⟩
  · rw [hCount, List.length_cons]
    simp [hVisited.count]
  · rw [hReleased, List.map_append, List.map_map]
    have hFst : (Prod.fst ∘ fun key : Ref => (key, next)) = id := rfl
    rw [hFst, List.map_id]
    have hReleasedNodup := Countdown.released_nodup (fun key => state.indegrees.getD key 0)
      (dsl.toAdjacency stmt.ref) (hVisited.count_le hResolved hNew)
    have hFollows {key : Ref} (hKey : key ∈ Countdown.released
        (fun key => state.indegrees.getD key 0) (dsl.toAdjacency stmt.ref)) :=
      hVisited.released_new hResolved hMem hNew hDeps hKey
    rw [List.nodup_cons] at hRest
    refine List.nodup_append.mpr ⟨List.nodup_cons.mpr ⟨hNew, hOrder⟩, ?_, ?_⟩
    · refine List.nodup_append.mpr ⟨hRest.2, hReleasedNodup, ?_⟩
      rintro left hLeft right hRight rfl
      refine (hFollows hRight).2.2 ?_
      rw [hQueue]
      exact List.mem_cons_of_mem _ hLeft
    · rintro left hLeft right hRight rfl
      rcases mem_visitedRefs_cons.mp hLeft with rfl | hOld
      · rcases List.mem_append.mp hRight with hRight | hRight
        · exact hRest.1 hRight
        · exact (hFollows hRight).2.1 rfl
      · rcases List.mem_append.mp hRight with hRight | hRight
        · exact hDisjoint _ hOld _ (List.mem_cons_of_mem _ hRight) rfl
        · exact (hFollows hRight).1 hOld
  · intro entry hEntry
    rcases List.mem_cons.mp hEntry with rfl | hEntry
    · exact hMem
    · exact hVisited.order_mem entry hEntry
  · intro entry hEntry
    rw [hReleased] at hEntry
    rcases List.mem_append.mp hEntry with hEntry | hEntry
    · exact hVisited.queue_mem entry (hQueue ▸ List.mem_cons_of_mem _ hEntry)
    · obtain ⟨key, hKey, rfl⟩ := List.mem_map.mp hEntry
      obtain ⟨action, hAction, rfl, -⟩ :=
        DSLInput.mem_toAdjacency.mp (Countdown.released_subset _ _ hKey)
      exact List.mem_map_of_mem hAction
  · intro action hAction
    rw [hIndegrees, hVisited.indegree_eq current hResolved hNew hAction]
    omega
  · intro entry hEntry action hAction hRef
    rw [hReleased] at hEntry
    rw [hAssigned]
    rcases List.mem_append.mp hEntry with hEntry | hEntry
    · have hQueued : entry ∈ state.queue := hQueue ▸ List.mem_cons_of_mem _ hEntry
      obtain ⟨hReady, hFrom⟩ := hVisited.queue_ready entry hQueued action hAction hRef
      exact ⟨fun dep hDep => mem_visitedRefs_cons.mpr (Or.inr (hReady dep hDep)),
        hArrivesAfter _ _ hFrom⟩
    · obtain ⟨key, hKey, rfl⟩ := List.mem_map.mp hEntry
      obtain rfl : action.ref = key := hRef
      obtain ⟨⟨dep, hDep, hSource⟩, hAll⟩ :=
        (hVisited.mem_released_iff current hResolved hNew hAction).mp hKey
      refine ⟨hAll, Or.inr ⟨dep, hDep, ?_⟩⟩
      rw [hSource]
      exact hNext

theorem visited_start {dsl : DSLInput} (hResolved : dsl.Resolved) :
    Visited dsl (start dsl) [] := by
  have hEntry : ∀ stmt ∈ dsl.actions, stmt.dependsOn.length = 0 → stmt.deps = [] := by
    intro stmt hStmt hNone
    exact List.length_eq_zero_iff.mp ((hResolved.deps_length hStmt).trans hNone)
  refine ⟨rfl, ?_, by simp, ?_, .nil, ⟨by simp, by simp, ?_, ?_, ?_, ?_, ?_⟩, ?_, ?_⟩
  · have hSublist : ((start dsl).queue.map Prod.fst).Sublist
        (dsl.actions.map ActionStatement.ref) := by
      unfold start
      simp only [List.map_map]
      exact List.filter_sublist.map ActionStatement.ref
    simpa [visitedRefs] using hResolved.refs_nodup.sublist hSublist
  · intro entry hEntry
    obtain ⟨stmt, hStmt, rfl⟩ := List.mem_map.mp hEntry
    exact List.mem_map_of_mem (List.mem_filter.mp hStmt).1
  · exact AList.lookup_insert _
  · rfl
  · exact fun ref hSome => absurd rfl hSome
  · intro ref hSome
    have hNone : (start dsl).assigned.hierarchy.lookup (.opened ref) = none :=
      AList.lookup_insert_ne (by simp)
    exact absurd hNone hSome
  · exact fun ref hSome => absurd rfl hSome
  · intro stmt hStmt
    unfold start Dict.getD
    rw [Dict.lookup_foldl_insert_of_mem ActionStatement.ref
      (fun stmt => (stmt.dependsOn.length : Int)) dsl.actions ∅ hResolved.refs_nodup hStmt]
    simp [visitedRefs, hResolved.deps_length hStmt]
  · intro entry hQueued stmt hStmt hRef
    obtain ⟨first, hFirst, rfl⟩ := List.mem_map.mp hQueued
    obtain ⟨hFirstMem, hNone⟩ := List.mem_filter.mp hFirst
    have hSame := List.inj_on_of_nodup_map hResolved.refs_nodup hStmt hFirstMem hRef
    subst hSame
    have hDeps := hEntry stmt hStmt (by simpa using hNone)
    exact ⟨by simp [hDeps], Or.inl ⟨hDeps, rfl⟩⟩

theorem Visited.run {dsl : DSLInput} (hResolved : dsl.Resolved) (fuel : Nat)
    {state final : TopoState} {order : List (ActionStatement × Scope)}
    (hVisited : Visited dsl state order) (hRun : TopoState.run dsl fuel state = .ok final) :
    ∃ order, Visited dsl final order := by
  induction fuel generalizing state order with
  | zero =>
      cases hRun
      exact ⟨order, hVisited⟩
  | succ fuel ih =>
      unfold TopoState.run at hRun
      cases hQueue : state.queue with
      | nil =>
          rw [hQueue] at hRun
          cases hRun
          exact ⟨order, hVisited⟩
      | cons head rest =>
          obtain ⟨ref, current⟩ := head
          simp only [hQueue] at hRun
          cases hStmt : dsl.stmt? ref with
          | none => simp [hStmt] at hRun
          | some stmt =>
              simp only [hStmt] at hRun
              obtain ⟨⟨after, next⟩, hVisit, hRest⟩ := bind_eq_ok.mp hRun
              exact ih (hVisited.turn hResolved hQueue hStmt hVisit) hRest

end TopoState

/-- The outcome of an accepted sort: the visited actions, latest first, with
the scope of each visit, hold every action of the definition. -/
structure DSLInput.ScopeOrder (dsl : DSLInput) (assigned : ActionScopes)
    (order : List (ActionStatement × Scope)) : Prop where
  sorted : TopoState.Sorted order
  mapped : TopoState.Mapped assigned order
  nodup : (TopoState.visitedRefs order).Nodup
  mem_iff : ∀ stmt, (∃ current, (stmt, current) ∈ order) ↔ stmt ∈ dsl.actions

theorem TopoState.Visited.scopeOrder {dsl : DSLInput} (hResolved : dsl.Resolved)
    {final : TopoState} {order : List (ActionStatement × Scope)}
    (hVisited : Visited dsl final order) (hCount : final.visited = dsl.actions.length) :
    dsl.ScopeOrder final.assigned order := by
  have hNodup : (visitedRefs order).Nodup := (List.nodup_append.mp hVisited.nodup).1
  refine ⟨hVisited.sorted, hVisited.mapped, hNodup, fun stmt => ⟨?_, ?_⟩⟩
  · rintro ⟨current, hEntry⟩
    exact hVisited.order_mem _ hEntry
  · intro hStmt
    -- the visited refs are as many as the actions, so none is missing
    have hSubset : visitedRefs order ⊆ dsl.actions.map ActionStatement.ref := by
      intro ref hRef
      obtain ⟨entry, hEntry, rfl⟩ := List.mem_map.mp hRef
      exact List.mem_map_of_mem (hVisited.order_mem entry hEntry)
    have hLength : (dsl.actions.map ActionStatement.ref).length ≤ (visitedRefs order).length := by
      rw [visitedRefs, List.length_map, List.length_map, ← hVisited.count, hCount]
    have hPerm := (List.subperm_of_subset hNodup hSubset).perm_of_length_le hLength
    have hMem := hPerm.symm.subset (List.mem_map_of_mem (f := ActionStatement.ref) hStmt)
    obtain ⟨⟨other, current⟩, hEntry, hRef⟩ := List.mem_map.mp hMem
    have hSame := List.inj_on_of_nodup_map hResolved.refs_nodup (hVisited.order_mem _ hEntry)
      hStmt hRef
    exact ⟨current, hSame ▸ hEntry⟩

/-- What a successful sort has gone through. -/
theorem DSLInput.assignActionScopes_ok {dsl : DSLInput} {assigned : ActionScopes} :
    dsl.assignActionScopes = .ok assigned ↔
      ∃ final, TopoState.run dsl dsl.actions.length (TopoState.start dsl) = .ok final ∧
        final.visited = dsl.actions.length ∧ final.assigned = assigned := by
  unfold assignActionScopes
  simp only [bind_eq_ok, throw_if_eq_ok, not_not, Except.ok.injEq]

theorem DSLInput.assignActionScopes_order {dsl : DSLInput} (hValid : dsl.Validated)
    {assigned : ActionScopes} (hAssigned : dsl.assignActionScopes = .ok assigned) :
    ∃ order, dsl.ScopeOrder assigned order := by
  obtain ⟨final, hRun, hCount, rfl⟩ := assignActionScopes_ok.mp hAssigned
  obtain ⟨order, hVisited⟩ :=
    (TopoState.visited_start hValid.resolved).run hValid.resolved _ hRun
  exact ⟨order, hVisited.scopeOrder hValid.resolved hCount⟩

end Tracecat
