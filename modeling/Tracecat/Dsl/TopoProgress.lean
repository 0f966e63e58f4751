import Mathlib.Data.Set.Finite.List
import Tracecat.Lib.Acyclic
import Tracecat.Dsl.Layout

/-!
# The sort reaches every action

An unvisited action is in the queue or waits for an unvisited dependency.  When
the dependencies have no cycle, the sort therefore stops only after it has
visited every action.
-/

namespace Tracecat

open Checks

namespace DSLInput

/-- `ref` has an entry in `depends_on` whose source is `src`. -/
def DependsOn (dsl : DSLInput) (ref src : Ref) : Prop :=
  ∃ stmt ∈ dsl.actions, stmt.ref = ref ∧ ∃ dep ∈ stmt.deps, dep.1 = src

theorem Resolved.dependsOn_iff {dsl : DSLInput} (hResolved : dsl.Resolved) {stmt : ActionStatement}
    (hStmt : stmt ∈ dsl.actions) {src : Ref} :
    dsl.DependsOn stmt.ref src ↔ ∃ dep ∈ stmt.deps, dep.1 = src := by
  constructor
  · rintro ⟨action, hAction, hRef, hDep⟩
    rwa [List.inj_on_of_nodup_map hResolved.refs_nodup hAction hStmt hRef] at hDep
  · exact fun hDep => ⟨stmt, hStmt, rfl, hDep⟩

end DSLInput

namespace TopoState

/-- The state after the turn that visits `ref`. -/
def advance (dsl : DSLInput) (state : TopoState) (ref : Ref) (rest : List (Ref × Scope))
    (after : ActionScopes) (next : Scope) : TopoState :=
  (dsl.toAdjacency ref).foldl (release next)
    { state with assigned := after, queue := rest, visited := state.visited + 1 }

/-- The refs that the visit of `ref` releases. -/
def releasedRefs (dsl : DSLInput) (state : TopoState) (ref : Ref) : List Ref :=
  Countdown.released (fun key => state.indegrees.getD key 0) (dsl.toAdjacency ref)

section Advance

variable (dsl : DSLInput) (state : TopoState) (ref : Ref) (rest : List (Ref × Scope))
  (after : ActionScopes) (next : Scope)

theorem advance_assigned : (advance dsl state ref rest after next).assigned = after :=
  (release_foldl next (dsl.toAdjacency ref)
    { state with assigned := after, queue := rest, visited := state.visited + 1 }).1

theorem advance_visited :
    (advance dsl state ref rest after next).visited = state.visited + 1 :=
  (release_foldl next (dsl.toAdjacency ref)
    { state with assigned := after, queue := rest, visited := state.visited + 1 }).2.1

theorem advance_queue : (advance dsl state ref rest after next).queue =
    rest ++ (releasedRefs dsl state ref).map (·, next) :=
  (release_foldl next (dsl.toAdjacency ref)
    { state with assigned := after, queue := rest, visited := state.visited + 1 }).2.2.1

end Advance

/-- An unvisited action waits in the queue or for an unvisited dependency. -/
def Complete (dsl : DSLInput) (state : TopoState) (order : List (ActionStatement × Scope)) :
    Prop :=
  ∀ stmt ∈ dsl.actions, stmt.ref ∉ visitedRefs order →
    stmt.ref ∈ state.queue.map Prod.fst ∨ ∃ dep ∈ stmt.deps, dep.1 ∉ visitedRefs order

theorem complete_start {dsl : DSLInput} (hResolved : dsl.Resolved) :
    Complete dsl (start dsl) [] := by
  intro stmt hStmt _
  by_cases hEntry : stmt.dependsOn.length = 0
  · refine Or.inl (List.mem_map_of_mem (f := Prod.fst) (a := (stmt.ref, Scope.root)) ?_)
    refine List.mem_map.mpr ⟨stmt, List.mem_filter.mpr ⟨hStmt, ?_⟩, rfl⟩
    exact decide_eq_true hEntry
  · rw [← hResolved.deps_length hStmt] at hEntry
    obtain ⟨dep, hDep⟩ := List.exists_mem_of_length_pos (Nat.pos_of_ne_zero hEntry)
    exact Or.inr ⟨dep, hDep, List.not_mem_nil⟩

variable {dsl : DSLInput} {state : TopoState} {order : List (ActionStatement × Scope)}
  {stmt : ActionStatement} {current next : Scope} {rest : List (Ref × Scope)}
  {after : ActionScopes}

theorem Visited.head_new (hVisited : Visited dsl state order)
    (hQueue : state.queue = (stmt.ref, current) :: rest) : stmt.ref ∉ visitedRefs order := by
  intro hOld
  have hNodup := hVisited.nodup
  rw [hQueue, List.map_cons, List.nodup_append] at hNodup
  exact hNodup.2.2 _ hOld _ List.mem_cons_self rfl

theorem Complete.turn (hComplete : Complete dsl state order) (hResolved : dsl.Resolved)
    (hVisited : Visited dsl state order)
    (hQueue : state.queue = (stmt.ref, current) :: rest) :
    Complete dsl (advance dsl state stmt.ref rest after next) ((stmt, current) :: order) := by
  have hNew := hVisited.head_new hQueue
  intro action hAction hUnvisited
  rw [mem_visitedRefs_cons, not_or] at hUnvisited
  by_cases hWaits : ∃ dep ∈ action.deps, dep.1 ∉ visitedRefs ((stmt, current) :: order)
  · exact Or.inr hWaits
  · push Not at hWaits
    left
    rw [advance_queue, List.map_append, List.map_map]
    rcases hComplete action hAction hUnvisited.2 with hQueued | ⟨dep, hDep, hDepUnvisited⟩
    · refine List.mem_append_left _ ?_
      rw [hQueue, List.map_cons] at hQueued
      exact (List.mem_cons.mp hQueued).resolve_left hUnvisited.1
    · have hSource : dep.1 = stmt.ref :=
        (mem_visitedRefs_cons.mp (hWaits dep hDep)).resolve_right hDepUnvisited
      have hEmitted := (hVisited.mem_released_iff current hResolved hNew hAction).mpr
        ⟨⟨dep, hDep, hSource⟩, hWaits⟩
      exact List.mem_append_right _ (List.mem_map.mpr ⟨action.ref, hEmitted, rfl⟩)

/-- Without a cycle the sort stops when every action has been visited. -/
theorem Complete.all_visited (hComplete : Complete dsl state order) (hResolved : dsl.Resolved)
    (hAcyclic : Acyclic dsl.DependsOn) (hEmpty : state.queue = []) :
    ∀ stmt ∈ dsl.actions, stmt.ref ∈ visitedRefs order := by
  let unvisited : Set Ref :=
    { ref | ref ∈ dsl.actions.map ActionStatement.ref ∧ ref ∉ visitedRefs order }
  have hFinite : unvisited.Finite :=
    (List.finite_toSet (dsl.actions.map ActionStatement.ref)).subset fun _ hRef => hRef.1
  have hNone : unvisited = ∅ := by
    refine hAcyclic.eq_empty hFinite ?_
    rintro ref ⟨hRef, hUnvisited⟩
    obtain ⟨stmt, hStmt, rfl⟩ := List.mem_map.mp hRef
    rcases hComplete stmt hStmt hUnvisited with hQueued | ⟨dep, hDep, hDepUnvisited⟩
    · rw [hEmpty] at hQueued
      cases hQueued
    · exact ⟨dep.1, ⟨hResolved.deps_known stmt hStmt dep hDep, hDepUnvisited⟩,
        stmt, hStmt, rfl, dep, hDep, rfl⟩
  intro stmt hStmt
  by_contra hUnvisited
  have hMem : stmt.ref ∈ unvisited := ⟨List.mem_map_of_mem hStmt, hUnvisited⟩
  rw [hNone] at hMem
  exact hMem

theorem visit_plain (hVisited : Visited dsl state order)
    (hNew : stmt.ref ∉ visitedRefs order) (hPlain : stmt.action.isPlain) :
    ∃ after, state.assigned.visit stmt current = .ok (after, current) := by
  simp only [ActionType.isPlain, Bool.and_eq_true, Bool.not_eq_true'] at hPlain
  have hFresh : state.assigned.scopes.lookup stmt.ref = none := by
    by_contra hSome
    exact hNew (hVisited.mapped.scopes_visited _ hSome)
  refine ⟨{ state.assigned with scopes := state.assigned.scopes.insert stmt.ref current }, ?_⟩
  unfold ActionScopes.visit
  rw [if_neg (by simp [hPlain.1]), if_neg (by simp [hPlain.2])]
  unfold ActionScopes.assignScope
  rw [hFresh]
  rfl

section Runs

variable (Inv : TopoState → List (ActionStatement × Scope) → Prop)

theorem Visited.run_keeps (hResolved : dsl.Resolved)
    (hTurn : ∀ {state order stmt current rest after next}, Visited dsl state order →
      Complete dsl state order → Inv state order → state.queue = (stmt.ref, current) :: rest →
      stmt ∈ dsl.actions → state.assigned.visit stmt current = .ok (after, next) →
      Inv (advance dsl state stmt.ref rest after next) ((stmt, current) :: order))
    (hVisited : Visited dsl state order) (hComplete : Complete dsl state order)
    (hInv : Inv state order) (fuel : Nat) {final : TopoState}
    (hRun : TopoState.run dsl fuel state = .ok final) :
    ∃ order, Visited dsl final order ∧ Inv final order := by
  induction fuel generalizing state order with
  | zero =>
      cases hRun
      exact ⟨order, hVisited, hInv⟩
  | succ fuel ih =>
      unfold TopoState.run at hRun
      cases hQueue : state.queue with
      | nil =>
          rw [hQueue] at hRun
          cases hRun
          exact ⟨order, hVisited, hInv⟩
      | cons head rest =>
          obtain ⟨ref, current⟩ := head
          simp only [hQueue] at hRun
          cases hStmt : dsl.stmt? ref with
          | none => simp [hStmt] at hRun
          | some stmt =>
              simp only [hStmt] at hRun
              obtain ⟨⟨after, next⟩, hVisit, hRest⟩ := bind_eq_ok.mp hRun
              obtain ⟨hMem, rfl⟩ := DSLInput.stmt?_some_mem hStmt
              exact ih (hVisited.turn hResolved hQueue hStmt hVisit)
                (hComplete.turn hResolved hVisited hQueue)
                (hTurn hVisited hComplete hInv hQueue hMem hVisit) hRest

/-- Without a cycle, and when an invariant lets every visit succeed, the sort
visits all actions. -/
theorem Visited.run_total (hResolved : dsl.Resolved) (hAcyclic : Acyclic dsl.DependsOn)
    (hTurn : ∀ {state order stmt current rest}, Visited dsl state order →
      Complete dsl state order → Inv state order → state.queue = (stmt.ref, current) :: rest →
      stmt ∈ dsl.actions → ∃ after next,
        state.assigned.visit stmt current = .ok (after, next) ∧
        Inv (advance dsl state stmt.ref rest after next) ((stmt, current) :: order))
    (hVisited : Visited dsl state order) (hComplete : Complete dsl state order)
    (hInv : Inv state order) (fuel : Nat) (hFuel : state.visited + fuel = dsl.actions.length) :
    ∃ final order, TopoState.run dsl fuel state = .ok final ∧
      final.visited = dsl.actions.length ∧ Visited dsl final order ∧ Inv final order := by
  induction fuel generalizing state order with
  | zero => exact ⟨state, order, rfl, hFuel, hVisited, hInv⟩
  | succ fuel ih =>
      unfold TopoState.run
      cases hQueue : state.queue with
      | nil =>
          refine ⟨state, order, rfl, ?_, hVisited, hInv⟩
          have hAll := hComplete.all_visited hResolved hAcyclic hQueue
          have hSubset : dsl.actions.map ActionStatement.ref ⊆ visitedRefs order := by
            intro ref hRef
            obtain ⟨stmt, hStmt, rfl⟩ := List.mem_map.mp hRef
            exact hAll stmt hStmt
          have hLength := (List.subperm_of_subset hResolved.refs_nodup hSubset).length_le
          rw [visitedRefs, List.length_map, List.length_map, ← hVisited.count] at hLength
          omega
      | cons head rest =>
          obtain ⟨ref, current⟩ := head
          obtain ⟨stmt, hStmt⟩ := DSLInput.exists_stmt_of_mem_refs
            (hVisited.queue_mem (ref, current) (hQueue ▸ List.mem_cons_self))
          obtain ⟨hMem, rfl⟩ := DSLInput.stmt?_some_mem hStmt
          obtain ⟨after, next, hVisit, hAfter⟩ := hTurn hVisited hComplete hInv hQueue hMem
          have hCount := advance_visited dsl state stmt.ref rest after next
          obtain ⟨final, last, hRun, hFinal⟩ := ih (hVisited.turn hResolved hQueue hStmt hVisit)
            (hComplete.turn hResolved hVisited hQueue) hAfter
            (show (advance dsl state stmt.ref rest after next).visited + fuel = _ by omega)
          refine ⟨final, last, ?_, hFinal⟩
          simp only [hStmt]
          exact bind_eq_ok.mpr ⟨(after, next), hVisit, hRun⟩

end Runs

end TopoState

namespace DSLInput

variable {dsl : DSLInput}

theorem assignActionScopes_plain (hValid : dsl.Validated)
    (hPlain : ∀ stmt ∈ dsl.actions, stmt.action.isPlain) (hAcyclic : Acyclic dsl.DependsOn) :
    ∃ assigned, dsl.assignActionScopes = .ok assigned := by
  obtain ⟨final, -, hRun, hCount, -⟩ := TopoState.Visited.run_total (fun _ _ => True)
    hValid.resolved hAcyclic
    (fun {_ _ stmt current _} hVisited _ _ hQueue hStmt => by
      obtain ⟨after, hVisit⟩ :=
        TopoState.visit_plain hVisited (hVisited.head_new hQueue) (hPlain stmt hStmt)
      exact ⟨after, current, hVisit, trivial⟩)
    (TopoState.visited_start hValid.resolved) (TopoState.complete_start hValid.resolved) trivial
    dsl.actions.length (Nat.zero_add _)
  exact ⟨final.assigned, assignActionScopes_ok.mpr ⟨final, hRun, hCount, rfl⟩⟩

/-- When scopes have been assigned, the dependencies have no cycle. -/
theorem Placed.acyclic {assigned : ActionScopes} (hPlaced : dsl.Placed assigned) :
    Acyclic dsl.DependsOn := by
  obtain ⟨rank, hRank⟩ := hPlaced.exists_dep_rank
  refine Acyclic.of_rank rank ?_
  rintro ref src ⟨stmt, hStmt, rfl, dep, hDep, rfl⟩
  exact hRank stmt hStmt dep hDep

end DSLInput

end Tracecat
