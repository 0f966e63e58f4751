import Tracecat.Dsl.FifoOrder
import Tracecat.Dsl.SameMaps
import Tracecat.Dsl.ScopeRelation

/-!
# Sorting the same statements again

The scopes of one sort tell what another sort of the same statements does: every
visit succeeds and makes the same entries, as long as no gather is visited in the
scope of a loop.
-/

namespace Tracecat

open Checks

namespace ActionScopes

/-- The first mappings hold entries of the second ones only, and every scope that
they name is complete. -/
structure Within (part whole : ActionScopes) : Prop where
  scopes : ∀ ref scope, part.scopes.lookup ref = some scope →
    whole.scopes.lookup ref = some scope
  hierarchy : ∀ scope parent, part.hierarchy.lookup scope = some parent →
    whole.hierarchy.lookup scope = some parent
  openers : ∀ scope action, part.openers.lookup scope = some action →
    whole.openers.lookup scope = some action
  root : part.hierarchy.lookup .root = some none
  opened : ∀ ref parent, part.hierarchy.lookup (.opened ref) = some parent →
    ∃ action, part.openers.lookup (.opened ref) = some action
  scopes_known : ∀ ref scope, part.scopes.lookup ref = some scope →
    ∃ parent, part.hierarchy.lookup scope = some parent
  parents_known : ∀ scope parent, part.hierarchy.lookup scope = some (some parent) →
    ∃ above, part.hierarchy.lookup parent = some above

namespace Within

variable {part whole : ActionScopes} {stmt : ActionStatement} {current : Scope}

theorem insert_scope (hWithin : Within part whole) {ref : Ref} {scope : Scope}
    (hWhole : whole.scopes.lookup ref = some scope)
    (hKnown : ∃ parent, part.hierarchy.lookup scope = some parent) :
    Within { part with scopes := part.scopes.insert ref scope } whole := by
  refine ⟨fun other otherScope hLookup => ?_, hWithin.hierarchy, hWithin.openers, hWithin.root,
    hWithin.opened, fun other otherScope hLookup => ?_, hWithin.parents_known⟩
  · rw [Dict.lookup_insert_eq] at hLookup
    split at hLookup
    · rename_i hRef
      rw [hRef, hWhole, hLookup]
    · exact hWithin.scopes other otherScope hLookup
  · rw [Dict.lookup_insert_eq] at hLookup
    split at hLookup
    · cases hLookup
      exact hKnown
    · exact hWithin.scopes_known other otherScope hLookup

theorem insert_opened (hWithin : Within part whole) {ref : Ref} {action : ActionType}
    (hParent : whole.hierarchy.lookup (.opened ref) = some (some current))
    (hAction : whole.openers.lookup (.opened ref) = some action)
    (hKnown : ∃ parent, part.hierarchy.lookup current = some parent) :
    Within { part with
      hierarchy := part.hierarchy.insert (Scope.opened ref) (some current)
      openers := part.openers.insert (Scope.opened ref) action } whole := by
  have hKeeps : ∀ scope, (∃ parent, part.hierarchy.lookup scope = some parent) →
      ∃ parent, (part.hierarchy.insert (Scope.opened ref) (some current)).lookup scope =
        some parent := by
    rintro scope ⟨parent, hLookup⟩
    rw [Dict.lookup_insert_eq]
    split
    · exact ⟨some current, rfl⟩
    · exact ⟨parent, hLookup⟩
  refine ⟨hWithin.scopes, fun scope parent hLookup => ?_, fun scope other hLookup => ?_, ?_,
    fun other parent hLookup => ?_, fun other scope hLookup => ?_, fun scope parent hLookup => ?_⟩
  · rw [Dict.lookup_insert_eq] at hLookup
    split at hLookup
    · rename_i hScope
      rw [hScope, hParent, hLookup]
    · exact hWithin.hierarchy scope parent hLookup
  · rw [Dict.lookup_insert_eq] at hLookup
    split at hLookup
    · rename_i hScope
      rw [hScope, hAction, hLookup]
    · exact hWithin.openers scope other hLookup
  · exact (AList.lookup_insert_ne (by simp)).trans hWithin.root
  · simp only [Dict.lookup_insert_eq] at hLookup ⊢
    split at hLookup
    · rename_i hScope
      rw [if_pos hScope]
      exact ⟨action, rfl⟩
    · rename_i hScope
      rw [if_neg hScope]
      exact hWithin.opened other parent hLookup
  · exact hKeeps scope (hWithin.scopes_known other scope hLookup)
  · rw [Dict.lookup_insert_eq] at hLookup
    split at hLookup
    · cases hLookup
      exact hKeeps current hKnown
    · exact hKeeps parent (hWithin.parents_known scope parent hLookup)

/-- A visit that the whole mappings record succeeds. -/
theorem visit (hWithin : Within part whole) (hAssigns : whole.Assigns stmt current)
    (hFresh : part.scopes.lookup stmt.ref = none)
    (hKnown : ∃ parent, part.hierarchy.lookup current = some parent) :
    ∃ after next, part.visit stmt current = .ok (after, next) ∧ Within after whole := by
  have hAssignScope : ∀ scope, part.assignScope stmt.ref scope =
      .ok { part with scopes := part.scopes.insert stmt.ref scope } := by
    intro scope
    unfold assignScope
    rw [hFresh]
  unfold Assigns at hAssigns
  unfold ActionScopes.visit
  by_cases hOpener : stmt.action.isOpener
  · rw [if_pos hOpener] at hAssigns ⊢
    obtain ⟨hScope, hParent, hAction⟩ := hAssigns
    refine ⟨_, _, bind_eq_ok.mpr ⟨_, hAssignScope _, rfl⟩, ?_⟩
    have hOpened := hWithin.insert_opened hParent hAction hKnown
    exact hOpened.insert_scope hScope ⟨some current, AList.lookup_insert _⟩
  · rw [if_neg hOpener] at hAssigns ⊢
    by_cases hCloser : stmt.action.isCloser
    · rw [if_pos hCloser] at hAssigns ⊢
      obtain ⟨next, hScope, hParent, hOpenerOf⟩ := hAssigns
      obtain ⟨parent, hLookup⟩ := hKnown
      have hEq : some next = parent := by
        have hWhole := hWithin.hierarchy _ _ hLookup
        rw [hParent] at hWhole
        exact Option.some.inj hWhole
      subst hEq
      have hOpened : part.openers.lookup current = stmt.action.openerOf := by
        cases current with
        | root =>
            rw [hWithin.root] at hLookup
            cases hLookup
        | opened ref =>
            obtain ⟨action, hAction⟩ := hWithin.opened ref _ hLookup
            rw [hAction, ← hOpenerOf, hWithin.openers _ _ hAction]
      rw [parentOf_eq_some.mpr hLookup]
      dsimp only
      rw [if_neg (not_not.mpr hOpened)]
      refine ⟨_, _, bind_eq_ok.mpr ⟨_, hAssignScope _, rfl⟩, ?_⟩
      exact hWithin.insert_scope hScope (hWithin.parents_known _ _ hLookup)
    · rw [if_neg hCloser] at hAssigns ⊢
      exact ⟨_, _, bind_eq_ok.mpr ⟨_, hAssignScope _, rfl⟩,
        hWithin.insert_scope hAssigns hKnown⟩

end Within
end ActionScopes

namespace DSLInput

open TopoState

variable {dsl other : DSLInput} {assigned : ActionScopes}

theorem Placed.within_start (hPlaced : dsl.Placed assigned) :
    (start other).assigned.Within assigned := by
  obtain ⟨order, hOrder⟩ := hPlaced.exists_order
  have hLookup : ∀ scope parent, (start other).assigned.hierarchy.lookup scope = some parent →
      scope = .root ∧ parent = none := by
    intro scope parent hSome
    unfold start at hSome
    rw [Dict.lookup_insert_eq] at hSome
    split at hSome
    · rename_i hRoot
      exact ⟨hRoot, (Option.some.inj hSome).symm⟩
    · cases hSome
  refine ⟨fun ref scope hSome => (by cases hSome), fun scope parent hSome => ?_,
    fun scope action hSome => (by cases hSome), AList.lookup_insert _, fun ref parent hSome => ?_,
    fun ref scope hSome => (by cases hSome), fun scope parent hSome => ?_⟩
  · obtain ⟨rfl, rfl⟩ := hLookup scope parent hSome
    exact hOrder.mapped.root
  · cases (hLookup _ _ hSome).1
  · cases (hLookup _ _ hSome).2

/-- The visit of an action from the scope of a dependency is the one recorded,
unless it is a gather in the scope of a loop. -/
theorem Placed.assigns_of_reached (hPlaced : dsl.Placed assigned) {stmt : ActionStatement}
    {current : Scope} (hStmt : stmt ∈ dsl.actions)
    (hReached : ((∀ dep, ¬ dsl.DependsOn stmt.ref dep) ∧ current = .root) ∨
      ∃ dep, dsl.DependsOn stmt.ref dep ∧ assigned.scopeOf dep = current)
    (hGather : stmt.action = .transformGather → ∀ loop, dsl.HasAction loop .loopStart →
      current ≠ .opened loop) : assigned.Assigns stmt current := by
  obtain ⟨order, hOrder⟩ := hPlaced.exists_order
  obtain ⟨recorded, hEntry⟩ := (hOrder.mem_iff stmt).mpr hStmt
  have hScope := hOrder.lookup_scopes hEntry
  dsimp only at hScope
  unfold ActionScopes.Assigns
  by_cases hOpener : stmt.action.isOpener
  · rw [if_pos hOpener]
    obtain ⟨hOpened, hParent, hAction⟩ := hOrder.opener_parent hEntry hOpener
    have hSame : recorded = current := by
      rcases hReached with ⟨hNone, rfl⟩ | ⟨dep, hEdge, rfl⟩
      · exact hOrder.current_of_no_deps hEntry hNone
      · have hEdgeParent := hPlaced.opener_edge hStmt hOpener hEdge
        rw [hOpened, hParent] at hEdgeParent
        exact Option.some.inj hEdgeParent
    rw [hScope, hOpened]
    exact ⟨rfl, ActionScopes.parentOf_eq_some.mp (hSame ▸ hParent), hAction⟩
  · rw [if_neg hOpener]
    by_cases hCloser : stmt.action.isCloser
    · rw [if_pos hCloser]
      have hParent : assigned.parentOf current = some (assigned.scopeOf stmt.ref) := by
        rcases hReached with ⟨hNone, rfl⟩ | ⟨dep, hEdge, rfl⟩
        · rw [← hOrder.current_of_no_deps hEntry hNone]
          exact (hOrder.closer_parent hEntry hCloser).1
        · exact hPlaced.closer_edge hStmt hCloser hEdge
      refine ⟨_, hScope, ActionScopes.parentOf_eq_some.mp hParent, ?_⟩
      cases current with
      | root =>
          rw [hOrder.parentOf_root] at hParent
          cases hParent
      | opened ref =>
          obtain ⟨opener, hOpenerEntry, rfl, hIsOpener, -, hAction⟩ := hOrder.opener_entry hParent
          have hOpenerStmt := (hOrder.mem_iff opener).mp ⟨_, hOpenerEntry⟩
          rw [hAction]
          by_cases hLoopEnd : stmt.action = .loopEnd
          · -- a loop end resolves one scope, which a loop start opened
            obtain ⟨loop, hResolved⟩ := loopEnd_resolved_of_validated
              (hPlaced.validated.scope_passes ⟨opener, hOpenerStmt, hIsOpener⟩
                hPlaced.assigned_eq).1 hStmt hLoopEnd
            obtain ⟨hDeps, -, hLoop⟩ := resolveClosedLoopScope_ok hResolved
            rcases hReached with ⟨-, hRoot⟩ | ⟨src, hEdge, hSource⟩
            · cases hRoot
            · obtain ⟨dep, hDep, rfl, -⟩ := hPlaced.edgeRule_of_dependsOn hStmt hEdge
              have hMem := scopeOf_mem_depScopes assigned hDep
              rw [hDeps, hSource, List.mem_singleton] at hMem
              rw [← hMem, hAction] at hLoop
              rw [hLoop, hLoopEnd]
              rfl
          · have hIsGather : stmt.action = .transformGather := by
              cases hKind : stmt.action <;> simp_all [ActionType.isCloser]
            have hNoLoop : opener.action ≠ .loopStart := fun hLoop =>
              hGather hIsGather opener.ref ⟨opener, hOpenerStmt, rfl, hLoop⟩ rfl
            have hScatter : opener.action = .transformScatter := by
              cases hKind : opener.action <;> simp_all [ActionType.isOpener]
            rw [hScatter, hIsGather]
            rfl
    · have hPlain : stmt.action.isPlain := by simp [ActionType.isPlain, hOpener, hCloser]
      rw [if_neg hCloser, hScope]
      rcases hReached with ⟨hNone, rfl⟩ | ⟨dep, hEdge, rfl⟩
      · rw [hOrder.plain_scope hEntry hPlain, hOrder.current_of_no_deps hEntry hNone]
      · rw [hPlaced.plain_edge hStmt hPlain hEdge]

theorem SameStatements.sameMaps_of_within (hStmts : dsl.SameStatements other)
    {others : ActionScopes} {order otherOrder : List (ActionStatement × Scope)}
    (hOrder : dsl.ScopeOrder assigned order) (hOthers : other.ScopeOrder others otherOrder)
    (hWithin : others.Within assigned) : assigned.SameMaps others := by
  -- an action that the first sort has visited was visited by the second one
  have hVisited : ∀ entry ∈ order, ∃ current, (entry.1, current) ∈ otherOrder := by
    intro entry hEntry
    have hStmt := (hOrder.mem_iff entry.1).mp ⟨entry.2, hEntry⟩
    exact (hOthers.mem_iff entry.1).mpr (hStmts.mem_iff.mp hStmt)
  refine ⟨fun ref => ?_, fun scope => ?_, fun scope => ?_⟩
  · cases hLookup : others.scopes.lookup ref with
    | some scope => exact hWithin.scopes ref scope hLookup
    | none =>
        by_contra hSome
        obtain ⟨entry, hEntry, rfl⟩ := List.mem_map.mp (hOrder.mapped.scopes_visited ref hSome)
        obtain ⟨current, hOther⟩ := hVisited entry hEntry
        have hFound := hOthers.lookup_scopes hOther
        dsimp only at hFound
        rw [hLookup] at hFound
        cases hFound
  · cases hLookup : others.hierarchy.lookup scope with
    | some parent => exact hWithin.hierarchy scope parent hLookup
    | none =>
        cases scope with
        | root =>
            rw [hWithin.root] at hLookup
            cases hLookup
        | opened ref =>
            by_contra hSome
            obtain ⟨entry, hEntry, rfl, hOpener⟩ := hOrder.mapped.hierarchy_visited ref hSome
            obtain ⟨current, hOther⟩ := hVisited entry hEntry
            have hFound := (hOthers.opener_parent hOther hOpener).2.1
            rw [ActionScopes.parentOf_eq_some, hLookup] at hFound
            cases hFound
  · cases hLookup : others.openers.lookup scope with
    | some action => exact hWithin.openers scope action hLookup
    | none =>
        cases scope with
        | root => exact hOrder.mapped.root_opener
        | opened ref =>
            by_contra hSome
            obtain ⟨entry, hEntry, rfl, hOpener⟩ := hOrder.mapped.openers_visited ref hSome
            obtain ⟨current, hOther⟩ := hVisited entry hEntry
            have hFound := (hOthers.opener_parent hOther hOpener).2.2
            rw [hLookup] at hFound
            cases hFound

namespace SameStatements

theorem dependsOn_eq (hStmts : dsl.SameStatements other) : dsl.DependsOn = other.DependsOn := by
  funext ref src
  simp only [DependsOn, hStmts.mem_iff]

theorem hasAction_eq (hStmts : dsl.SameStatements other) : dsl.HasAction = other.HasAction := by
  funext ref action
  simp only [HasAction, hStmts.mem_iff]

/-- The sort of a placed definition succeeds in every listing and assigns the same
scopes, unless a gather has a loop's action among its deepest dependencies. -/
theorem assignActionScopes_ok (hStmts : dsl.SameStatements other)
    (hPlaced : dsl.Placed assigned) (hShallow : dsl.NoDeepLoopGather) :
    ∃ others, other.assignActionScopes = .ok others ∧ assigned.SameMaps others := by
  have hResolved := hStmts.resolved hPlaced.validated.resolved
  have hEdges := hStmts.dependsOn_eq
  have hDescent : Descent other.DependsOn [] :=
    ⟨fun ref hNone => (by cases hNone), fun ref hNone => (by cases hNone)⟩
  have hListed : ListedLast other [] :=
    List.pairwise_of_forall fun _ _ hNone => (by cases hNone)
  obtain ⟨final, otherOrder, hRun, hCount, hVisited, -, hWithin⟩ := Visited.run_total
    (fun state order => Fifo other [] state order ∧ state.assigned.Within assigned) hResolved
    (hEdges ▸ hPlaced.acyclic)
    (fun {state order stmt current rest} hVisited hComplete hInv hQueue hStmt => by
      obtain ⟨hFifo, hWithin⟩ := hInv
      have hHead : (stmt.ref, current) ∈ state.queue := hQueue ▸ List.mem_cons_self
      have hMem := hStmts.mem_iff.mpr hStmt
      have hFresh : state.assigned.scopes.lookup stmt.ref = none := by
        by_contra hSome
        exact hVisited.head_new hQueue (hVisited.mapped.scopes_visited _ hSome)
      have hArrives := hFifo.queued _ hHead
      have hKnown : ∃ parent, state.assigned.hierarchy.lookup current = some parent := by
        rcases hArrives with ⟨-, hRoot⟩ | ⟨dep, -, hLookup, -⟩
        · obtain rfl : current = .root := hRoot
          exact ⟨none, hWithin.root⟩
        · exact hWithin.scopes_known _ _ hLookup
      have hAssigns : assigned.Assigns stmt current := by
        rcases hArrives with ⟨hNone, hRoot⟩ | ⟨dep, hDeepest, hLookup, -⟩
        · refine hPlaced.assigns_of_reached hMem (Or.inl ⟨hEdges ▸ hNone, hRoot⟩) ?_
          intro _ loop _ hOpened
          rw [hOpened] at hRoot
          cases hRoot
        · have hScope : assigned.scopeOf dep = current := by
            simp [ActionScopes.scopeOf, Dict.getD, hWithin.scopes _ _ hLookup]
          rw [← hEdges] at hDeepest
          refine hPlaced.assigns_of_reached hMem (Or.inr ⟨dep, hDeepest.1, hScope⟩) ?_
          intro hGather loop hLoop hOpened
          refine hShallow stmt.ref dep loop ⟨stmt, hMem, rfl, hGather⟩ hDeepest hLoop ?_
          rw [← hOpened, ← hScope]
          exact hPlaced.liesIn_dep hDeepest.1
      obtain ⟨after, next, hVisit, hAfter⟩ := hWithin.visit hAssigns hFresh hKnown
      refine ⟨after, next, hVisit, ?_, ?_⟩
      · exact hFifo.turn hVisited hComplete hResolved hDescent hListed hQueue hStmt hVisit
      · rw [advance_assigned]
        exact hAfter)
    (visited_start hResolved) (complete_start hResolved)
    ⟨fifo_start hResolved hDescent hListed, hPlaced.within_start⟩ other.actions.length
    (Nat.zero_add _)
  obtain ⟨order, hOrder⟩ := hPlaced.exists_order
  exact ⟨final.assigned, DSLInput.assignActionScopes_ok.mpr ⟨final, hRun, hCount, rfl⟩,
    hStmts.sameMaps_of_within hOrder (hVisited.scopeOrder hResolved hCount) hWithin⟩

end SameStatements
end DSLInput
end Tracecat
