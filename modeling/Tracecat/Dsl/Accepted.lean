import Mathlib.Data.List.Dedup
import Tracecat.Lib.Checks
import Tracecat.Dsl.Validation

/-!
# What acceptance establishes

The facts about a definition that `validate_structure` has checked when it
returns: unique refs, dependencies that parse and name actions, and, for a
definition that opens a scope, the scope rule of every edge and the
synchronization rule of every loop scope.
-/

namespace Tracecat
namespace DSLInput

open Checks

/-- The scope rule of one edge, as `checkEdge` tests it. -/
def EdgeRule (assigned : ActionScopes) (stmt : ActionStatement) (dep : AdjDst) : Prop :=
  if stmt.action.isOpener then
    assigned.parentOf (assigned.scopeOf stmt.ref) = some (assigned.scopeOf dep.1)
  else if stmt.action.isCloser then
    assigned.parentOf (assigned.scopeOf dep.1) = some (assigned.scopeOf stmt.ref)
  else assigned.scopeOf dep.1 = assigned.scopeOf stmt.ref

/-- The definition opens a scope somewhere. -/
def HasOpener (dsl : DSLInput) : Prop :=
  ∃ stmt ∈ dsl.actions, stmt.action.isOpener

variable {dsl : DSLInput}

/-! ## Looking up statements -/

theorem stmt?_some_mem {ref : Ref} {stmt : ActionStatement} (hStmt : dsl.stmt? ref = some stmt) :
    stmt ∈ dsl.actions ∧ stmt.ref = ref := by
  unfold stmt? at hStmt
  exact ⟨List.mem_of_find?_eq_some hStmt, by simpa using List.find?_some hStmt⟩

theorem stmt?_eq_some_of_mem (hNodup : (dsl.actions.map ActionStatement.ref).Nodup)
    {stmt : ActionStatement} (hMem : stmt ∈ dsl.actions) : dsl.stmt? stmt.ref = some stmt := by
  cases hFound : dsl.stmt? stmt.ref with
  | none =>
      have hNone := List.find?_eq_none.mp hFound stmt hMem
      simp at hNone
  | some found =>
      obtain ⟨hFoundMem, hRef⟩ := stmt?_some_mem hFound
      rw [List.inj_on_of_nodup_map hNodup hFoundMem hMem hRef]

theorem exists_stmt_of_mem_refs {ref : Ref}
    (hMem : ref ∈ dsl.actions.map ActionStatement.ref) :
    ∃ stmt, dsl.stmt? ref = some stmt := by
  obtain ⟨stmt, hStmt, hRef⟩ := List.mem_map.mp hMem
  cases hFound : dsl.stmt? ref with
  | none =>
      have hNone := List.find?_eq_none.mp hFound stmt hStmt
      simp [hRef] at hNone
  | some found => exact ⟨found, rfl⟩

/-! ## The sequence of passes -/

/-- The passes of `validate_structure` on an accepted definition, as
propositions. -/
structure Validated (dsl : DSLInput) : Prop where
  refs_nodup : (dsl.actions.map ActionStatement.ref).Nodup
  deps_parse : ∀ stmt ∈ dsl.actions, ∀ dep ∈ stmt.dependsOn, edgeComponentsFromDep dep ≠ none
  deps_known : ∀ stmt ∈ dsl.actions, ∀ dep ∈ stmt.deps,
    dep.1 ∈ dsl.actions.map ActionStatement.ref
  exprs_known : ∀ stmt ∈ dsl.actions, ∀ field ∈ stmt.exprFields, ∀ dep ∈ field.2,
    dep ∈ dsl.actions.map ActionStatement.ref
  scopes : dsl.validateScatterGatherScopes = .ok ()

/-- The refs are unique, and every dependency is an edge from an action. -/
structure Resolved (dsl : DSLInput) : Prop where
  refs_nodup : (dsl.actions.map ActionStatement.ref).Nodup
  deps_parse : ∀ stmt ∈ dsl.actions, ∀ dep ∈ stmt.dependsOn, edgeComponentsFromDep dep ≠ none
  deps_known : ∀ stmt ∈ dsl.actions, ∀ dep ∈ stmt.deps,
    dep.1 ∈ dsl.actions.map ActionStatement.ref

theorem Validated.resolved (hValid : dsl.Validated) : dsl.Resolved :=
  ⟨hValid.refs_nodup, hValid.deps_parse, hValid.deps_known⟩

theorem Accepted.validated (hAccepted : dsl.Accepted) : dsl.Validated := by
  unfold Accepted validateStructure at hAccepted
  simp only [throw_if_eq_ok, then_eq_ok, forM_eq_ok] at hAccepted
  obtain ⟨-, hNodup, -, hParse, hKnown, hExprs, hScopes⟩ := hAccepted
  refine ⟨?_, fun stmt hStmt dep hDep => (hParse stmt hStmt dep hDep).1, ?_, ?_, hScopes⟩
  · exact List.dedup_eq_self.mp ((List.dedup_sublist _).eq_of_length (not_not.mp hNodup))
  · intro stmt hStmt dep hDep
    rw [Bool.not_eq_true', Bool.not_eq_false] at hKnown
    have hNone := List.isEmpty_iff.mp hKnown
    have hSource := List.filter_eq_nil_iff.mp hNone dep.1
      (List.mem_flatMap.mpr ⟨stmt, hStmt, List.mem_map_of_mem hDep⟩)
    simpa using hSource
  · unfold allActionExpressionsValid at hExprs
    simp only [forM_eq_ok] at hExprs
    intro stmt hStmt field hField dep hDep
    by_contra hUnknown
    have hCheck := hExprs stmt hStmt field hField dep hDep
    simp [hUnknown] at hCheck

theorem Resolved.deps_length (hResolved : dsl.Resolved) {stmt : ActionStatement}
    (hStmt : stmt ∈ dsl.actions) : stmt.deps.length = stmt.dependsOn.length := by
  unfold ActionStatement.deps
  rw [List.filterMap_length_eq_length]
  intro dep hDep
  exact Option.isSome_iff_ne_none.mpr (hResolved.deps_parse stmt hStmt dep hDep)

namespace Validated

theorem deps_length (hValid : dsl.Validated) {stmt : ActionStatement}
    (hStmt : stmt ∈ dsl.actions) : stmt.deps.length = stmt.dependsOn.length :=
  hValid.resolved.deps_length hStmt

theorem stmt?_dep (hValid : dsl.Validated) {stmt : ActionStatement}
    (hStmt : stmt ∈ dsl.actions) {dep : AdjDst} (hDep : dep ∈ stmt.deps) :
    ∃ source, dsl.stmt? dep.1 = some source :=
  exists_stmt_of_mem_refs (hValid.deps_known stmt hStmt dep hDep)

end Validated

/-! ## The scope passes -/

/-- What `_validate_scatter_gather_scopes` has established for a definition with
an opener. -/
theorem Validated.scopes_of_opener (hValid : dsl.Validated) (hOpener : dsl.HasOpener) :
    ∃ assigned, dsl.assignActionScopes = .ok assigned ∧
      dsl.validateScopeDependencies assigned = .ok () ∧
      dsl.validateLoopScopeSynchronization assigned = .ok () := by
  have hScopes := hValid.scopes
  unfold validateScatterGatherScopes at hScopes
  simp only [throw_if_eq_ok] at hScopes
  obtain ⟨-, -, hScopes⟩ := hScopes
  have hSome : ¬ ((dsl.actions.filter fun stmt => stmt.action = .transformScatter).length = 0 ∧
      (dsl.actions.filter fun stmt => stmt.action = .loopStart).length = 0) := by
    rintro ⟨hScatters, hLoops⟩
    obtain ⟨stmt, hStmt, hAction⟩ := hOpener
    have hScatter : stmt.action ≠ .transformScatter := by
      simpa using List.filter_eq_nil_iff.mp (List.length_eq_zero_iff.mp hScatters) stmt hStmt
    have hLoop : stmt.action ≠ .loopStart := by
      simpa using List.filter_eq_nil_iff.mp (List.length_eq_zero_iff.mp hLoops) stmt hStmt
    cases hKind : stmt.action <;> simp_all [ActionType.isOpener]
  rw [if_neg hSome] at hScopes
  obtain ⟨assigned, hAssigned, hPasses⟩ := bind_eq_ok.mp hScopes
  exact ⟨assigned, hAssigned, then_eq_ok.mp hPasses⟩

theorem Validated.scope_passes (hValid : dsl.Validated) (hOpener : dsl.HasOpener)
    {assigned : ActionScopes} (hAssigned : dsl.assignActionScopes = .ok assigned) :
    dsl.validateScopeDependencies assigned = .ok () ∧
      dsl.validateLoopScopeSynchronization assigned = .ok () := by
  obtain ⟨other, hOther, hPasses⟩ := hValid.scopes_of_opener hOpener
  rw [hAssigned] at hOther
  cases hOther
  exact hPasses

theorem Validated.assignActionScopes_of_opener (hValid : dsl.Validated)
    (hOpener : dsl.HasOpener) : ∃ assigned, dsl.assignActionScopes = .ok assigned := by
  obtain ⟨assigned, hAssigned, -⟩ := hValid.scopes_of_opener hOpener
  exact ⟨assigned, hAssigned⟩

/-- A definition without an opener has no closer either. -/
theorem Validated.plain_of_no_opener (hValid : dsl.Validated) (hNone : ¬ dsl.HasOpener)
    {stmt : ActionStatement} (hStmt : stmt ∈ dsl.actions) : stmt.action.isPlain := by
  have hCount (action : ActionType) (hOpener : action.isOpener = true) :
      (dsl.actions.filter fun stmt => stmt.action = action).length = 0 := by
    rw [List.length_eq_zero_iff, List.filter_eq_nil_iff]
    intro other hOther hAction
    refine hNone ⟨other, hOther, ?_⟩
    rw [of_decide_eq_true hAction]
    exact hOpener
  have hScopes := hValid.scopes
  unfold validateScatterGatherScopes at hScopes
  simp only [throw_if_eq_ok, hCount .transformScatter rfl, hCount .loopStart rfl] at hScopes
  obtain ⟨hGathers, hEnds, -⟩ := hScopes
  have hAbsent {action : ActionType}
      (hLength : (dsl.actions.filter fun stmt => stmt.action = action).length = 0) :
      stmt.action ≠ action := by
    simpa using List.filter_eq_nil_iff.mp (List.length_eq_zero_iff.mp hLength) stmt hStmt
  have hGather := hAbsent (Nat.le_zero.mp (Nat.not_lt.mp hGathers))
  have hLoopEnd := hAbsent (not_not.mp hEnds)
  have hOpener : ¬ stmt.action.isOpener := fun hOpener => hNone ⟨stmt, hStmt, hOpener⟩
  cases hAction : stmt.action <;>
    simp_all [ActionType.isPlain, ActionType.isOpener, ActionType.isCloser]

theorem resolveClosedLoopScope_ok {assigned : ActionScopes} {stmt : ActionStatement}
    {scope : Scope} (hResolved : resolveClosedLoopScope assigned stmt = .ok scope) :
    depScopes assigned stmt = [scope] ∧
      assigned.parentOf scope = some (assigned.scopeOf stmt.ref) ∧
      assigned.openers.lookup scope = some .loopStart := by
  unfold resolveClosedLoopScope at hResolved
  split at hResolved
  · rename_i loopScope hScopes
    split at hResolved
    · cases hResolved
    · rename_i hParent
      split at hResolved
      · cases hResolved
      · rename_i hOpener
        cases hResolved
        exact ⟨hScopes, not_not.mp hParent, not_not.mp hOpener⟩
  · cases hResolved

theorem scopeOf_mem_depScopes (assigned : ActionScopes) {stmt : ActionStatement} {dep : AdjDst}
    (hDep : dep ∈ stmt.deps) : assigned.scopeOf dep.1 ∈ depScopes assigned stmt :=
  List.mem_dedup.mpr (List.mem_map_of_mem (f := fun dep => assigned.scopeOf dep.1) hDep)

theorem edgeRule_of_checkEdge {assigned : ActionScopes} {stmt : ActionStatement} {dep : String}
    {edge : AdjDst} (hParse : edgeComponentsFromDep dep = some edge)
    (hCheck : checkEdge assigned stmt dep = .ok ()) : EdgeRule assigned stmt edge := by
  unfold checkEdge at hCheck
  simp only [hParse, Option.map_some, Option.getD_some] at hCheck
  unfold EdgeRule
  by_cases hOpener : stmt.action.isOpener
  · rw [if_pos hOpener] at hCheck ⊢
    rw [throw_if_eq_ok] at hCheck
    exact (not_not.mp hCheck.1).symm
  · rw [if_neg hOpener] at hCheck ⊢
    by_cases hLoopEnd : stmt.action = .loopEnd
    · have hCloser : stmt.action.isCloser = true := by simp [hLoopEnd, ActionType.isCloser]
      rw [if_pos hLoopEnd, bind_eq_ok] at hCheck
      rw [if_pos hCloser]
      obtain ⟨closed, hClosed, hScope⟩ := hCheck
      rw [throw_if_eq_ok] at hScope
      rw [not_not.mp hScope.1]
      exact (resolveClosedLoopScope_ok hClosed).2.1
    · rw [if_neg hLoopEnd] at hCheck
      by_cases hCloser : stmt.action.isCloser
      · rw [if_pos hCloser] at hCheck ⊢
        by_cases hParent : some (assigned.scopeOf stmt.ref) =
            assigned.parentOf (assigned.scopeOf edge.1)
        · exact hParent.symm
        · rw [if_pos hParent] at hCheck
          split at hCheck <;> cases hCheck
      · rw [if_neg hCloser] at hCheck ⊢
        rw [throw_if_eq_ok] at hCheck
        exact not_not.mp hCheck.1

theorem edgeRule_of_validated {assigned : ActionScopes}
    (hScopes : dsl.validateScopeDependencies assigned = .ok ()) {stmt : ActionStatement}
    (hStmt : stmt ∈ dsl.actions) {edge : AdjDst} (hEdge : edge ∈ stmt.deps) :
    EdgeRule assigned stmt edge := by
  unfold validateScopeDependencies at hScopes
  simp only [then_eq_ok, forM_eq_ok] at hScopes
  obtain ⟨dep, hDep, hParse⟩ := List.mem_filterMap.mp hEdge
  exact edgeRule_of_checkEdge hParse ((hScopes.2 stmt hStmt).1 dep hDep)

theorem loopEnd_resolved_of_validated {assigned : ActionScopes}
    (hScopes : dsl.validateScopeDependencies assigned = .ok ()) {stmt : ActionStatement}
    (hStmt : stmt ∈ dsl.actions) (hLoopEnd : stmt.action = .loopEnd) :
    ∃ scope, resolveClosedLoopScope assigned stmt = .ok scope := by
  unfold validateScopeDependencies at hScopes
  simp only [then_eq_ok, forM_eq_ok] at hScopes
  have hCheck := hScopes.1 stmt hStmt
  rw [if_pos hLoopEnd, bind_eq_ok] at hCheck
  obtain ⟨scope, hScope, -⟩ := hCheck
  exact ⟨scope, hScope⟩

end DSLInput
end Tracecat
