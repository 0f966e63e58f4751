import Mathlib.Data.List.Perm.Basic
import Tracecat.Dsl.DepOrder
import Tracecat.Dsl.LoopEnds

/-!
# The passes read the mappings and the statements as sets

The passes after the sort look the mappings up and go through the statements one
by one.  Their verdict is the same for mappings that hold the same entries and
for statements listed in another order.
-/

namespace Tracecat

open Checks

/-- The mappings hold the same entries. -/
structure ActionScopes.SameMaps (left right : ActionScopes) : Prop where
  scopes : ∀ ref, left.scopes.lookup ref = right.scopes.lookup ref
  hierarchy : ∀ scope, left.hierarchy.lookup scope = right.hierarchy.lookup scope
  openers : ∀ scope, left.openers.lookup scope = right.openers.lookup scope

namespace ActionScopes.SameMaps

variable {left right : ActionScopes}

variable (hSame : SameMaps left right)
include hSame

theorem scopeOf_eq : left.scopeOf = right.scopeOf := by
  funext ref
  rw [scopeOf, scopeOf, Dict.getD, Dict.getD, hSame.scopes]

theorem parentOf_eq : left.parentOf = right.parentOf := by
  funext scope
  rw [parentOf, parentOf, Dict.getD, Dict.getD, hSame.hierarchy]

theorem length_eq :
    left.hierarchy.entries.length = right.hierarchy.entries.length :=
  (Dict.entries_perm hSame.hierarchy).length_eq

theorem chainFrom_eq (fuel : Nat) (scope : Scope) :
    left.chainFrom fuel scope = right.chainFrom fuel scope := by
  induction fuel generalizing scope with
  | zero => rfl
  | succ fuel ih =>
      unfold chainFrom
      rw [hSame.parentOf_eq]
      split
      · rfl
      · rw [ih]

theorem isDescendant_eq :
    left.isDescendant = right.isDescendant := by
  funext scope ancestor
  unfold isDescendant chain
  rw [hSame.length_eq, hSame.chainFrom_eq]

theorem loopDescendantFrom_eq (actionScope : Scope) (fuel : Nat) (scope : Scope) :
    left.loopDescendantFrom actionScope fuel scope =
      right.loopDescendantFrom actionScope fuel scope := by
  induction fuel generalizing scope with
  | zero => rfl
  | succ fuel ih =>
      unfold loopDescendantFrom
      rw [hSame.parentOf_eq, hSame.openers]
      split
      · rfl
      · split
        · rfl
        · split
          · rfl
          · rw [ih]

theorem isLoopDescendant_eq :
    left.isLoopDescendant = right.isLoopDescendant := by
  funext depScope actionScope
  unfold isLoopDescendant
  rw [hSame.length_eq, hSame.loopDescendantFrom_eq]

theorem depScopes_eq :
    DSLInput.depScopes left = DSLInput.depScopes right := by
  funext stmt
  unfold DSLInput.depScopes
  rw [hSame.scopeOf_eq]

theorem resolveClosedLoopScope_eq :
    DSLInput.resolveClosedLoopScope left = DSLInput.resolveClosedLoopScope right := by
  funext stmt
  unfold DSLInput.resolveClosedLoopScope
  simp only [hSame.depScopes_eq, hSame.parentOf_eq, hSame.scopeOf_eq, hSame.openers]

theorem checkEdge_eq :
    DSLInput.checkEdge left = DSLInput.checkEdge right := by
  funext stmt dep
  unfold DSLInput.checkEdge
  rw [hSame.scopeOf_eq]
  simp only [hSame.resolveClosedLoopScope_eq, hSame.parentOf_eq, hSame.openers]

theorem checkExpr_eq :
    DSLInput.checkExpr left = DSLInput.checkExpr right := by
  funext stmt key dep
  unfold DSLInput.checkExpr DSLInput.checkCloserExpr
  rw [hSame.scopeOf_eq]
  simp only [hSame.resolveClosedLoopScope_eq, hSame.parentOf_eq, hSame.openers,
    hSame.isDescendant_eq, hSame.isLoopDescendant_eq]

end ActionScopes.SameMaps

/-! ## Statements in another order -/

/-- The same statements, listed in another order. -/
def DSLInput.SameStatements (dsl other : DSLInput) : Prop :=
  dsl.actions.Perm other.actions

namespace DSLInput.SameStatements

variable {dsl other : DSLInput} {left right : ActionScopes}

variable (hStmts : dsl.SameStatements other)
include hStmts

theorem symm : other.SameStatements dsl :=
  List.Perm.symm hStmts

theorem mem_iff {stmt : ActionStatement} :
    stmt ∈ dsl.actions ↔ stmt ∈ other.actions :=
  List.Perm.mem_iff hStmts

theorem refs_perm :
    (dsl.actions.map ActionStatement.ref).Perm (other.actions.map ActionStatement.ref) :=
  List.Perm.map _ hStmts

theorem length_filter_eq (keep : ActionStatement → Bool) :
    (dsl.actions.filter keep).length = (other.actions.filter keep).length :=
  (List.Perm.filter keep hStmts).length_eq

theorem resolved (hResolved : dsl.Resolved) :
    other.Resolved := by
  refine ⟨hStmts.refs_perm.nodup_iff.mp hResolved.refs_nodup, ?_, ?_⟩
  · exact fun stmt hStmt => hResolved.deps_parse stmt (hStmts.mem_iff.mpr hStmt)
  · intro stmt hStmt dep hDep
    exact hStmts.refs_perm.mem_iff.mp (hResolved.deps_known stmt (hStmts.mem_iff.mpr hStmt) dep hDep)

theorem stmt?_eq (hNodup : (dsl.actions.map ActionStatement.ref).Nodup) :
    dsl.stmt? = other.stmt? := by
  have hOther := hStmts.refs_perm.nodup_iff.mp hNodup
  funext ref
  cases hFound : dsl.stmt? ref with
  | some stmt =>
      obtain ⟨hMem, rfl⟩ := stmt?_some_mem hFound
      exact (stmt?_eq_some_of_mem hOther (hStmts.mem_iff.mp hMem)).symm
  | none =>
      cases hSecond : other.stmt? ref with
      | none => rfl
      | some stmt =>
          obtain ⟨hMem, rfl⟩ := stmt?_some_mem hSecond
          rw [stmt?_eq_some_of_mem hNodup (hStmts.mem_iff.mpr hMem)] at hFound
          cases hFound

theorem validateScopeDependencies_ok (hSame : ActionScopes.SameMaps left right)
    (hPass : dsl.validateScopeDependencies left = .ok ()) :
    other.validateScopeDependencies right = .ok () := by
  unfold validateScopeDependencies at hPass ⊢
  rw [hSame.resolveClosedLoopScope_eq, hSame.checkEdge_eq, hSame.checkExpr_eq] at hPass
  simp only [then_eq_ok, forM_eq_ok] at hPass ⊢
  exact ⟨fun stmt hStmt => hPass.1 stmt (hStmts.mem_iff.mpr hStmt),
    fun stmt hStmt => hPass.2 stmt (hStmts.mem_iff.mpr hStmt)⟩

theorem loopEndByScope_ok (hSame : ActionScopes.SameMaps left right)
    (hNodup : (dsl.actions.map ActionStatement.ref).Nodup) {ends : Dict Scope Ref}
    (hEnds : dsl.loopEndByScope left = .ok ends) :
    ∃ others, other.loopEndByScope right = .ok others ∧
      ∀ scope, ends.lookup scope = others.lookup scope := by
  obtain ⟨hEach, hKeys⟩ := DSLInput.loopEndByScope_ok hEnds
  rw [hSame.resolveClosedLoopScope_eq] at hEach hKeys
  let loopEnds := other.actions.filter fun stmt => stmt.action = .loopEnd
  have hMem : ∀ stmt, stmt ∈ loopEnds ↔ stmt ∈ dsl.actions ∧ stmt.action = .loopEnd := by
    intro stmt
    rw [List.mem_filter, decide_eq_true_eq, hStmts.mem_iff]
  have hDistinct : (loopEnds.map ActionStatement.ref).Nodup :=
    (hStmts.refs_perm.nodup_iff.mp hNodup).sublist (List.filter_sublist.map _)
  -- the statements already recorded are the entries of the mapping
  let Inv (done : List ActionStatement) (state : Dict Scope Ref) : Prop :=
    ∀ scope ref, state.lookup scope = some ref ↔ ∃ stmt ∈ done, stmt.ref = ref ∧
      resolveClosedLoopScope right stmt = .ok scope
  have hFold : ∃ others, other.loopEndByScope right = .ok others ∧ Inv loopEnds others := by
    refine foldlM_ok Inv ?_ ?_
    · intro done stmt rest state hItems hDone
      have hSplit : loopEnds = done ++ stmt :: rest := hItems
      have hIn : stmt ∈ loopEnds := hSplit ▸ List.mem_append_right _ List.mem_cons_self
      obtain ⟨hStmt, hAction⟩ := (hMem stmt).mp hIn
      obtain ⟨scope, hScope, hEntry⟩ := hEach stmt hStmt hAction
      have hFree : state.lookup scope = none := by
        cases hOld : state.lookup scope with
        | none => rfl
        | some ref =>
            obtain ⟨first, hFirst, -, hFirstScope⟩ := (hDone scope ref).mp hOld
            obtain ⟨hFirstStmt, hFirstAction⟩ :=
              (hMem first).mp (hSplit ▸ List.mem_append_left _ hFirst)
            obtain ⟨otherScope, hResolves, hOther⟩ := hEach first hFirstStmt hFirstAction
            rw [hFirstScope] at hResolves
            cases hResolves
            rw [hEntry] at hOther
            have hRefs := hDistinct
            rw [hSplit, List.map_append, List.map_cons, List.nodup_append] at hRefs
            refine absurd ?_ (hRefs.2.2 first.ref (List.mem_map_of_mem hFirst) stmt.ref
              List.mem_cons_self)
            exact (Option.some.inj hOther).symm
      refine ⟨state.insert scope stmt.ref, ?_, fun key ref => ?_⟩
      · simp only [hScope, bind, Except.bind, hFree]
        rfl
      · rw [Dict.lookup_insert_eq]
        constructor
        · intro hLookup
          split at hLookup
          · rename_i hKey
            refine ⟨stmt, List.mem_append_right _ List.mem_cons_self, Option.some.inj hLookup, ?_⟩
            rw [hKey, hScope]
          · obtain ⟨first, hFirst, hFacts⟩ := (hDone key ref).mp hLookup
            exact ⟨first, List.mem_append_left _ hFirst, hFacts⟩
        · rintro ⟨first, hFirst, hRef, hResolves⟩
          rcases List.mem_append.mp hFirst with hOld | hLast
          · have hLookup := (hDone key ref).mpr ⟨first, hOld, hRef, hResolves⟩
            rw [if_neg, hLookup]
            rintro rfl
            rw [hFree] at hLookup
            cases hLookup
          · rw [List.mem_singleton.mp hLast, hScope] at hResolves
            rw [List.mem_singleton.mp hLast] at hRef
            cases hResolves
            rw [if_pos rfl, hRef]
    · intro scope ref
      simp
  obtain ⟨others, hOthers, hInv⟩ := hFold
  refine ⟨others, hOthers, fun scope => Option.ext fun ref => ?_⟩
  rw [hInv]
  constructor
  · intro hLookup
    obtain ⟨stmt, hStmt, hAction, hResolves⟩ := hKeys scope ref hLookup
    obtain ⟨otherScope, hOther, hEntry⟩ := hEach stmt hStmt hAction
    rw [hResolves] at hOther
    cases hOther
    rw [hLookup] at hEntry
    exact ⟨stmt, (hMem stmt).mpr ⟨hStmt, hAction⟩, (Option.some.inj hEntry).symm, hResolves⟩
  · rintro ⟨stmt, hStmt, rfl, hResolves⟩
    obtain ⟨hIn, hAction⟩ := (hMem stmt).mp hStmt
    obtain ⟨otherScope, hOther, hEntry⟩ := hEach stmt hIn hAction
    rw [hResolves] at hOther
    cases hOther
    exact hEntry

theorem canReachLoopEnd_iff (hNodup : (dsl.actions.map ActionStatement.ref).Nodup)
    (loopEnd ref : Ref) :
    (dsl.canReachLoopEnd loopEnd).contains ref = (other.canReachLoopEnd loopEnd).contains ref := by
  have hAdj : dsl.reverseSuccessAdj = other.reverseSuccessAdj := by
    funext src
    unfold reverseSuccessAdj
    rw [hStmts.stmt?_eq hNodup]
  rw [Bool.eq_iff_iff, List.contains_iff_mem, List.contains_iff_mem, mem_canReachLoopEnd hNodup,
    mem_canReachLoopEnd (hStmts.refs_perm.nodup_iff.mp hNodup), hAdj]

theorem validateLoopScopeSynchronization_ok (hSame : ActionScopes.SameMaps left right)
    (hNodup : (dsl.actions.map ActionStatement.ref).Nodup)
    (hPass : dsl.validateLoopScopeSynchronization left = .ok ()) :
    other.validateLoopScopeSynchronization right = .ok () := by
  have hScopes : ((left.openers.entries.filter fun entry => entry.2 = .loopStart).map
      Sigma.fst).Perm
      ((right.openers.entries.filter fun entry => entry.2 = .loopStart).map Sigma.fst) :=
    ((Dict.entries_perm hSame.openers).filter _).map _
  unfold validateLoopScopeSynchronization at hPass ⊢
  dsimp only at hPass ⊢
  split at hPass
  · rename_i hEmpty
    rw [List.isEmpty_iff] at hEmpty
    rw [hEmpty] at hScopes
    rw [if_pos (List.isEmpty_iff.mpr hScopes.nil_eq.symm)]
  · rename_i hSome
    have hNonempty : ¬ ((right.openers.entries.filter fun entry => entry.2 = .loopStart).map
        Sigma.fst).isEmpty := by
      rw [List.isEmpty_iff] at hSome ⊢
      intro hNone
      rw [hNone] at hScopes
      exact hSome hScopes.eq_nil
    rw [if_neg hNonempty]
    obtain ⟨ends, hEnds, hRest⟩ := bind_eq_ok.mp hPass
    obtain ⟨others, hOthers, hLookup⟩ := hStmts.loopEndByScope_ok hSame hNodup hEnds
    simp only [then_eq_ok, forM_eq_ok] at hRest
    refine bind_eq_ok.mpr ⟨others, hOthers, ?_⟩
    simp only [then_eq_ok, forM_eq_ok]
    constructor
    · intro scope hScope
      rw [← hLookup]
      exact hRest.1 scope (hScopes.mem_iff.mpr hScope)
    · intro entry hEntry
      have hCheck := hRest.2 entry ((Dict.entries_perm hLookup).mem_iff.mpr hEntry)
      split at hCheck
      · rename_i hNone
        rw [List.isEmpty_iff, List.map_eq_nil_iff, List.filter_eq_nil_iff] at hNone
        rw [if_pos]
        rw [List.isEmpty_iff, List.map_eq_nil_iff, List.filter_eq_nil_iff]
        intro item hItem
        have hFails := hNone item ((Dict.entries_perm hSame.scopes).mem_iff.mpr hItem)
        rwa [hSame.isDescendant_eq, hStmts.canReachLoopEnd_iff hNodup] at hFails
      · cases hCheck

/-- The checks before the scope passes do not read the order of the statements. -/
theorem accepted_of_scopes (hAccepted : dsl.Accepted)
    (hScopes : other.validateScatterGatherScopes = .ok ()) : other.Accepted := by
  have hKnown := hAccepted.validated.deps_known
  unfold Accepted validateStructure allActionExpressionsValid at hAccepted ⊢
  simp only [throw_if_eq_ok, then_eq_ok, forM_eq_ok] at hAccepted ⊢
  obtain ⟨hSome, hUnique, hEntry, hParse, -, hExprs, -⟩ := hAccepted
  have hRefs := hStmts.refs_perm
  refine ⟨?_, ?_, ?_, ?_, ?_, ?_, hScopes⟩
  · rw [List.isEmpty_iff] at hSome ⊢
    intro hNone
    exact hSome (List.perm_nil.mp (hNone ▸ (hStmts : List.Perm _ _)))
  · rw [← hRefs.dedup.length_eq, ← hRefs.length_eq]
    exact hUnique
  · rw [← hStmts.length_filter_eq]
    exact hEntry
  · exact fun stmt hStmt => hParse stmt (hStmts.mem_iff.mpr hStmt)
  · rw [Bool.not_eq_true', Bool.not_eq_false, List.isEmpty_iff, List.filter_eq_nil_iff]
    intro ref hRef
    obtain ⟨stmt, hStmt, hSource⟩ := List.mem_flatMap.mp hRef
    obtain ⟨dep, hDep, rfl⟩ := List.mem_map.mp hSource
    simpa using (hRefs.mem_iff.mp (hKnown stmt (hStmts.mem_iff.mpr hStmt) dep hDep))
  · intro stmt hStmt field hField dep hDep
    have hCheck := hExprs stmt (hStmts.mem_iff.mpr hStmt) field hField dep hDep
    rwa [if_congr hRefs.mem_iff rfl rfl] at hCheck

end DSLInput.SameStatements
end Tracecat
