import Mathlib.Algebra.Order.BigOperators.Group.List
import Mathlib.Data.List.Perm.Basic
import Mathlib.Data.Option.Basic
import Tracecat.Lib.Search
import Tracecat.Dsl.Accepted

/-!
# Dependencies up to order and spelling

`depends_on` is a list of strings, and `ref` and `ref.success` spell the same
edge.  Validation reads the edges only: a definition in which each dependency
list is permuted and respelled is accepted when the original is.
-/

namespace Tracecat

/-- The same statement, with the same edges in another order or spelling. -/
structure ActionStatement.SameEdges (stmt other : ActionStatement) : Prop where
  edges : (stmt.dependsOn.map edgeComponentsFromDep).Perm
    (other.dependsOn.map edgeComponentsFromDep)
  rest : { stmt with dependsOn := [] } = { other with dependsOn := [] }

namespace ActionStatement.SameEdges

variable {stmt other : ActionStatement}

variable (hSame : stmt.SameEdges other)
include hSame

theorem symm : other.SameEdges stmt :=
  ⟨hSame.edges.symm, hSame.rest.symm⟩

theorem read_eq {β : Type} (read : ActionStatement → β)
    (hRead : ∀ stmt : ActionStatement, read { stmt with dependsOn := [] } = read stmt) :
    read stmt = read other := by
  rw [← hRead stmt, ← hRead other, hSame.rest]

theorem ref_eq : stmt.ref = other.ref :=
  hSame.read_eq ActionStatement.ref fun _ => rfl

theorem action_eq : stmt.action = other.action :=
  hSame.read_eq ActionStatement.action fun _ => rfl

theorem exprFields_eq : stmt.exprFields = other.exprFields :=
  hSame.read_eq ActionStatement.exprFields fun _ => rfl

theorem length_eq :
    stmt.dependsOn.length = other.dependsOn.length := by
  simpa using hSame.edges.length_eq

theorem isEmpty_eq :
    stmt.dependsOn.isEmpty = other.dependsOn.isEmpty := by
  rw [Bool.eq_iff_iff, List.isEmpty_iff_length_eq_zero, List.isEmpty_iff_length_eq_zero,
    hSame.length_eq]

theorem deps_perm : stmt.deps.Perm other.deps := by
  have hDeps (stmt : ActionStatement) :
      stmt.deps = (stmt.dependsOn.map edgeComponentsFromDep).filterMap id := by
    rw [List.filterMap_map]
    rfl
  rw [hDeps stmt, hDeps other]
  exact hSame.edges.filterMap id

theorem exists_dep {dep : String} (hDep : dep ∈ other.dependsOn) :
    ∃ dep' ∈ stmt.dependsOn, edgeComponentsFromDep dep' = edgeComponentsFromDep dep :=
  List.mem_map.mp (hSame.edges.mem_iff.mpr (List.mem_map_of_mem hDep))

/-- A check of the dependencies whose verdict depends on the edge passes on both
or on neither. -/
theorem forall_dependsOn_iff {Check Check' : String → Prop}
    (hCheck : ∀ dep dep', edgeComponentsFromDep dep = edgeComponentsFromDep dep' →
      (Check dep ↔ Check' dep')) :
    (∀ dep ∈ stmt.dependsOn, Check dep) ↔ ∀ dep ∈ other.dependsOn, Check' dep := by
  constructor
  · intro hAll dep hDep
    obtain ⟨dep', hDep', hEdge⟩ := hSame.exists_dep hDep
    exact (hCheck dep' dep hEdge).mp (hAll dep' hDep')
  · intro hAll dep hDep
    obtain ⟨dep', hDep', hEdge⟩ := hSame.symm.exists_dep hDep
    exact (hCheck dep dep' hEdge.symm).mpr (hAll dep' hDep')

end ActionStatement.SameEdges

namespace DSLInput

open Checks

/-! ## The search for the loop end -/

section Search

variable {dsl : DSLInput}

theorem canReach_eq_explore (fuel : Nat) (stack found : List Ref) :
    dsl.canReach fuel stack found = Search.explore dsl.reverseSuccessAdj fuel stack found := by
  induction fuel generalizing stack found with
  | zero => rfl
  | succ fuel ih =>
      cases stack with
      | nil => rfl
      | cons current stack =>
          unfold canReach Search.explore
          rw [ih, ih]

/-- `can_reach_loop_end` holds the refs that reach the loop end along success
edges: the turns that the search is given suffice. -/
theorem mem_canReachLoopEnd (hNodup : (dsl.actions.map ActionStatement.ref).Nodup)
    {loopEnd ref : Ref} :
    ref ∈ dsl.canReachLoopEnd loopEnd ↔
      Search.Reaches dsl.reverseSuccessAdj [loopEnd] ref := by
  unfold canReachLoopEnd
  rw [canReach_eq_explore]
  apply Search.mem_explore hNodup
  · intro other hOther
    have hNone : dsl.stmt? other = none := by
      refine List.find?_eq_none.mpr fun stmt hStmt hRef => hOther ?_
      exact List.mem_map.mpr ⟨stmt, hStmt, of_decide_eq_true hRef⟩
    unfold reverseSuccessAdj
    rw [hNone]
  · -- the search meets each edge of a statement at most once
    have hEdges (stmt : ActionStatement) (hStmt : stmt ∈ dsl.actions) :
        (dsl.reverseSuccessAdj stmt.ref).length ≤ stmt.deps.length := by
      unfold reverseSuccessAdj
      rw [stmt?_eq_some_of_mem hNodup hStmt]
      calc ((stmt.deps.filter fun dep => dep.2 = .success).map Prod.fst).dedup.length
          ≤ ((stmt.deps.filter fun dep => dep.2 = .success).map Prod.fst).length :=
            (List.dedup_sublist _).length_le
        _ ≤ stmt.deps.length := by
            rw [List.length_map]
            exact List.length_filter_le _ _
    have hSum := List.sum_le_sum hEdges
    have hLeft : Search.edgesLeft dsl.reverseSuccessAdj (dsl.actions.map ActionStatement.ref) [] =
        (dsl.actions.map fun stmt => (dsl.reverseSuccessAdj stmt.ref).length).sum := by
      simp [Search.edgesLeft, List.map_map, Function.comp_def]
    rw [hLeft, List.length_singleton]
    omega
  · exact .start

end Search

/-! ## Each pass reads the edges only -/

/-- The same statements in the same order, with the same edges each. -/
def SameEdges (dsl other : DSLInput) : Prop :=
  List.Forall₂ ActionStatement.SameEdges dsl.actions other.actions

namespace SameEdges

variable {dsl other : DSLInput}

variable (hSame : dsl.SameEdges other)
include hSame

theorem symm : other.SameEdges dsl :=
  List.Forall₂.flip (List.Forall₂.imp (fun _ _ hStmt => hStmt.symm) hSame)

/-- What does not depend on the edges is the same, statement by statement. -/
theorem map_eq {β : Type} (read : ActionStatement → β)
    (hRead : ∀ stmt stmt' : ActionStatement, stmt.SameEdges stmt' → read stmt = read stmt') :
    dsl.actions.map read = other.actions.map read := by
  obtain ⟨actions⟩ := dsl
  obtain ⟨others⟩ := other
  unfold SameEdges at hSame
  dsimp only at hSame ⊢
  induction hSame with
  | nil => rfl
  | cons hStmt _ ih => rw [List.map_cons, List.map_cons, hRead _ _ hStmt, ih]

theorem refs_eq :
    dsl.actions.map ActionStatement.ref = other.actions.map ActionStatement.ref :=
  hSame.map_eq _ fun _ _ hStmt => hStmt.ref_eq

theorem forall_iff (Check : ActionStatement → Prop)
    (hCheck : ∀ stmt stmt', stmt.SameEdges stmt' → (Check stmt ↔ Check stmt')) :
    (∀ stmt ∈ dsl.actions, Check stmt) ↔ ∀ stmt ∈ other.actions, Check stmt := by
  obtain ⟨actions⟩ := dsl
  obtain ⟨others⟩ := other
  unfold SameEdges at hSame
  dsimp only at hSame ⊢
  induction hSame with
  | nil => simp
  | cons hStmt _ ih =>
      simp only [List.forall_mem_cons]
      rw [hCheck _ _ hStmt, ih]

theorem length_filter_eq {select : ActionStatement → Bool}
    (hSelect : ∀ stmt stmt', stmt.SameEdges stmt' → select stmt = select stmt') :
    (dsl.actions.filter select).length = (other.actions.filter select).length := by
  rw [← List.countP_eq_length_filter, ← List.countP_eq_length_filter]
  have hCount (actions : List ActionStatement) :
      actions.countP select = (actions.map select).countP id := by
    rw [List.countP_map]
    rfl
  rw [hCount, hCount, hSame.map_eq select hSelect]

theorem stmt? (ref : Ref) :
    Option.Rel ActionStatement.SameEdges (dsl.stmt? ref) (other.stmt? ref) := by
  obtain ⟨actions⟩ := dsl
  obtain ⟨others⟩ := other
  unfold SameEdges at hSame
  unfold DSLInput.stmt?
  dsimp only at hSame ⊢
  induction hSame with
  | nil => exact .none
  | @cons stmt stmt' _ _ hStmt _ ih =>
      rw [List.find?_cons, List.find?_cons, hStmt.ref_eq]
      by_cases hRef : stmt'.ref = ref
      · simp only [hRef, decide_true]
        exact .some hStmt
      · simpa only [hRef, decide_false] using ih

theorem toAdjacency_eq : dsl.toAdjacency = other.toAdjacency := by
  funext src
  unfold toAdjacency
  rw [List.flatMap_def, List.flatMap_def]
  refine congrArg List.flatten (hSame.map_eq _ fun stmt stmt' hStmt => ?_)
  rw [List.map_const', List.map_const', hStmt.ref_eq]
  exact congrArg (List.replicate · _) (hStmt.deps_perm.filter _).length_eq

theorem run_eq (fuel : Nat) (state : TopoState) :
    TopoState.run dsl fuel state = TopoState.run other fuel state := by
  induction fuel generalizing state with
  | zero => rfl
  | succ fuel ih =>
      unfold TopoState.run
      cases state.queue with
      | nil => rfl
      | cons head rest =>
          obtain ⟨ref, current⟩ := head
          have hFound := hSame.stmt? ref
          dsimp only
          cases hLeft : dsl.stmt? ref with
          | none =>
              rw [hLeft] at hFound
              cases hRight : other.stmt? ref with
              | none => rfl
              | some stmt' => rw [hRight] at hFound; cases hFound
          | some stmt =>
              rw [hLeft] at hFound
              cases hRight : other.stmt? ref with
              | none => rw [hRight] at hFound; cases hFound
              | some stmt' =>
                  rw [hRight] at hFound
                  obtain ⟨hStmt⟩ := hFound
                  have hVisit : state.assigned.visit stmt current =
                      state.assigned.visit stmt' current := by
                    unfold ActionScopes.visit
                    rw [hStmt.ref_eq, hStmt.action_eq]
                  simp only [hVisit, hSame.toAdjacency_eq, ih]

theorem assignActionScopes_eq :
    dsl.assignActionScopes = other.assignActionScopes := by
  have hLength : dsl.actions.length = other.actions.length := List.Forall₂.length_eq hSame
  have hIndegrees : (dsl.actions.foldl (fun indegrees action =>
        indegrees.insert action.ref (action.dependsOn.length : Int)) ∅ : Dict Ref Int) =
      other.actions.foldl (fun indegrees action =>
        indegrees.insert action.ref (action.dependsOn.length : Int)) ∅ := by
    have hPairs := hSame.map_eq (fun stmt => (stmt.ref, stmt.dependsOn.length))
      fun stmt stmt' hStmt => by rw [hStmt.ref_eq, hStmt.length_eq]
    have hFold (actions : List ActionStatement) :
        (actions.foldl (fun indegrees action =>
          indegrees.insert action.ref (action.dependsOn.length : Int)) ∅ : Dict Ref Int) =
        (actions.map fun stmt => (stmt.ref, stmt.dependsOn.length)).foldl
          (fun indegrees entry => indegrees.insert entry.1 (entry.2 : Int)) ∅ := by
      rw [List.foldl_map]
    rw [hFold, hFold, hPairs]
  have hEntries : ((dsl.actions.filter fun action => action.dependsOn.length = 0).map
        fun action => (action.ref, Scope.root)) =
      (other.actions.filter fun action => action.dependsOn.length = 0).map
        fun action => (action.ref, Scope.root) := by
    have hFilter (actions : List ActionStatement) :
        ((actions.filter fun action => action.dependsOn.length = 0).map
          fun action => (action.ref, Scope.root)) =
        (actions.map fun action =>
          if action.dependsOn.length = 0 then some (action.ref, Scope.root) else none).filterMap
            id := by
      rw [List.filterMap_map]
      induction actions with
      | nil => rfl
      | cons stmt actions ih => by_cases hEntry : stmt.dependsOn.length = 0 <;> simp_all
    rw [hFilter, hFilter]
    refine congrArg (List.filterMap id) (hSame.map_eq _ fun stmt stmt' hStmt => ?_)
    rw [hStmt.ref_eq, hStmt.length_eq]
  unfold assignActionScopes TopoState.start
  rw [hLength, hIndegrees, hEntries, hSame.run_eq]

end SameEdges

/-! ### The scope rules -/

section ScopeRules

variable {stmt other : ActionStatement} (assigned : ActionScopes)

theorem resolveClosedLoopScope_eq (hSame : stmt.SameEdges other) :
    resolveClosedLoopScope assigned stmt = resolveClosedLoopScope assigned other := by
  have hPerm : (depScopes assigned stmt).Perm (depScopes assigned other) :=
    (hSame.deps_perm.map _).dedup
  unfold resolveClosedLoopScope
  rw [hSame.ref_eq]
  match hLeft : depScopes assigned stmt, hRight : depScopes assigned other with
  | [], [] => rfl
  | [first], [second] =>
      rw [hLeft, hRight] at hPerm
      rw [List.singleton_perm_singleton.mp hPerm]
  | _ :: _ :: _, _ :: _ :: _ => rfl
  | [], _ :: _ => simpa [hLeft, hRight] using hPerm.length_eq
  | _ :: _, [] => simpa [hLeft, hRight] using hPerm.length_eq
  | [_], _ :: _ :: _ => simpa [hLeft, hRight] using hPerm.length_eq
  | _ :: _ :: _, [_] => simpa [hLeft, hRight] using hPerm.length_eq

/-- The errors name the dependency, the verdict depends on its edge. -/
theorem checkEdge_ok_iff (hSame : stmt.SameEdges other) {dep dep' : String}
    (hEdge : edgeComponentsFromDep dep = edgeComponentsFromDep dep') :
    checkEdge assigned stmt dep = .ok () ↔ checkEdge assigned other dep' = .ok () := by
  unfold checkEdge
  rw [resolveClosedLoopScope_eq assigned hSame, hSame.ref_eq, hSame.action_eq, hEdge]
  dsimp only
  by_cases hOpener : other.action.isOpener
  · rw [if_pos hOpener, if_pos hOpener, throw_if_eq_ok, throw_if_eq_ok]
  · rw [if_neg hOpener, if_neg hOpener]
    by_cases hLoopEnd : other.action = .loopEnd
    · simp only [if_pos hLoopEnd, bind_eq_ok, throw_if_eq_ok]
    · rw [if_neg hLoopEnd, if_neg hLoopEnd]
      by_cases hCloser : other.action.isCloser
      · rw [if_pos hCloser, if_pos hCloser]
        split
        · split <;> simp
        · rfl
      · rw [if_neg hCloser, if_neg hCloser, throw_if_eq_ok, throw_if_eq_ok]

theorem checkExpr_eq (hSame : stmt.SameEdges other) (key : String) (dep : Ref) :
    checkExpr assigned stmt key dep = checkExpr assigned other key dep := by
  unfold checkExpr checkCloserExpr
  have hCondition : conditionRefs stmt = conditionRefs other :=
    hSame.read_eq conditionRefs fun _ => rfl
  rw [resolveClosedLoopScope_eq assigned hSame, hSame.ref_eq, hSame.action_eq, hCondition]

end ScopeRules

namespace SameEdges

variable {dsl other : DSLInput} {assigned : ActionScopes}

variable (hSame : dsl.SameEdges other)
include hSame

theorem validateScopeDependencies_ok_iff :
    dsl.validateScopeDependencies assigned = .ok () ↔
      other.validateScopeDependencies assigned = .ok () := by
  unfold validateScopeDependencies
  simp only [then_eq_ok, forM_eq_ok]
  have hLoopEnds := hSame.forall_iff (fun stmt =>
      (if stmt.action = .loopEnd then do
        let _ ← resolveClosedLoopScope assigned stmt
        .ok ()
      else .ok () : Except DSLError Unit) = .ok ()) fun stmt stmt' hStmt => by
    rw [resolveClosedLoopScope_eq assigned hStmt, hStmt.action_eq]
  have hRules := hSame.forall_iff (fun stmt =>
      (∀ dep ∈ stmt.dependsOn, checkEdge assigned stmt dep = .ok ()) ∧
        ∀ field ∈ stmt.exprFields, ∀ dep ∈ field.2, checkExpr assigned stmt field.1 dep = .ok ())
    fun stmt stmt' hStmt => by
      have hEdges := hStmt.forall_dependsOn_iff fun dep dep' hEdge =>
        checkEdge_ok_iff assigned hStmt hEdge
      rw [hEdges, hStmt.exprFields_eq]
      simp only [checkExpr_eq assigned hStmt]
  rw [hLoopEnds, hRules]

theorem filter_loopEnd :
    SameEdges ⟨dsl.actions.filter fun stmt => stmt.action = .loopEnd⟩
      ⟨other.actions.filter fun stmt => stmt.action = .loopEnd⟩ := by
  obtain ⟨actions⟩ := dsl
  obtain ⟨others⟩ := other
  unfold SameEdges at hSame ⊢
  dsimp only at hSame ⊢
  induction hSame with
  | nil => exact .nil
  | @cons stmt stmt' _ _ hStmt _ ih =>
      by_cases hLoopEnd : stmt'.action = .loopEnd
      · rw [List.filter_cons_of_pos (by simp [hStmt.action_eq, hLoopEnd]),
          List.filter_cons_of_pos (by simp [hLoopEnd])]
        exact .cons hStmt ih
      · rw [List.filter_cons_of_neg (by simp [hStmt.action_eq, hLoopEnd]),
          List.filter_cons_of_neg (by simp [hLoopEnd])]
        exact ih

theorem loopEndByScope_eq :
    dsl.loopEndByScope assigned = other.loopEndByScope assigned := by
  have hFilter := hSame.filter_loopEnd
  unfold SameEdges at hFilter
  dsimp only at hFilter
  unfold loopEndByScope
  generalize (dsl.actions.filter fun stmt => stmt.action = .loopEnd) = stmts at hFilter ⊢
  generalize (other.actions.filter fun stmt => stmt.action = .loopEnd) = stmts' at hFilter ⊢
  generalize (∅ : Dict Scope Ref) = ends
  induction hFilter generalizing ends with
  | nil => rfl
  | cons hStmt _ ih =>
      rw [List.foldlM_cons, List.foldlM_cons, resolveClosedLoopScope_eq assigned hStmt,
        hStmt.ref_eq]
      congr 1
      funext next
      exact ih next

theorem reverseSuccessAdj_subset (ref : Ref) :
    ∀ source ∈ dsl.reverseSuccessAdj ref, source ∈ other.reverseSuccessAdj ref := by
  have hFound := hSame.stmt? ref
  unfold reverseSuccessAdj
  intro source hSource
  cases hLeft : dsl.stmt? ref with
  | none =>
      rw [hLeft] at hSource
      cases hSource
  | some stmt =>
      rw [hLeft] at hFound hSource
      cases hRight : other.stmt? ref with
      | none =>
          rw [hRight] at hFound
          cases hFound
      | some stmt' =>
          rw [hRight] at hFound
          obtain ⟨hStmt⟩ := hFound
          exact ((hStmt.deps_perm.filter _).map _).dedup.mem_iff.mp hSource

theorem mem_canReachLoopEnd_iff (hNodup : (dsl.actions.map ActionStatement.ref).Nodup)
    {loopEnd ref : Ref} :
    ref ∈ dsl.canReachLoopEnd loopEnd ↔ ref ∈ other.canReachLoopEnd loopEnd := by
  rw [mem_canReachLoopEnd hNodup, mem_canReachLoopEnd (hSame.refs_eq ▸ hNodup)]
  constructor
  · exact fun hReaches => hReaches.congr hSame.reverseSuccessAdj_subset
  · exact fun hReaches => hReaches.congr hSame.symm.reverseSuccessAdj_subset

theorem validateLoopScopeSynchronization_eq (hNodup : (dsl.actions.map ActionStatement.ref).Nodup) :
    dsl.validateLoopScopeSynchronization assigned =
      other.validateLoopScopeSynchronization assigned := by
  have hContains (loopEnd ref : Ref) : (dsl.canReachLoopEnd loopEnd).contains ref =
      (other.canReachLoopEnd loopEnd).contains ref := by
    rw [Bool.eq_iff_iff, List.contains_iff_mem, List.contains_iff_mem]
    exact hSame.mem_canReachLoopEnd_iff hNodup
  unfold validateLoopScopeSynchronization
  simp only [hContains, hSame.loopEndByScope_eq]

theorem validateScatterGatherScopes_ok (hNodup : (dsl.actions.map ActionStatement.ref).Nodup)
    (hScopes : dsl.validateScatterGatherScopes = .ok ()) :
    other.validateScatterGatherScopes = .ok () := by
  have hCount (action : ActionType) :
      (dsl.actions.filter fun stmt => stmt.action = action).length =
        (other.actions.filter fun stmt => stmt.action = action).length :=
    hSame.length_filter_eq fun stmt stmt' hStmt => by rw [hStmt.action_eq]
  unfold validateScatterGatherScopes at hScopes ⊢
  simp only [hCount, hSame.assignActionScopes_eq, throw_if_eq_ok] at hScopes ⊢
  refine ⟨hScopes.1, hScopes.2.1, ?_⟩
  have hRest := hScopes.2.2
  split at hRest
  · rename_i hPlain
    rw [if_pos hPlain]
  · rename_i hOpener
    rw [if_neg hOpener]
    obtain ⟨assigned, hAssigned, hPasses⟩ := bind_eq_ok.mp hRest
    obtain ⟨hDependencies, hLoops⟩ := then_eq_ok.mp hPasses
    refine bind_eq_ok.mpr ⟨assigned, hAssigned, then_eq_ok.mpr ⟨?_, ?_⟩⟩
    · exact hSame.validateScopeDependencies_ok_iff.mp hDependencies
    · rw [← hSame.validateLoopScopeSynchronization_eq hNodup]
      exact hLoops

theorem accepted (hAccepted : dsl.Accepted) : other.Accepted := by
  have hNodup := hAccepted.validated.refs_nodup
  have hScopes := hSame.validateScatterGatherScopes_ok hNodup hAccepted.validated.scopes
  have hKnown := hAccepted.validated.deps_known
  unfold Accepted validateStructure allActionExpressionsValid at hAccepted ⊢
  have hEmpty : dsl.actions.isEmpty = other.actions.isEmpty := by
    rw [Bool.eq_iff_iff, List.isEmpty_iff_length_eq_zero, List.isEmpty_iff_length_eq_zero,
      List.Forall₂.length_eq hSame]
  have hEntries : (dsl.actions.filter fun stmt => stmt.dependsOn.isEmpty).length =
      (other.actions.filter fun stmt => stmt.dependsOn.isEmpty).length :=
    hSame.length_filter_eq fun stmt stmt' hStmt => hStmt.isEmpty_eq
  simp only [throw_if_eq_ok, then_eq_ok, forM_eq_ok] at hAccepted ⊢
  rw [← hSame.refs_eq, ← hEmpty, ← hEntries]
  obtain ⟨hSome, hUnique, hEntry, hParse, -, hExprs, -⟩ := hAccepted
  refine ⟨hSome, hUnique, hEntry, ?_, ?_, ?_, hScopes⟩
  · refine (hSame.forall_iff _ fun stmt stmt' hStmt => ?_).mp hParse
    apply hStmt.forall_dependsOn_iff
    intro dep dep' hEdge
    rw [hEdge]
  · have hSources := (hSame.forall_iff
      (fun stmt => ∀ dep ∈ stmt.deps, dep.1 ∈ dsl.actions.map ActionStatement.ref)
      fun stmt stmt' hStmt => by simp only [hStmt.deps_perm.mem_iff]).mp hKnown
    rw [Bool.not_eq_true', Bool.not_eq_false, List.isEmpty_iff, List.filter_eq_nil_iff]
    intro ref hRef
    obtain ⟨stmt', hStmt', hSource⟩ := List.mem_flatMap.mp hRef
    obtain ⟨dep, hDep, rfl⟩ := List.mem_map.mp hSource
    simpa using hSources stmt' hStmt' dep hDep
  · refine (hSame.forall_iff _ fun stmt stmt' hStmt => ?_).mp hExprs
    rw [hStmt.exprFields_eq, hStmt.ref_eq]

/-- Validation gives both definitions the same verdict. -/
theorem accepted_iff : dsl.Accepted ↔ other.Accepted :=
  ⟨hSame.accepted, hSame.symm.accepted⟩

end SameEdges
end DSLInput
end Tracecat
