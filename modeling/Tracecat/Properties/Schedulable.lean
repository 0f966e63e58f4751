import Tracecat.Dsl.LoopEnds
import Tracecat.Dsl.TopoProgress
import Tracecat.Scheduler.Regions

/-!
# Accepted definitions and the scheduler's constructor

`validate_structure` sorts the actions only when some action opens a scope.
The constructor sorts them always, so it accepts an accepted definition exactly
when an action opens a scope or the dependencies have no cycle.
-/

namespace Tracecat

open Checks

namespace DSLInput

variable {dsl : DSLInput} {assigned : ActionScopes}

theorem LoopsMatched.buildLoopRegions_ok (hMatched : dsl.LoopsMatched assigned)
    (hPlaced : dsl.Placed assigned) :
    ∃ regions, dsl.buildLoopRegions assigned = .ok regions ∧
      ∀ start ∈ dsl.actions, start.action = .loopStart →
        ∃ region, regions.lookup start.ref = some region := by
  have hNodup : dsl.actions.Nodup := List.Nodup.of_map _ hPlaced.validated.refs_nodup
  -- the regions so far are those of the loop ends so far
  let Inv (done : List ActionStatement) (regions : Dict Ref LoopRegion) : Prop :=
    ∀ key, (regions.lookup key).isSome ↔
      ∃ stmt ∈ done, stmt.action = .loopEnd ∧ depScopes assigned stmt = [.opened key]
  have hStart : Inv [] ∅ := by
    intro key
    constructor
    · intro hSome
      cases hSome
    · rintro ⟨stmt, hStmt, -⟩
      cases hStmt
  obtain ⟨regions, hBuild, hInv⟩ : ∃ regions, dsl.buildLoopRegions assigned = .ok regions ∧
      Inv dsl.actions regions := by
    refine foldlM_ok Inv ?_ hStart
    intro done stmt rest regions hItems hDone
    have hStmt : stmt ∈ dsl.actions := hItems ▸ List.mem_append_right _ List.mem_cons_self
    unfold addLoopRegion
    by_cases hAction : stmt.action = .loopEnd
    · obtain ⟨start, hStartMem, hStartAction, hScopes⟩ := hMatched.closes stmt hStmt hAction
      have hDeps : ¬ stmt.dependsOn.isEmpty := by
        intro hEmpty
        have hNone : stmt.deps = [] := by
          rw [ActionStatement.deps, List.isEmpty_iff.mp hEmpty]
          rfl
        rw [depScopes, hNone] at hScopes
        cases hScopes
      have hNew : ¬ (regions.lookup start.ref).isSome := by
        intro hSome
        obtain ⟨other, hOther, hOtherEnd, hOtherScopes⟩ := (hDone start.ref).mp hSome
        have hOtherMem : other ∈ dsl.actions := hItems ▸ List.mem_append_left _ hOther
        have hSame := hMatched.unique other hOtherMem stmt hStmt hOtherEnd hAction
          (hOtherScopes.trans hScopes.symm)
        rw [hItems, List.nodup_append] at hNodup
        exact hNodup.2.2 other hOther stmt List.mem_cons_self hSame
      rw [if_neg (not_not.mpr hAction), if_neg hDeps, hScopes]
      simp only [hPlaced.stmt?_eq hStartMem]
      rw [if_neg (not_not.mpr hStartAction), if_neg hNew]
      refine ⟨_, rfl, fun key => ?_⟩
      rw [Dict.lookup_insert_eq]
      constructor
      · intro hSome
        by_cases hKey : key = start.ref
        · subst hKey
          exact ⟨stmt, List.mem_append_right _ List.mem_cons_self, hAction, hScopes⟩
        · rw [if_neg hKey] at hSome
          obtain ⟨other, hOther, hFacts⟩ := (hDone key).mp hSome
          exact ⟨other, List.mem_append_left _ hOther, hFacts⟩
      · rintro ⟨other, hOther, hOtherEnd, hOtherScopes⟩
        by_cases hKey : key = start.ref
        · rw [if_pos hKey]
          rfl
        · rw [if_neg hKey]
          refine (hDone key).mpr ⟨other, ?_, hOtherEnd, hOtherScopes⟩
          refine (List.mem_append.mp hOther).resolve_right fun hLast => ?_
          rw [List.mem_singleton.mp hLast, hScopes] at hOtherScopes
          simp only [List.cons.injEq, Scope.opened.injEq, and_true] at hOtherScopes
          exact hKey hOtherScopes.symm
    · rw [if_pos hAction]
      refine ⟨regions, rfl, fun key => (hDone key).trans ?_⟩
      constructor
      · rintro ⟨other, hOther, hFacts⟩
        exact ⟨other, List.mem_append_left _ hOther, hFacts⟩
      · rintro ⟨other, hOther, hOtherEnd, hFacts⟩
        refine ⟨other, (List.mem_append.mp hOther).resolve_right fun hLast => ?_, hOtherEnd,
          hFacts⟩
        rw [List.mem_singleton.mp hLast] at hOtherEnd
        exact hAction hOtherEnd
  refine ⟨regions, hBuild, fun start hStartMem hAction => ?_⟩
  obtain ⟨stmt, hStmt, hStmtEnd, hScopes⟩ := hMatched.closed start hStartMem hAction
  exact Option.isSome_iff_exists.mp ((hInv start.ref).mpr ⟨stmt, hStmt, hStmtEnd, hScopes⟩)

/-- The scheduler can be constructed on the definition. -/
structure Schedulable (dsl : DSLInput) (maxPendingTasks : Nat)
    (validateStored : Json → Option (StoredObject Json)) : Prop where
  acyclic : Acyclic dsl.DependsOn
  resolves : ∀ stmt ∈ dsl.actions, ∀ dep ∈ stmt.dependsOn, ∃ edge source,
    edgeComponentsFromDep dep = some edge ∧ dsl.stmt? edge.1 = some source
  /-- the constructor raises no error, and the region of every loop start joins
  it to the only loop end that closes its scope -/
  constructs : ∃ scheduler,
    DSLScheduler.new dsl maxPendingTasks validateStored = .ok scheduler ∧
    ∀ start ∈ dsl.actions, start.action = .loopStart → ∃ region endStmt,
      scheduler.loopRegions.lookup start.ref = some region ∧
      region.Joins dsl scheduler.assigned start endStmt ∧
      ∀ other ∈ dsl.actions, other.action = .loopEnd →
        depScopes scheduler.assigned other = [.opened start.ref] → other = endStmt

/-- A validated definition whose scopes can be assigned can be scheduled. -/
theorem Placed.schedulable (hPlaced : dsl.Placed assigned) {maxPendingTasks : Nat}
    (hPending : 1 ≤ maxPendingTasks) (validateStored : Json → Option (StoredObject Json)) :
    dsl.Schedulable maxPendingTasks validateStored := by
  have hMatched := hPlaced.loopsMatched
  obtain ⟨regions, hBuild, hRegions⟩ := hMatched.buildLoopRegions_ok hPlaced
  refine ⟨hPlaced.acyclic, fun stmt hStmt dep hDep => ?_, ?_⟩
  · obtain ⟨edge, hEdge⟩ :=
      Option.ne_none_iff_exists'.mp (hPlaced.validated.deps_parse stmt hStmt dep hDep)
    have hMem : edge ∈ stmt.deps := List.mem_filterMap.mpr ⟨dep, hDep, hEdge⟩
    obtain ⟨source, hSource⟩ := hPlaced.validated.stmt?_dep hStmt hMem
    exact ⟨edge, source, hEdge, hSource⟩
  · have hParses : dsl.actions.find? (fun stmt =>
        stmt.dependsOn.any fun dep => edgeComponentsFromDep dep = none) = none := by
      refine List.find?_eq_none.mpr fun stmt hStmt hAny => ?_
      obtain ⟨dep, hDep, hNone⟩ := List.any_eq_true.mp hAny
      exact hPlaced.validated.deps_parse stmt hStmt dep hDep (of_decide_eq_true hNone)
    refine ⟨⟨dsl, maxPendingTasks, assigned, regions, validateStored⟩, ?_, ?_⟩
    · unfold DSLScheduler.new
      rw [if_neg (Nat.not_lt.mpr hPending)]
      simp only [hParses, hPlaced.assigned_eq]
      exact bind_eq_ok.mpr ⟨regions, hBuild, rfl⟩
    · intro start hStart hAction
      obtain ⟨region, hRegion⟩ := hRegions start hStart hAction
      obtain ⟨hKey, startStmt, endStmt, hJoins⟩ := buildLoopRegions_joins hBuild hRegion
      have hSame : startStmt = start :=
        List.inj_on_of_nodup_map hPlaced.validated.refs_nodup hJoins.start_mem hStart
          (hJoins.start_ref.trans hKey.symm)
      subst hSame
      refine ⟨region, endStmt, hRegion, hJoins, fun other hOther hOtherEnd hScopes => ?_⟩
      refine hMatched.unique other hOther endStmt hJoins.end_mem hOtherEnd hJoins.end_action ?_
      rw [hScopes, hJoins.closed, hKey]

end DSLInput

/-- An accepted definition can be scheduled exactly when some action opens a
scope or the dependencies have no cycle. -/
theorem accepted_schedulable_iff {dsl : DSLInput} {maxPendingTasks : Nat}
    {validateStored : Json → Option (StoredObject Json)} (hAccepted : dsl.Accepted)
    (hPending : 1 ≤ maxPendingTasks) :
    dsl.Schedulable maxPendingTasks validateStored ↔
      dsl.HasOpener ∨ Acyclic dsl.DependsOn := by
  have hValid := hAccepted.validated
  constructor
  · exact fun hSchedulable => Or.inr hSchedulable.acyclic
  · intro hCondition
    obtain ⟨assigned, hAssigned⟩ : ∃ assigned, dsl.assignActionScopes = .ok assigned := by
      by_cases hOpener : dsl.HasOpener
      · exact hValid.assignActionScopes_of_opener hOpener
      · exact DSLInput.assignActionScopes_plain hValid
          (fun _ hStmt => hValid.plain_of_no_opener hOpener hStmt) (hCondition.resolve_left hOpener)
    exact DSLInput.Placed.schedulable ⟨hValid, hAssigned⟩ hPending validateStored

/-- A loop around one action. -/
def oneLoop : DSLInput where
  actions :=
    [{ ref := "start", action := .loopStart },
      { ref := "body", action := .udf "core.noop", dependsOn := ["start"] },
      { ref := "end", action := .loopEnd, args := .loopEnd { condition := {} },
        dependsOn := ["body"] }]

theorem oneLoop_schedulable : oneLoop.Schedulable 16 fun _ => none := by
  have hAccepted : oneLoop.Accepted := by decide +kernel
  refine (accepted_schedulable_iff hAccepted (by decide)).mpr (Or.inl ?_)
  exact ⟨{ ref := "start", action := .loopStart }, List.mem_cons_self, rfl⟩

/-- An action that depends on itself, beside an entry action. -/
def selfDependent : DSLInput where
  actions :=
    [{ ref := "a", action := .udf "core.noop" },
      { ref := "b", action := .udf "core.noop", dependsOn := ["b"] }]

theorem selfDependent_not_schedulable :
    selfDependent.Accepted ∧ ¬ selfDependent.Schedulable 16 (fun _ => none) ∧
      (DSLScheduler.new selfDependent 16 fun _ => none).isOk = false := by
  refine ⟨by decide +kernel, fun hSchedulable => ?_, by decide +kernel⟩
  refine hSchedulable.acyclic "b" (.single ?_)
  refine ⟨{ ref := "b", action := .udf "core.noop", dependsOn := ["b"] }, ?_, rfl, ?_⟩
  · exact List.mem_cons_of_mem _ List.mem_cons_self
  · exact ⟨("b", .success), by decide +kernel, rfl⟩

end Tracecat
