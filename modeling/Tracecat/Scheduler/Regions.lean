import Tracecat.Scheduler.Move

/-!
# Loop regions of a constructed scheduler

What the constructor has established when it returns: the definition is
placed, and every loop region joins a loop start to the loop end that closes
its scope.
-/

namespace Tracecat

open Checks

/-- The loop region of a loop start and the loop end that closes its scope. -/
structure LoopRegion.Joins (dsl : DSLInput) (assigned : ActionScopes) (region : LoopRegion)
    (startStmt endStmt : ActionStatement) : Prop where
  start_mem : startStmt ∈ dsl.actions
  start_ref : startStmt.ref = region.startRef
  start_action : startStmt.action = .loopStart
  end_mem : endStmt ∈ dsl.actions
  end_ref : endStmt.ref = region.endRef
  end_action : endStmt.action = .loopEnd
  end_deps : endStmt.deps ≠ []
  closed : DSLInput.depScopes assigned endStmt = [.opened region.startRef]
  members : region.members =
    DSLInput.loopMembers assigned (.opened region.startRef) region.endRef

namespace DSLInput

variable {dsl : DSLInput} {assigned : ActionScopes}

theorem addLoopRegion_ok {regions next : Dict Ref LoopRegion} {stmt : ActionStatement}
    (hStmt : stmt ∈ dsl.actions)
    (hAdd : dsl.addLoopRegion assigned regions stmt = .ok next) :
    next = regions ∨ ∃ region startStmt, region.Joins dsl assigned startStmt stmt ∧
      next = regions.insert region.startRef region := by
  unfold addLoopRegion at hAdd
  split at hAdd
  · cases hAdd
    exact Or.inl rfl
  · rename_i hAction
    rw [throw_if_eq_ok] at hAdd
    obtain ⟨-, hAdd⟩ := hAdd
    split at hAdd
    · rename_i startRef hScopes
      split at hAdd
      · cases hAdd
      · rename_i startStmt hStart
        simp only [throw_if_eq_ok] at hAdd
        obtain ⟨hKind, -, hAdd⟩ := hAdd
        cases hAdd
        obtain ⟨hStartMem, hStartRef⟩ := stmt?_some_mem hStart
        refine Or.inr ⟨⟨startRef, stmt.ref, loopMembers assigned (.opened startRef) stmt.ref⟩,
          startStmt, ⟨hStartMem, hStartRef, not_not.mp hKind, hStmt, rfl,
          not_not.mp hAction, ?_, hScopes, rfl⟩, rfl⟩
        intro hNone
        simp [depScopes, hNone] at hScopes
    · cases hAdd
    · cases hAdd

theorem buildLoopRegions_joins {regions : Dict Ref LoopRegion}
    (hBuild : dsl.buildLoopRegions assigned = .ok regions) {key : Ref} {region : LoopRegion}
    (hRegion : regions.lookup key = some region) :
    key = region.startRef ∧ ∃ startStmt endStmt, region.Joins dsl assigned startStmt endStmt := by
  let Inv (done : List ActionStatement) (regions : Dict Ref LoopRegion) : Prop :=
    done ⊆ dsl.actions → ∀ key region, regions.lookup key = some region →
      key = region.startRef ∧
        ∃ startStmt endStmt, region.Joins dsl assigned startStmt endStmt
  have hFinal : Inv ([] ++ dsl.actions) regions := by
    refine foldlM_invariant Inv ?_ ?_ hBuild
    · intro done stmt before after hInv hAdd hSubset key region hLookup
      have hOld := hInv fun _ h => hSubset (List.mem_append_left _ h)
      have hStmt := hSubset (List.mem_append_right _ List.mem_cons_self)
      rcases addLoopRegion_ok hStmt hAdd with rfl | ⟨added, startStmt, hJoins, rfl⟩
      · exact hOld key region hLookup
      · rw [Dict.lookup_insert_eq] at hLookup
        split at hLookup
        · rename_i hKey
          cases hLookup
          exact ⟨hKey, startStmt, stmt, hJoins⟩
        · exact hOld key region hLookup
    · intro _ key region hLookup
      cases hLookup
  exact hFinal (fun _ h => by simpa using h) key region hRegion

end DSLInput

/-- A scheduler as its constructor leaves it for a validated definition. -/
structure DSLScheduler.Built (scheduler : DSLScheduler) : Prop where
  placed : scheduler.dsl.Placed scheduler.assigned
  regions_eq : scheduler.dsl.buildLoopRegions scheduler.assigned = .ok scheduler.loopRegions

namespace DSLScheduler

theorem built_of_new {dsl : DSLInput} {maxPendingTasks : Nat}
    {validateStored : Json → Option (StoredObject Json)} {scheduler : DSLScheduler}
    (hAccepted : dsl.Accepted)
    (hNew : DSLScheduler.new dsl maxPendingTasks validateStored = .ok scheduler) :
    scheduler.Built ∧ scheduler.dsl = dsl := by
  unfold DSLScheduler.new at hNew
  rw [throw_if_eq_ok] at hNew
  obtain ⟨-, hNew⟩ := hNew
  split at hNew
  · cases hNew
  · split at hNew
    · cases hNew
    · rename_i assigned hAssigned
      obtain ⟨regions, hRegions, hEq⟩ := bind_eq_ok.mp hNew
      cases hEq
      exact ⟨⟨⟨hAccepted.validated, hAssigned⟩, hRegions⟩, rfl⟩

end DSLScheduler

namespace LoopRegion.Joins

variable {dsl : DSLInput} {assigned : ActionScopes} {region : LoopRegion}
  {startStmt endStmt : ActionStatement}

/-- A loop end runs in the streams of its loop start. -/
theorem path_eq (hJoins : region.Joins dsl assigned startStmt endStmt)
    (hPlaced : dsl.Placed assigned) :
    dsl.path assigned region.endRef = dsl.path assigned region.startRef := by
  have hEndMixed : ¬ dsl.IsMixedGather assigned endStmt.ref := by
    rintro ⟨stmt, hStmt, hKind, -⟩
    rw [hPlaced.stmt?_eq hJoins.end_mem] at hStmt
    cases hStmt
    simp [hJoins.end_action] at hKind
  obtain ⟨dep, hDep⟩ := List.exists_mem_of_ne_nil _ hJoins.end_deps
  have hScope : assigned.scopeOf dep.1 = .opened region.startRef := by
    have hMem := DSLInput.scopeOf_mem_depScopes assigned hDep
    rw [hJoins.closed] at hMem
    exact List.mem_singleton.mp hMem
  have hStartScope : assigned.scopeOf startStmt.ref = .opened startStmt.ref := by
    obtain ⟨order, hOrder⟩ := hPlaced.exists_order
    obtain ⟨current, hEntry⟩ := (hOrder.mem_iff startStmt).mpr hJoins.start_mem
    exact (hOrder.opener_parent hEntry
      (by simp [hJoins.start_action, ActionType.isOpener])).1
  calc dsl.path assigned region.endRef = DSLInput.outPath assigned dep.1 := by
        rw [← hJoins.end_ref]
        exact hPlaced.path_of_dep hJoins.end_mem hEndMixed hDep
    _ = DSLInput.outPath assigned startStmt.ref := by
        unfold DSLInput.outPath
        rw [hScope, hStartScope, hJoins.start_ref]
    _ = dsl.path assigned region.startRef := by
        rw [← hJoins.start_ref]
        exact hPlaced.outPath_other hJoins.start_mem (by simp [hJoins.start_action])
          (by simp [hJoins.start_action])

end LoopRegion.Joins

/-! ## The members of a region -/

namespace DSLInput

variable {dsl : DSLInput} {assigned : ActionScopes}

theorem mem_loopMembers {scope : Scope} {endRef ref : Ref} :
    ref ∈ loopMembers assigned scope endRef ↔
      (∃ own, assigned.scopes.lookup ref = some own ∧ assigned.isDescendant own scope = true) ∨
        ref = endRef := by
  have hInside (other : Ref) : other ∈ (assigned.scopes.entries.filter fun item =>
      assigned.isDescendant item.2 scope).map Sigma.fst ↔
      ∃ own, assigned.scopes.lookup other = some own ∧
        assigned.isDescendant own scope = true := by
    simp only [List.mem_map, List.mem_filter]
    constructor
    · rintro ⟨⟨other, own⟩, ⟨hEntry, hBelow⟩, rfl⟩
      exact ⟨own, (Dict.mem_entries_iff _ _ _).mp hEntry, hBelow⟩
    · rintro ⟨own, hLookup, hBelow⟩
      exact ⟨⟨other, own⟩, ⟨(Dict.mem_entries_iff _ _ _).mpr hLookup, hBelow⟩, rfl⟩
  unfold loopMembers
  simp only
  split
  · rename_i hEnd
    rw [hInside] at hEnd
    rw [hInside]
    constructor
    · exact Or.inl
    · rintro (hOwn | rfl)
      · exact hOwn
      · exact hEnd
  · rw [List.mem_append, hInside, List.mem_singleton]

theorem rank_le_of_mem_chain {rank : Scope → Nat} (hRank : assigned.RankedBy rank)
    {scope ancestor : Scope} (hAncestor : ancestor ∈ assigned.chain scope) :
    rank ancestor ≤ rank scope := by
  have hWalk (fuel : Nat) (scope : Scope) (hMem : ancestor ∈ assigned.chainFrom fuel scope) :
      rank ancestor ≤ rank scope := by
    induction fuel generalizing scope with
    | zero => rw [List.mem_singleton.mp hMem]
    | succ fuel ih =>
        unfold ActionScopes.chainFrom at hMem
        split at hMem
        · rw [List.mem_singleton.mp hMem]
        · rename_i parent hParent
          rcases List.mem_cons.mp hMem with rfl | hAbove
          · exact le_rfl
          · exact (ih parent hAbove).trans (hRank _ _ hParent).1.le
  exact hWalk _ scope hAncestor

end DSLInput

namespace DSLScheduler

/-- A region of the scheduler, with the actions that it joins. -/
structure HasRegion (scheduler : DSLScheduler) (region : LoopRegion)
    (startStmt endStmt : ActionStatement) : Prop where
  lookup : scheduler.loopRegions.lookup region.startRef = some region
  joins : region.Joins scheduler.dsl scheduler.assigned startStmt endStmt
  start_stmt : scheduler.dsl.stmt? region.startRef = some startStmt
  end_stmt : scheduler.dsl.stmt? region.endRef = some endStmt

variable {scheduler : DSLScheduler} {region outer : LoopRegion}
  {startStmt endStmt outerStart outerEnd : ActionStatement}

theorem Built.hasRegion (hBuilt : scheduler.Built) {key : Ref}
    (hRegion : scheduler.loopRegions.lookup key = some region) :
    key = region.startRef ∧
      ∃ startStmt endStmt, scheduler.HasRegion region startStmt endStmt := by
  obtain ⟨rfl, startStmt, endStmt, hJoins⟩ :=
    DSLInput.buildLoopRegions_joins hBuilt.regions_eq hRegion
  refine ⟨rfl, startStmt, endStmt, hRegion, hJoins, ?_, ?_⟩
  · rw [← hJoins.start_ref]
    exact hBuilt.placed.stmt?_eq hJoins.start_mem
  · rw [← hJoins.end_ref]
    exact hBuilt.placed.stmt?_eq hJoins.end_mem

namespace HasRegion

theorem eq_of_startRef (hRegion : scheduler.HasRegion region startStmt endStmt)
    (hOuter : scheduler.HasRegion outer outerStart outerEnd)
    (hStart : region.startRef = outer.startRef) : region = outer := by
  have hLookup := hRegion.lookup
  rw [hStart, hOuter.lookup] at hLookup
  exact (Option.some.inj hLookup).symm

theorem eq_of_endRef (hRegion : scheduler.HasRegion region startStmt endStmt)
    (hOuter : scheduler.HasRegion outer outerStart outerEnd)
    (hEnd : region.endRef = outer.endRef) : region = outer := by
  have hStmt : endStmt = outerEnd := by
    have hFound := hRegion.end_stmt
    rw [hEnd, hOuter.end_stmt] at hFound
    exact (Option.some.inj hFound).symm
  have hClosed := hRegion.joins.closed
  rw [hStmt, hOuter.joins.closed] at hClosed
  have hStart : outer.startRef = region.startRef := by simpa using hClosed
  exact hRegion.eq_of_startRef hOuter hStart.symm

theorem regionByEnd?_eq (hRegion : scheduler.HasRegion region startStmt endStmt)
    (hBuilt : scheduler.Built) : scheduler.regionByEnd? region.endRef = some region := by
  have hEntry := (Dict.mem_entries_iff _ _ _).mpr hRegion.lookup
  have hSome : (scheduler.regionByEnd? region.endRef).isSome := by
    unfold regionByEnd?
    rw [List.find?_isSome]
    exact ⟨region, List.mem_map.mpr ⟨_, hEntry, rfl⟩, by simp⟩
  obtain ⟨found, hFound⟩ := Option.isSome_iff_exists.mp hSome
  rw [hFound]
  unfold regionByEnd? at hFound
  have hEnd : found.endRef = region.endRef := by simpa using List.find?_some hFound
  obtain ⟨⟨key, other⟩, hOther, rfl⟩ := List.mem_map.mp (List.mem_of_find?_eq_some hFound)
  obtain ⟨-, _, _, hHas⟩ := hBuilt.hasRegion ((Dict.mem_entries_iff _ _ _).mp hOther)
  rw [hHas.eq_of_endRef hRegion hEnd]

theorem of_regionByEnd? (hBuilt : scheduler.Built) {ref : Ref}
    (hFound : scheduler.regionByEnd? ref = some region) :
    region.endRef = ref ∧ ∃ startStmt endStmt, scheduler.HasRegion region startStmt endStmt := by
  unfold regionByEnd? at hFound
  refine ⟨by simpa using List.find?_some hFound, ?_⟩
  obtain ⟨⟨key, found⟩, hEntry, rfl⟩ := List.mem_map.mp (List.mem_of_find?_eq_some hFound)
  exact (hBuilt.hasRegion ((Dict.mem_entries_iff _ _ _).mp hEntry)).2

variable (hRegion : scheduler.HasRegion region startStmt endStmt)
include hRegion

theorem endRef_ne (hOuter : scheduler.HasRegion outer outerStart outerEnd) :
    region.endRef ≠ outer.startRef := by
  intro hEq
  have hFound := hRegion.end_stmt
  rw [hEq, hOuter.start_stmt] at hFound
  have hAction := hRegion.joins.end_action
  rw [← Option.some.inj hFound, hOuter.joins.start_action] at hAction
  cases hAction

theorem lookup_start (hBuilt : scheduler.Built) :
    scheduler.assigned.scopes.lookup region.startRef = some (.opened region.startRef) := by
  obtain ⟨order, hOrder⟩ := hBuilt.placed.exists_order
  obtain ⟨current, hEntry⟩ := (hOrder.mem_iff startStmt).mpr hRegion.joins.start_mem
  have hScope := (hOrder.opener_parent hEntry
    (by simp [hRegion.joins.start_action, ActionType.isOpener])).1
  have hLookup := hOrder.lookup_scopes hEntry
  rwa [hScope, hRegion.joins.start_ref] at hLookup

theorem start_mem_members (hBuilt : scheduler.Built) : region.startRef ∈ region.members := by
  rw [hRegion.joins.members, DSLInput.mem_loopMembers]
  exact Or.inl ⟨_, hRegion.lookup_start hBuilt,
    decide_eq_true (ActionScopes.mem_chain_self _)⟩

/-- The scope that a loop end is in lies around the scope that it closes. -/
theorem parentOf_closed (hBuilt : scheduler.Built) :
    scheduler.assigned.parentOf (.opened region.startRef) =
      some (scheduler.assigned.scopeOf region.endRef) := by
  obtain ⟨dep, hDep⟩ := List.exists_mem_of_ne_nil _ hRegion.joins.end_deps
  have hScope : scheduler.assigned.scopeOf dep.1 = .opened region.startRef := by
    have hMem := DSLInput.scopeOf_mem_depScopes scheduler.assigned hDep
    rw [hRegion.joins.closed] at hMem
    exact List.mem_singleton.mp hMem
  have hRule := hBuilt.placed.edgeRule hRegion.joins.end_mem hDep
  unfold DSLInput.EdgeRule at hRule
  rw [if_neg (by simp [hRegion.joins.end_action, ActionType.isOpener]),
    if_pos (by simp [hRegion.joins.end_action, ActionType.isCloser]), hScope,
    hRegion.joins.end_ref] at hRule
  exact hRule

/-- A region whose end lies in another region lies in it from its start. -/
theorem start_mem_of_end_mem (hOuter : scheduler.HasRegion outer outerStart outerEnd)
    (hBuilt : scheduler.Built) (hEnd : region.endRef ∈ outer.members) :
    region.startRef ∈ outer.members := by
  have hStart := hRegion.lookup_start hBuilt
  rw [hOuter.joins.members, DSLInput.mem_loopMembers] at hEnd
  rcases hEnd with ⟨own, hOwn, hBelow⟩ | hSame
  · obtain ⟨order, hOrder⟩ := hBuilt.placed.exists_order
    obtain ⟨rank, hRank⟩ := hOrder.exists_rankedBy
    have hScope : scheduler.assigned.scopeOf region.endRef = own := by
      simp [ActionScopes.scopeOf, Dict.getD, hOwn]
    have hParent := hRegion.parentOf_closed hBuilt
    rw [hScope] at hParent
    rw [hOuter.joins.members, DSLInput.mem_loopMembers]
    refine Or.inl ⟨_, hStart, ?_⟩
    unfold ActionScopes.isDescendant at hBelow ⊢
    rw [ActionScopes.chain_of_parent hRank hParent]
    exact decide_eq_true (List.mem_cons_of_mem _ (of_decide_eq_true hBelow))
  · rw [hRegion.eq_of_endRef hOuter hSame]
    exact hOuter.start_mem_members hBuilt

/-- A loop start waits for nothing inside its loop. -/
theorem internalDeps_start (hBuilt : scheduler.Built) : internalDeps region startStmt = 0 := by
  obtain ⟨order, hOrder⟩ := hBuilt.placed.exists_order
  obtain ⟨rank, -, hRank⟩ := hOrder.sorted.exists_rank hOrder.nodup
  have hJoins := hRegion.joins
  obtain ⟨current, hEntry⟩ := (hOrder.mem_iff startStmt).mpr hJoins.start_mem
  unfold internalDeps
  rw [List.length_eq_zero_iff, List.filter_eq_nil_iff]
  intro dep hDep hMember
  rw [decide_eq_true_eq, hJoins.members, DSLInput.mem_loopMembers] at hMember
  have hBefore : rank dep.1 < rank region.startRef := by
    rw [← hJoins.start_ref]
    exact hRank _ hEntry dep hDep
  rcases hMember with ⟨own, hOwn, hBelow⟩ | hEnd
  · -- the scope of a dependency is the parent of the scope that the loop opens
    have hScope : scheduler.assigned.scopeOf dep.1 = own := by
      simp [ActionScopes.scopeOf, Dict.getD, hOwn]
    have hRule := hBuilt.placed.edgeRule hJoins.start_mem hDep
    unfold DSLInput.EdgeRule at hRule
    rw [if_pos (by simp [hJoins.start_action, ActionType.isOpener]), hScope] at hRule
    have hOwnScope : scheduler.assigned.scopeOf startStmt.ref = .opened region.startRef := by
      rw [hJoins.start_ref]
      simp [ActionScopes.scopeOf, Dict.getD, hRegion.lookup_start hBuilt]
    rw [hOwnScope] at hRule
    have hLess := (hOrder.rankedBy hRank _ _ hRule).1
    have hLe := DSLInput.rank_le_of_mem_chain (hOrder.rankedBy hRank)
      (of_decide_eq_true hBelow)
    omega
  · -- the loop end comes after the loop start
    obtain ⟨endCurrent, hEndEntry⟩ := (hOrder.mem_iff endStmt).mpr hJoins.end_mem
    rcases hOrder.arrives hEndEntry with ⟨hNone, -⟩ | ⟨last, hLast, scope, -, hScope⟩
    · exact hJoins.end_deps hNone
    · have hMem := DSLInput.scopeOf_mem_depScopes scheduler.assigned hLast
      rw [hJoins.closed, hScope] at hMem
      have hBound := (hOrder.scope_bounds hRank hEndEntry).1.2
      rw [List.mem_singleton.mp hMem, hJoins.end_ref] at hBound
      have hAfter : rank region.startRef + 1 ≤ rank region.endRef := hBound
      rw [hEnd] at hBefore
      omega

end HasRegion
end DSLScheduler

end Tracecat
