import Tracecat.Properties.ExprMeaning
import Tracecat.Properties.ScopeMatching

/-!
# Scopes of expression references

An opener refers to its parent scope and a plain action to a scope around it or
to a loop scope below it, so the scatters around what they refer to are scatters
around them.  Of a closer the validator asks only that the reference comes from
some child scope: for a gather this need not be the scope that it closes, and
for a loop end it need not be the scope of a loop.
-/

namespace Tracecat

open Checks ActionScopes

namespace DSLInput

/-- The scatters around a referenced action are scatters around the action that
refers to it; a gather refers to the scope that it closes; and the lookup of a
reference reads the stream of the reader or one above it. -/
structure ReferencesEnclosed (dsl : DSLInput) : Prop where
  enclosed : ∀ stmt ∈ dsl.actions, stmt.action ≠ .transformGather → ∀ ref ∈ stmt.actionRefs,
    outPath dsl.actionScopes ref <:+ outPath dsl.actionScopes stmt.ref
  gathered : ∀ stmt ∈ dsl.actions, stmt.action = .transformGather → ∀ ref ∈ stmt.actionRefs,
    ∃ scatter ∈ dsl.actions, scatter.action = .transformScatter ∧
      depScopes dsl.actionScopes stmt = [.opened scatter.ref] ∧
      outPath dsl.actionScopes ref = scatter.ref :: outPath dsl.actionScopes stmt.ref
  upward : ∀ maxPendingTasks validateStored scheduler context state,
    DSLScheduler.new dsl maxPendingTasks validateStored = .ok scheduler →
    scheduler.Reachable context state →
    ∀ stmt ∈ dsl.actions, ∀ ref ∈ stmt.actionRefs, ∀ stream result,
      state.streamAwareActionResult ref stream = some result →
        ∃ holder, holder.within stream ∧ state.entryAt? holder ref = some result

/-- What the validator leaves open about the references of closers: those of a
loop end are not to actions directly inside a scatter, those of a gather are to
the scope of its dependencies. -/
structure ClosersReferInside (dsl : DSLInput) : Prop where
  loop_ends : ∀ stmt ∈ dsl.actions, stmt.action = .loopEnd → ∀ ref ∈ stmt.actionRefs,
    dsl.actionScopes.openers.lookup (dsl.actionScopes.scopeOf ref) ≠ some .transformScatter
  gathers : ∀ stmt ∈ dsl.actions, stmt.action = .transformGather → ∀ ref ∈ stmt.actionRefs,
    ∀ dep ∈ stmt.deps, dsl.actionScopes.scopeOf ref = dsl.actionScopes.scopeOf dep.1

/-- The scope rule of one reference, as `checkExpr` tests it. -/
def ExprRule (assigned : ActionScopes) (stmt : ActionStatement) (ref : Ref) : Prop :=
  if stmt.action.isOpener then
    assigned.parentOf (assigned.scopeOf stmt.ref) = some (assigned.scopeOf ref)
  else if stmt.action.isCloser then
    assigned.parentOf (assigned.scopeOf ref) = some (assigned.scopeOf stmt.ref)
  else
    assigned.isDescendant (assigned.scopeOf stmt.ref) (assigned.scopeOf ref) = true ∨
      assigned.isLoopDescendant (assigned.scopeOf ref) (assigned.scopeOf stmt.ref) = true

variable {dsl : DSLInput} {assigned : ActionScopes} {stmt : ActionStatement} {ref : Ref}

/-! ## What the validator checks -/

theorem parentOf_of_checkCloserExpr {key : String}
    (hCheck : checkCloserExpr assigned stmt key ref = .ok ()) :
    assigned.parentOf (assigned.scopeOf ref) = some (assigned.scopeOf stmt.ref) := by
  unfold checkCloserExpr at hCheck
  split at hCheck
  · split at hCheck <;> cases hCheck
  · rename_i hParent
    exact (not_not.mp hParent).symm

theorem exprRule_of_checkExpr {key : String}
    (hCheck : checkExpr assigned stmt key ref = .ok ()) : ExprRule assigned stmt ref := by
  unfold checkExpr at hCheck
  simp only at hCheck
  unfold ExprRule
  by_cases hOpener : stmt.action.isOpener
  · rw [if_pos hOpener] at hCheck ⊢
    rw [throw_if_eq_ok] at hCheck
    exact (not_not.mp hCheck.1).symm
  · rw [if_neg hOpener] at hCheck ⊢
    by_cases hLoopEnd : stmt.action = .loopEnd
    · have hCloser : stmt.action.isCloser = true := by simp [hLoopEnd, ActionType.isCloser]
      rw [if_pos hLoopEnd, bind_eq_ok] at hCheck
      obtain ⟨closed, -, hRest⟩ := hCheck
      rw [throw_if_eq_ok] at hRest
      rw [if_pos hCloser]
      exact parentOf_of_checkCloserExpr hRest.2
    · rw [if_neg hLoopEnd] at hCheck
      by_cases hCloser : stmt.action.isCloser
      · rw [if_pos hCloser] at hCheck ⊢
        exact parentOf_of_checkCloserExpr hCheck
      · rw [if_neg hCloser] at hCheck ⊢
        rw [throw_if_eq_ok] at hCheck
        by_contra hNeither
        rw [not_or] at hNeither
        exact hCheck.1 hNeither

theorem Placed.exprRule (hPlaced : dsl.Placed assigned) (hOpener : dsl.HasOpener)
    (hStmt : stmt ∈ dsl.actions) (hRef : ref ∈ stmt.actionRefs) : ExprRule assigned stmt ref := by
  have hScopes := (hPlaced.validated.scope_passes hOpener hPlaced.assigned_eq).1
  unfold validateScopeDependencies at hScopes
  simp only [then_eq_ok, forM_eq_ok] at hScopes
  obtain ⟨field, hField, hMem⟩ := List.mem_flatMap.mp hRef
  exact exprRule_of_checkExpr ((hScopes.2 stmt hStmt).2 field hField ref hMem)

/-! ## Scatters around related scopes -/

theorem chain_suffix_of_mem {rank : Scope → Nat} (hRank : assigned.RankedBy rank)
    {scope ancestor : Scope} (hMem : ancestor ∈ assigned.chain scope) :
    assigned.chain ancestor <:+ assigned.chain scope := by
  -- on the rank of the scope: the walk goes to the parent, which has a smaller one
  induction hBound : rank scope using Nat.strong_induction_on generalizing scope with
  | _ bound ih =>
      subst hBound
      cases hParent : assigned.parentOf scope with
      | none =>
          rw [chain_of_no_parent hParent, List.mem_singleton] at hMem
          rw [hMem]
      | some parent =>
          rw [chain_of_parent hRank hParent] at hMem ⊢
          rcases List.mem_cons.mp hMem with rfl | hAbove
          · rw [chain_of_parent hRank hParent]
          · exact (ih _ (hRank _ _ hParent).1 hAbove rfl).trans (List.suffix_cons _ _)

theorem enclosingScatters_of_isDescendant {rank : Scope → Nat} (hRank : assigned.RankedBy rank)
    {scope ancestor : Scope} (hBelow : assigned.isDescendant scope ancestor = true) :
    assigned.enclosingScatters ancestor <:+ assigned.enclosingScatters scope := by
  obtain ⟨above, hAbove⟩ := chain_suffix_of_mem hRank (of_decide_eq_true hBelow)
  refine ⟨above.filterMap assigned.scatterOf, ?_⟩
  unfold enclosingScatters
  rw [← List.filterMap_append, hAbove]

section Order

variable {order : List (ActionStatement × Scope)}

/-- A scope that no scatter opened adds none to those around its parent. -/
theorem ScopeOrder.enclosingScatters_of_parent (hOrder : dsl.ScopeOrder assigned order)
    {scope parent : Scope} (hParent : assigned.parentOf scope = some parent)
    (hOpener : assigned.openers.lookup scope ≠ some .transformScatter) :
    assigned.enclosingScatters scope = assigned.enclosingScatters parent := by
  cases scope with
  | root => simp [hOrder.parentOf_root] at hParent
  | opened ref => rw [hOrder.enclosingScatters_opened hParent, if_neg hOpener]

theorem ScopeOrder.enclosingScatters_parent_suffix (hOrder : dsl.ScopeOrder assigned order)
    {scope parent : Scope} (hParent : assigned.parentOf scope = some parent) :
    assigned.enclosingScatters parent <:+ assigned.enclosingScatters scope := by
  by_cases hOpener : assigned.openers.lookup scope = some .transformScatter
  · cases scope with
    | root => simp [hOrder.parentOf_root] at hParent
    | opened ref =>
        rw [hOrder.enclosingScatters_opened hParent, if_pos hOpener]
        exact List.suffix_cons _ _
  · rw [hOrder.enclosingScatters_of_parent hParent hOpener]

/-- The walk of `_is_loop_descendant_scope` passes loop scopes only. -/
theorem ScopeOrder.enclosingScatters_of_loopDescendant (hOrder : dsl.ScopeOrder assigned order)
    {fuel : Nat} {scope ancestor : Scope}
    (hBelow : assigned.loopDescendantFrom ancestor fuel scope = true) :
    assigned.enclosingScatters scope = assigned.enclosingScatters ancestor := by
  induction fuel generalizing scope with
  | zero => rw [of_decide_eq_true hBelow]
  | succ fuel ih =>
      unfold loopDescendantFrom at hBelow
      split at hBelow
      · rename_i hSame
        rw [hSame]
      · split at hBelow
        · cases hBelow
        · rename_i hLoop
          cases hParent : assigned.parentOf scope with
          | none => simp [hParent] at hBelow
          | some parent =>
              simp only [hParent] at hBelow
              rw [hOrder.enclosingScatters_of_parent hParent, ih hBelow]
              rw [not_not.mp hLoop]
              simp

end Order

/-! ## Reading upwards -/

/-- What the lookup of a reference finds is an entry of the stream or of one
above it. -/
theorem entryAt_within_of_lookup {scheduler : DSLScheduler} {context : ExecutionContext}
    {state : State} (hReach : scheduler.Reachable context state) {stream : StreamID}
    {result : TaskResult} (hLookup : state.streamAwareActionResult ref stream = some result) :
    ∃ holder, holder.within stream ∧ state.entryAt? holder ref = some result := by
  have hLinked := (DSLScheduler.tracked_of_reachable hReach).linked
  rw [State.streamAwareActionResult_eq_some_iff hLinked] at hLookup
  induction hLookup with
  | here hEntry => exact ⟨_, StreamID.within_refl _, hEntry⟩
  | above _ hParent _ ih =>
      obtain ⟨holder, hWithin, hEntry⟩ := ih
      obtain ⟨scope, index, rfl⟩ := hLinked.eq_child hParent
      exact ⟨holder, StreamID.within_child hWithin scope index, hEntry⟩

/-! ## The rules of the four kinds of action -/

theorem Accepted.outPath_of_plain (hAccepted : dsl.Accepted)
    (hPlain : ∀ stmt ∈ dsl.actions, stmt.action.isPlain)
    (hRef : ref ∈ dsl.actions.map ActionStatement.ref) : outPath dsl.actionScopes ref = [] := by
  have hNone : ¬ dsl.HasOpener := by
    rintro ⟨stmt, hStmt, hOpener⟩
    have hKind := hPlain stmt hStmt
    simp [ActionType.isPlain, hOpener] at hKind
  obtain ⟨stmt, hStmt, rfl⟩ := List.mem_map.mp hRef
  unfold outPath
  cases hAssigned : dsl.assignActionScopes with
  | error error =>
      have hScopes : dsl.actionScopes = {} := by
        rw [actionScopes, hAssigned]
        rfl
      rw [hScopes]
      rfl
  | ok assigned =>
      have hPlaced : dsl.Placed assigned := ⟨hAccepted.validated, hAssigned⟩
      obtain ⟨order, hOrder⟩ := hPlaced.exists_order
      have hScopes : dsl.actionScopes = assigned := by
        rw [actionScopes, hAssigned]
        rfl
      rw [hScopes, (hPlaced.root_of_no_opener hNone hStmt).2, hOrder.enclosingScatters_root]

theorem Placed.enclosed_of_not_closer (hPlaced : dsl.Placed assigned)
    (hRule : ExprRule assigned stmt ref) (hCloser : ¬ stmt.action.isCloser) :
    outPath assigned ref <:+ outPath assigned stmt.ref := by
  obtain ⟨order, hOrder⟩ := hPlaced.exists_order
  obtain ⟨rank, hRank⟩ := hOrder.exists_rankedBy
  unfold ExprRule at hRule
  unfold outPath
  by_cases hOpener : stmt.action.isOpener
  · rw [if_pos hOpener] at hRule
    exact hOrder.enclosingScatters_parent_suffix hRule
  · rw [if_neg hOpener, if_neg hCloser] at hRule
    rcases hRule with hAncestor | hLoop
    · exact enclosingScatters_of_isDescendant hRank hAncestor
    · unfold isLoopDescendant at hLoop
      split at hLoop
      · cases hLoop
      · rw [hOrder.enclosingScatters_of_loopDescendant hLoop]

theorem ExprRule.parentOf (hRule : ExprRule assigned stmt ref)
    (hCloser : stmt.action.isCloser = true) :
    assigned.parentOf (assigned.scopeOf ref) = some (assigned.scopeOf stmt.ref) := by
  have hOpener : ¬ stmt.action.isOpener := by
    cases hAction : stmt.action <;> simp_all [ActionType.isOpener, ActionType.isCloser]
  unfold ExprRule at hRule
  rwa [if_neg hOpener, if_pos hCloser] at hRule

/-- A loop end is enclosed by the scatters around its reference unless one of
them opened the scope of the reference. -/
theorem Placed.enclosed_loopEnd_iff (hPlaced : dsl.Placed assigned)
    (hRule : ExprRule assigned stmt ref) (hLoopEnd : stmt.action = .loopEnd) :
    outPath assigned ref <:+ outPath assigned stmt.ref ↔
      assigned.openers.lookup (assigned.scopeOf ref) ≠ some .transformScatter := by
  obtain ⟨order, hOrder⟩ := hPlaced.exists_order
  have hParent := hRule.parentOf (by simp [hLoopEnd, ActionType.isCloser])
  unfold outPath
  constructor
  · intro hSuffix hScatter
    cases hScope : assigned.scopeOf ref with
    | root => simp [hScope, hOrder.parentOf_root] at hParent
    | opened opener =>
        rw [hScope] at hParent hScatter hSuffix
        rw [hOrder.enclosingScatters_opened hParent, if_pos hScatter] at hSuffix
        exact absurd hSuffix.length_le (by simp)
  · intro hOpener
    rw [hOrder.enclosingScatters_of_parent hParent hOpener]

/-- A gather refers to the scope that it closes exactly when its reference is
in the scope of its dependencies. -/
theorem Placed.gathered_iff (hPlaced : dsl.Placed assigned) (hStmt : stmt ∈ dsl.actions)
    (hRule : ExprRule assigned stmt ref) (hGather : stmt.action = .transformGather) :
    (∃ scatter ∈ dsl.actions, scatter.action = .transformScatter ∧
      depScopes assigned stmt = [.opened scatter.ref] ∧
      outPath assigned ref = scatter.ref :: outPath assigned stmt.ref) ↔
    ∀ dep ∈ stmt.deps, assigned.scopeOf ref = assigned.scopeOf dep.1 := by
  obtain ⟨order, hOrder⟩ := hPlaced.exists_order
  have hParent := hRule.parentOf (by simp [hGather, ActionType.isCloser])
  unfold outPath
  constructor
  · rintro ⟨scatter, -, -, hScopes, hPath⟩ dep hDep
    have hDepScope := scopeOf_mem_depScopes assigned hDep
    rw [hScopes, List.mem_singleton] at hDepScope
    rw [hDepScope]
    cases hScope : assigned.scopeOf ref with
    | root => simp [hScope, hOrder.parentOf_root] at hParent
    | opened opener =>
        rw [hScope] at hParent hPath
        rw [hOrder.enclosingScatters_opened hParent] at hPath
        split at hPath
        · rw [(List.cons.inj hPath).1]
        · exact absurd (congrArg List.length hPath) (by simp)
  · intro hSame
    obtain ⟨scatter, hScatter, hAction, hScopes⟩ := hPlaced.gather_closes hStmt hGather
      fun dep hDep other hOther => (hSame dep hDep).symm.trans (hSame other hOther)
    refine ⟨scatter, hScatter, hAction, hScopes, ?_⟩
    have hMem : Scope.opened scatter.ref ∈ depScopes assigned stmt :=
      hScopes ▸ List.mem_singleton_self _
    rw [depScopes, List.mem_dedup] at hMem
    obtain ⟨dep, hDep, hDepScope⟩ := List.mem_map.mp hMem
    have hScope : assigned.scopeOf ref = .opened scatter.ref := (hSame dep hDep).trans hDepScope
    rw [hScope] at hParent ⊢
    obtain ⟨current, hEntry⟩ := (hOrder.mem_iff scatter).mpr hScatter
    have hOpener := (hOrder.opener_parent hEntry (by simp [hAction, ActionType.isOpener])).2.2
    rw [hOrder.enclosingScatters_opened hParent, if_pos (hOpener.trans (congrArg some hAction))]

end DSLInput

open DSLInput

/-- The references of an accepted definition are enclosed exactly when no loop
end refers directly into a scatter and every gather refers to the scope of its
dependencies. -/
theorem accepted_references_enclosed_iff {dsl : DSLInput} (hAccepted : dsl.Accepted) :
    dsl.ReferencesEnclosed ↔ dsl.ClosersReferInside := by
  have hUpward : ∀ maxPendingTasks validateStored scheduler context state,
      DSLScheduler.new dsl maxPendingTasks validateStored = .ok scheduler →
      scheduler.Reachable context state →
      ∀ stmt ∈ dsl.actions, ∀ ref ∈ stmt.actionRefs, ∀ stream result,
        state.streamAwareActionResult ref stream = some result →
          ∃ holder, holder.within stream ∧ state.entryAt? holder ref = some result :=
    fun _ _ _ _ _ _ hReach _ _ _ _ _ _ hLookup => entryAt_within_of_lookup hReach hLookup
  by_cases hOpener : dsl.HasOpener
  · have hPlaced : dsl.Placed dsl.actionScopes := by
      rcases hAccepted.placed_or_plain with hPlaced | hPlain
      · exact hPlaced
      · obtain ⟨stmt, hStmt, hKind⟩ := hOpener
        have hPlainStmt := hPlain stmt hStmt
        simp [ActionType.isPlain, hKind] at hPlainStmt
    constructor
    · intro hEnclosed
      refine ⟨fun stmt hStmt hLoopEnd ref hRef => ?_, fun stmt hStmt hGather ref hRef => ?_⟩
      · exact (hPlaced.enclosed_loopEnd_iff (hPlaced.exprRule hOpener hStmt hRef) hLoopEnd).mp
          (hEnclosed.enclosed stmt hStmt (by simp [hLoopEnd]) ref hRef)
      · exact (hPlaced.gathered_iff hStmt (hPlaced.exprRule hOpener hStmt hRef) hGather).mp
          (hEnclosed.gathered stmt hStmt hGather ref hRef)
    · intro hInside
      refine ⟨fun stmt hStmt hNotGather ref hRef => ?_, fun stmt hStmt hGather ref hRef => ?_,
        hUpward⟩
      · have hRule := hPlaced.exprRule hOpener hStmt hRef
        by_cases hLoopEnd : stmt.action = .loopEnd
        · exact (hPlaced.enclosed_loopEnd_iff hRule hLoopEnd).mpr
            (hInside.loop_ends stmt hStmt hLoopEnd ref hRef)
        · refine hPlaced.enclosed_of_not_closer hRule fun hCloser => ?_
          cases hAction : stmt.action <;> simp_all [ActionType.isCloser]
      · exact (hPlaced.gathered_iff hStmt (hPlaced.exprRule hOpener hStmt hRef) hGather).mpr
          (hInside.gathers stmt hStmt hGather ref hRef)
  · have hPlain : ∀ stmt ∈ dsl.actions, stmt.action.isPlain := fun stmt hStmt =>
      hAccepted.validated.plain_of_no_opener hOpener hStmt
    have hNone (action : ActionType) (hKind : action.isPlain = false) :
        ∀ stmt ∈ dsl.actions, stmt.action ≠ action := by
      rintro stmt hStmt rfl
      rw [hPlain stmt hStmt] at hKind
      cases hKind
    have hGather := hNone .transformGather rfl
    have hLoopEnd := hNone .loopEnd rfl
    refine ⟨fun _ => ⟨fun stmt hStmt hAction => absurd hAction (hLoopEnd stmt hStmt),
        fun stmt hStmt hAction => absurd hAction (hGather stmt hStmt)⟩,
      fun _ => ⟨fun stmt hStmt _ ref hRef => ?_,
        fun stmt hStmt hAction => absurd hAction (hGather stmt hStmt), hUpward⟩⟩
    obtain ⟨field, hField, hMem⟩ := List.mem_flatMap.mp hRef
    rw [hAccepted.outPath_of_plain hPlain
      (hAccepted.validated.exprs_known stmt hStmt field hField ref hMem)]
    exact List.nil_suffix

/-- A scatter whose gather collects what was done for each item. -/
def gatheredScatter : DSLInput where
  actions :=
    [{ ref := "each", action := .transformScatter, args := .scatter { collection := {} } },
      { ref := "work", action := .udf "core.noop", dependsOn := ["each"] },
      { ref := "all", action := .transformGather,
        args := .gather { items := { refs := [.action "work"] } }, dependsOn := ["work"] }]

theorem gatheredScatter_references_enclosed : gatheredScatter.ReferencesEnclosed := by
  refine (accepted_references_enclosed_iff (by decide +kernel)).mpr ⟨?_, ?_⟩ <;> decide +kernel

/-- A gather on the items of one scatter that collects those of another. -/
def foreignGather : DSLInput where
  actions :=
    [{ ref := "left", action := .transformScatter, args := .scatter { collection := {} } },
      { ref := "right", action := .transformScatter, args := .scatter { collection := {} } },
      { ref := "a", action := .udf "core.noop", dependsOn := ["left"] },
      { ref := "b", action := .udf "core.noop", dependsOn := ["right"] },
      { ref := "all", action := .transformGather,
        args := .gather { items := { refs := [.action "b"] } }, dependsOn := ["a"] }]

/-- A loop end that runs if an action inside a scatter beside the loop says so. -/
def foreignLoopEnd : DSLInput where
  actions :=
    [{ ref := "again", action := .loopStart },
      { ref := "each", action := .transformScatter, args := .scatter { collection := {} } },
      { ref := "a", action := .udf "core.noop", dependsOn := ["again"] },
      { ref := "b", action := .udf "core.noop", dependsOn := ["each"] },
      { ref := "end", action := .loopEnd, args := .loopEnd { condition := {} },
        dependsOn := ["a"], runIf := some { refs := [.action "b"] } }]

theorem closers_not_enclosed :
    (foreignGather.Accepted ∧ ¬ foreignGather.ReferencesEnclosed) ∧
      foreignLoopEnd.Accepted ∧ ¬ foreignLoopEnd.ReferencesEnclosed := by
  refine ⟨⟨by decide +kernel, fun hEnclosed => ?_⟩, by decide +kernel, fun hEnclosed => ?_⟩
  · obtain ⟨scatter, -, -, hScopes, hPath⟩ := hEnclosed.gathered
      { ref := "all", action := .transformGather,
        args := .gather { items := { refs := [.action "b"] } }, dependsOn := ["a"] }
      (by decide +kernel) rfl "b" (by decide +kernel)
    have hClosed : depScopes foreignGather.actionScopes
        { ref := "all", action := .transformGather,
          args := .gather { items := { refs := [.action "b"] } }, dependsOn := ["a"] } =
        [.opened "left"] := by decide +kernel
    have hAround : outPath foreignGather.actionScopes "b" = ["right"] := by decide +kernel
    rw [hClosed] at hScopes
    rw [hAround] at hPath
    injection hScopes with hScatter
    injection hScatter with hScatter
    rw [← hScatter] at hPath
    exact absurd (List.cons.inj hPath).1 (by decide)
  · have hSuffix := hEnclosed.enclosed
      { ref := "end", action := .loopEnd, args := .loopEnd { condition := {} },
        dependsOn := ["a"], runIf := some { refs := [.action "b"] } }
      (by decide +kernel) (by decide) "b" (by decide +kernel)
    revert hSuffix
    decide +kernel

end Tracecat
