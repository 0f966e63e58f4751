import Tracecat.Dsl.Layout

/-!
# Loop ends and loop starts

The synchronization pass records the loop end of every loop scope.  When it
accepts, the loop ends and the loop starts are in bijection.
-/

namespace Tracecat
namespace DSLInput

open Checks

/-- Every loop end closes one loop scope, and every loop scope is closed by one
loop end. -/
structure LoopsMatched (dsl : DSLInput) (assigned : ActionScopes) : Prop where
  closes : ∀ stmt ∈ dsl.actions, stmt.action = .loopEnd →
    ∃ start ∈ dsl.actions, start.action = .loopStart ∧
      depScopes assigned stmt = [.opened start.ref]
  unique : ∀ first ∈ dsl.actions, ∀ second ∈ dsl.actions, first.action = .loopEnd →
    second.action = .loopEnd → depScopes assigned first = depScopes assigned second →
      first = second
  closed : ∀ start ∈ dsl.actions, start.action = .loopStart →
    ∃ stmt ∈ dsl.actions, stmt.action = .loopEnd ∧
      depScopes assigned stmt = [.opened start.ref]

variable {dsl : DSLInput} {assigned : ActionScopes}

theorem loopEndByScope_ok {ends : Dict Scope Ref}
    (hEnds : dsl.loopEndByScope assigned = .ok ends) :
    (∀ stmt ∈ dsl.actions, stmt.action = .loopEnd → ∃ scope,
      resolveClosedLoopScope assigned stmt = .ok scope ∧ ends.lookup scope = some stmt.ref) ∧
    ∀ scope ref, ends.lookup scope = some ref → ∃ stmt ∈ dsl.actions,
      stmt.action = .loopEnd ∧ resolveClosedLoopScope assigned stmt = .ok scope := by
  let Inv (done : List ActionStatement) (ends : Dict Scope Ref) : Prop :=
    (∀ stmt ∈ done, ∃ scope,
      resolveClosedLoopScope assigned stmt = .ok scope ∧ ends.lookup scope = some stmt.ref) ∧
    ∀ scope ref, ends.lookup scope = some ref → ∃ stmt ∈ done,
      resolveClosedLoopScope assigned stmt = .ok scope
  have hInv : Inv ([] ++ dsl.actions.filter fun stmt => stmt.action = .loopEnd) ends := by
    have hStart : Inv [] ∅ := by
      constructor
      · intro _ hStmt
        cases hStmt
      · intro _ _ hLookup
        cases hLookup
    refine foldlM_invariant Inv ?_ hStart hEnds
    rintro done stmt before after ⟨hDone, hKeys⟩ hAdd
    obtain ⟨scope, hScope, hAdd⟩ := bind_eq_ok.mp hAdd
    cases hOld : before.lookup scope with
    | some existing =>
        simp only [hOld] at hAdd
        cases hAdd
    | none =>
        simp only [hOld] at hAdd
        cases hAdd
        refine ⟨fun other hOther => ?_, fun key ref hLookup => ?_⟩
        · rcases List.mem_append.mp hOther with hOther | hOther
          · obtain ⟨otherScope, hResolved, hLookup⟩ := hDone other hOther
            refine ⟨otherScope, hResolved, ?_⟩
            rw [Dict.lookup_insert_eq, if_neg, hLookup]
            rintro rfl
            rw [hOld] at hLookup
            cases hLookup
          · rw [List.mem_singleton.mp hOther]
            exact ⟨scope, hScope, AList.lookup_insert _⟩
        · rw [Dict.lookup_insert_eq] at hLookup
          split at hLookup
          · rename_i hKey
            exact ⟨stmt, List.mem_append_right _ List.mem_cons_self, hKey ▸ hScope⟩
          · obtain ⟨other, hOther, hResolved⟩ := hKeys key ref hLookup
            exact ⟨other, List.mem_append_left _ hOther, hResolved⟩
  rw [List.nil_append] at hInv
  refine ⟨fun stmt hStmt hAction => hInv.1 stmt ?_, fun scope ref hLookup => ?_⟩
  · exact List.mem_filter.mpr ⟨hStmt, decide_eq_true hAction⟩
  · obtain ⟨stmt, hStmt, hResolved⟩ := hInv.2 scope ref hLookup
    obtain ⟨hMem, hAction⟩ := List.mem_filter.mp hStmt
    exact ⟨stmt, hMem, of_decide_eq_true hAction, hResolved⟩

theorem Placed.loopStart_of_opener (hPlaced : dsl.Placed assigned) {scope parent : Scope}
    (hParent : assigned.parentOf scope = some parent)
    (hOpener : assigned.openers.lookup scope = some .loopStart) :
    ∃ start ∈ dsl.actions, start.action = .loopStart ∧ scope = .opened start.ref := by
  obtain ⟨order, hOrder⟩ := hPlaced.exists_order
  cases scope with
  | root => rw [hOrder.mapped.root_opener] at hOpener; cases hOpener
  | opened ref =>
      obtain ⟨start, hEntry, rfl, -, -, hAction⟩ := hOrder.opener_entry hParent
      rw [hOpener] at hAction
      exact ⟨start, (hOrder.mem_iff start).mp ⟨_, hEntry⟩, (Option.some.inj hAction).symm, rfl⟩

theorem Placed.opener_of_loopStart (hPlaced : dsl.Placed assigned) {start : ActionStatement}
    (hStart : start ∈ dsl.actions) (hAction : start.action = .loopStart) :
    assigned.openers.lookup (.opened start.ref) = some .loopStart := by
  obtain ⟨order, hOrder⟩ := hPlaced.exists_order
  obtain ⟨current, hEntry⟩ := (hOrder.mem_iff start).mpr hStart
  have hOpener : start.action.isOpener := by simp [hAction, ActionType.isOpener]
  rw [(hOrder.opener_parent hEntry hOpener).2.2, hAction]

theorem Placed.loopsMatched_of_opener (hPlaced : dsl.Placed assigned)
    (hOpener : dsl.HasOpener) : dsl.LoopsMatched assigned := by
  obtain ⟨hScopes, hSync⟩ := hPlaced.validated.scope_passes hOpener hPlaced.assigned_eq
  have hResolves : ∀ stmt ∈ dsl.actions, stmt.action = .loopEnd →
      ∃ start ∈ dsl.actions, start.action = .loopStart ∧
        resolveClosedLoopScope assigned stmt = .ok (.opened start.ref) := by
    intro stmt hStmt hAction
    obtain ⟨scope, hScope⟩ := loopEnd_resolved_of_validated hScopes hStmt hAction
    obtain ⟨-, hParent, hKind⟩ := resolveClosedLoopScope_ok hScope
    obtain ⟨start, hStart, hStartAction, rfl⟩ := hPlaced.loopStart_of_opener hParent hKind
    exact ⟨start, hStart, hStartAction, hScope⟩
  have hIsLoopScope : ∀ start ∈ dsl.actions, start.action = .loopStart →
      Scope.opened start.ref ∈
        (assigned.openers.entries.filter fun entry => entry.2 = .loopStart).map Sigma.fst := by
    intro start hStart hAction
    refine List.mem_map.mpr ⟨⟨.opened start.ref, .loopStart⟩, List.mem_filter.mpr ⟨?_, ?_⟩, rfl⟩
    · exact (Dict.mem_entries_iff _ _ _).mpr (hPlaced.opener_of_loopStart hStart hAction)
    · exact decide_eq_true rfl
  unfold validateLoopScopeSynchronization at hSync
  dsimp only at hSync
  split at hSync
  · rename_i hEmpty
    rw [List.isEmpty_iff] at hEmpty
    have hNone : ∀ start ∈ dsl.actions, start.action ≠ .loopStart := by
      intro start hStart hAction
      have hScope := hIsLoopScope start hStart hAction
      rw [hEmpty] at hScope
      cases hScope
    refine ⟨fun stmt hStmt hAction => ?_, fun first hFirst _ _ hAction => ?_,
      fun start hStart hAction => absurd hAction (hNone start hStart)⟩
    · obtain ⟨start, hStart, hStartAction, -⟩ := hResolves stmt hStmt hAction
      exact absurd hStartAction (hNone start hStart)
    · obtain ⟨start, hStart, hStartAction, -⟩ := hResolves first hFirst hAction
      exact absurd hStartAction (hNone start hStart)
  · obtain ⟨ends, hEnds, hSync⟩ := bind_eq_ok.mp hSync
    rw [then_eq_ok, forM_eq_ok] at hSync
    obtain ⟨hMissing, -⟩ := hSync
    obtain ⟨hEach, hKeys⟩ := loopEndByScope_ok hEnds
    refine ⟨fun stmt hStmt hAction => ?_,
      fun first hFirst second hSecond hFirstEnd hSecondEnd hSame => ?_,
      fun start hStart hAction => ?_⟩
    · obtain ⟨start, hStart, hStartAction, hResolved⟩ := hResolves stmt hStmt hAction
      exact ⟨start, hStart, hStartAction, (resolveClosedLoopScope_ok hResolved).1⟩
    · obtain ⟨firstScope, hFirstOk, hFirstLookup⟩ := hEach first hFirst hFirstEnd
      obtain ⟨secondScope, hSecondOk, hSecondLookup⟩ := hEach second hSecond hSecondEnd
      rw [(resolveClosedLoopScope_ok hFirstOk).1, (resolveClosedLoopScope_ok hSecondOk).1,
        List.cons.injEq] at hSame
      rw [hSame.1, hSecondLookup] at hFirstLookup
      exact List.inj_on_of_nodup_map hPlaced.validated.refs_nodup hFirst hSecond
        (Option.some.inj hFirstLookup).symm
    · have hFound := hMissing _ (hIsLoopScope start hStart hAction)
      cases hLookup : ends.lookup (.opened start.ref) with
      | none =>
          rw [if_pos hLookup] at hFound
          cases hFound
      | some ref =>
          obtain ⟨stmt, hStmt, hStmtEnd, hResolved⟩ := hKeys _ ref hLookup
          exact ⟨stmt, hStmt, hStmtEnd, (resolveClosedLoopScope_ok hResolved).1⟩

theorem Placed.loopsMatched (hPlaced : dsl.Placed assigned) : dsl.LoopsMatched assigned := by
  by_cases hOpener : dsl.HasOpener
  · exact hPlaced.loopsMatched_of_opener hOpener
  · have hPlain : ∀ stmt ∈ dsl.actions, stmt.action ≠ .loopEnd ∧ stmt.action ≠ .loopStart := by
      intro stmt hStmt
      have hPlain := (hPlaced.root_of_no_opener hOpener hStmt).1
      constructor <;> intro hAction <;>
        simp [hAction, ActionType.isPlain, ActionType.isOpener, ActionType.isCloser] at hPlain
    exact ⟨fun stmt hStmt hAction => absurd hAction (hPlain stmt hStmt).1,
      fun first hFirst _ _ hAction => absurd hAction (hPlain first hFirst).1,
      fun start hStart hAction => absurd hAction (hPlain start hStart).2⟩

end DSLInput
end Tracecat
