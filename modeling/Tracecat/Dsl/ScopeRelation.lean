import Tracecat.Lib.Acyclic
import Tracecat.Dsl.TopoProgress

/-!
# Scopes as a relation

The scope of an action, defined from the dependencies and the kinds of the
actions alone.  On a definition whose edges obey the scope rule it is the scope
that the sort assigns, in whatever order the actions are listed.
-/

namespace Tracecat

/-- An action lies in a scope: an opener in the scope that it opens, a plain
action where a dependency lies, and a closer where the opener of a dependency's
scope was reached. -/
inductive LiesIn (dependsOn : Ref → Ref → Prop) (hasAction : Ref → ActionType → Prop) :
    Ref → Scope → Prop
  | opener {ref : Ref} {action : ActionType} (hAction : hasAction ref action)
      (hOpener : action.isOpener) : LiesIn dependsOn hasAction ref (.opened ref)
  | plainEntry {ref : Ref} {action : ActionType} (hAction : hasAction ref action)
      (hPlain : action.isPlain) (hEntry : ∀ dep, ¬ dependsOn ref dep) :
      LiesIn dependsOn hasAction ref .root
  | plain {ref dep : Ref} {action : ActionType} {scope : Scope} (hAction : hasAction ref action)
      (hPlain : action.isPlain) (hEdge : dependsOn ref dep)
      (hDep : LiesIn dependsOn hasAction dep scope) : LiesIn dependsOn hasAction ref scope
  | closerEntry {ref dep opener : Ref} {action : ActionType} (hAction : hasAction ref action)
      (hCloser : action.isCloser) (hEdge : dependsOn ref dep)
      (hDep : LiesIn dependsOn hasAction dep (.opened opener))
      (hEntry : ∀ above, ¬ dependsOn opener above) : LiesIn dependsOn hasAction ref .root
  | closer {ref dep opener above : Ref} {action : ActionType} {scope : Scope}
      (hAction : hasAction ref action) (hCloser : action.isCloser) (hEdge : dependsOn ref dep)
      (hDep : LiesIn dependsOn hasAction dep (.opened opener)) (hAbove : dependsOn opener above)
      (hOutside : LiesIn dependsOn hasAction above scope) : LiesIn dependsOn hasAction ref scope

namespace DSLInput

variable {dsl : DSLInput} {assigned : ActionScopes}

/-- `ref` is an action of the kind. -/
def HasAction (dsl : DSLInput) (ref : Ref) (action : ActionType) : Prop :=
  ∃ stmt ∈ dsl.actions, stmt.ref = ref ∧ stmt.action = action

/-- No gather has, among its deepest dependencies, one that lies in the scope of
a loop. -/
def NoDeepLoopGather (dsl : DSLInput) : Prop :=
  ∀ gather dep loop, dsl.HasAction gather .transformGather →
    Deepest dsl.DependsOn gather dep → dsl.HasAction loop .loopStart →
      ¬ LiesIn dsl.DependsOn dsl.HasAction dep (.opened loop)

theorem ScopeOrder.current_of_no_deps {order : List (ActionStatement × Scope)}
    (hOrder : dsl.ScopeOrder assigned order) {stmt : ActionStatement} {current : Scope}
    (hEntry : (stmt, current) ∈ order) (hNone : ∀ dep, ¬ dsl.DependsOn stmt.ref dep) :
    current = .root := by
  have hStmt := (hOrder.mem_iff stmt).mp ⟨current, hEntry⟩
  rcases hOrder.arrives hEntry with ⟨-, hRoot⟩ | ⟨dep, hDep, -⟩
  · exact hRoot
  · exact absurd ⟨stmt, hStmt, rfl, dep, hDep, rfl⟩ (hNone dep.1)

namespace Placed

variable (hPlaced : dsl.Placed assigned)
include hPlaced

theorem edgeRule_of_dependsOn {stmt : ActionStatement} (hStmt : stmt ∈ dsl.actions) {src : Ref}
    (hEdge : dsl.DependsOn stmt.ref src) :
    ∃ dep ∈ stmt.deps, dep.1 = src ∧ EdgeRule assigned stmt dep := by
  obtain ⟨dep, hDep, hSource⟩ := (hPlaced.validated.resolved.dependsOn_iff hStmt).mp hEdge
  exact ⟨dep, hDep, hSource, hPlaced.edgeRule hStmt hDep⟩

theorem plain_edge {stmt : ActionStatement} (hStmt : stmt ∈ dsl.actions)
    (hPlain : stmt.action.isPlain) {src : Ref} (hEdge : dsl.DependsOn stmt.ref src) :
    assigned.scopeOf src = assigned.scopeOf stmt.ref := by
  obtain ⟨dep, -, rfl, hRule⟩ := hPlaced.edgeRule_of_dependsOn hStmt hEdge
  simp only [ActionType.isPlain, Bool.and_eq_true, Bool.not_eq_true'] at hPlain
  unfold EdgeRule at hRule
  rwa [if_neg (by simp [hPlain.1]), if_neg (by simp [hPlain.2])] at hRule

theorem closer_edge {stmt : ActionStatement} (hStmt : stmt ∈ dsl.actions)
    (hCloser : stmt.action.isCloser) {src : Ref} (hEdge : dsl.DependsOn stmt.ref src) :
    assigned.parentOf (assigned.scopeOf src) = some (assigned.scopeOf stmt.ref) := by
  obtain ⟨dep, -, rfl, hRule⟩ := hPlaced.edgeRule_of_dependsOn hStmt hEdge
  have hOpener : ¬ stmt.action.isOpener := by
    cases hAction : stmt.action <;> simp_all [ActionType.isOpener, ActionType.isCloser]
  unfold EdgeRule at hRule
  rwa [if_neg hOpener, if_pos hCloser] at hRule

theorem opener_edge {stmt : ActionStatement} (hStmt : stmt ∈ dsl.actions)
    (hOpener : stmt.action.isOpener) {src : Ref} (hEdge : dsl.DependsOn stmt.ref src) :
    assigned.parentOf (assigned.scopeOf stmt.ref) = some (assigned.scopeOf src) := by
  obtain ⟨dep, -, rfl, hRule⟩ := hPlaced.edgeRule_of_dependsOn hStmt hEdge
  unfold EdgeRule at hRule
  rwa [if_pos hOpener] at hRule

theorem scopeOf_of_liesIn {ref : Ref} {scope : Scope}
    (hLies : LiesIn dsl.DependsOn dsl.HasAction ref scope) : assigned.scopeOf ref = scope := by
  obtain ⟨order, hOrder⟩ := hPlaced.exists_order
  have hResolved := hPlaced.validated.resolved
  -- the scope that a closer's dependency lies in was opened from the closer's scope
  have hClosed : ∀ stmt ∈ dsl.actions, stmt.action.isCloser → ∀ dep opener : Ref,
      dsl.DependsOn stmt.ref dep → assigned.scopeOf dep = .opened opener →
      ∃ other, (other, assigned.scopeOf stmt.ref) ∈ order ∧ other.ref = opener ∧
        other.action.isOpener ∧ assigned.scopeOf opener = .opened opener := by
    intro stmt hStmt hCloser dep opener hEdge hScope
    have hParent := hPlaced.closer_edge hStmt hCloser hEdge
    rw [hScope] at hParent
    obtain ⟨other, hEntry, hRef, hOpener, hOpened, -⟩ := hOrder.opener_entry hParent
    exact ⟨other, hEntry, hRef, hOpener, hOpened⟩
  induction hLies with
  | opener hAction hOpener =>
      obtain ⟨stmt, hStmt, rfl, rfl⟩ := hAction
      obtain ⟨current, hEntry⟩ := (hOrder.mem_iff stmt).mpr hStmt
      exact (hOrder.opener_parent hEntry hOpener).1
  | plainEntry hAction hPlain hNone =>
      obtain ⟨stmt, hStmt, rfl, rfl⟩ := hAction
      obtain ⟨current, hEntry⟩ := (hOrder.mem_iff stmt).mpr hStmt
      rw [hOrder.plain_scope hEntry hPlain]
      exact hOrder.current_of_no_deps hEntry hNone
  | plain hAction hPlain hEdge _ ih =>
      obtain ⟨stmt, hStmt, rfl, rfl⟩ := hAction
      rw [← hPlaced.plain_edge hStmt hPlain hEdge, ih]
  | closerEntry hAction hCloser hEdge _ hNone ih =>
      obtain ⟨stmt, hStmt, rfl, rfl⟩ := hAction
      obtain ⟨other, hEntry, rfl, -⟩ := hClosed stmt hStmt hCloser _ _ hEdge ih
      exact hOrder.current_of_no_deps hEntry hNone
  | closer hAction hCloser hEdge _ hAbove _ ih ihAbove =>
      obtain ⟨stmt, hStmt, rfl, rfl⟩ := hAction
      obtain ⟨other, hEntry, rfl, hOpener, hOpened⟩ := hClosed stmt hStmt hCloser _ _ hEdge ih
      have hOther := (hOrder.mem_iff other).mp ⟨_, hEntry⟩
      have hInside := hPlaced.opener_edge hOther hOpener hAbove
      rw [hOpened, (hOrder.opener_parent hEntry hOpener).2.1, ihAbove] at hInside
      exact Option.some.inj hInside

theorem liesIn_scopeOf {stmt : ActionStatement} (hStmt : stmt ∈ dsl.actions) :
    LiesIn dsl.DependsOn dsl.HasAction stmt.ref (assigned.scopeOf stmt.ref) := by
  obtain ⟨order, hOrder⟩ := hPlaced.exists_order
  obtain ⟨rank, -, hRank⟩ := hOrder.sorted.exists_rank hOrder.nodup
  have hResolved := hPlaced.validated.resolved
  -- by the order of the visits: the scope of a visit comes from a dependency
  induction hBound : rank stmt.ref using Nat.strongRecOn generalizing stmt with
  | _ bound ih =>
      subst hBound
      have hReached : ∀ other current, (other, current) ∈ order → rank other.ref ≤ rank stmt.ref →
          ((∀ dep, ¬ dsl.DependsOn other.ref dep) ∧ current = .root) ∨
            ∃ dep, dsl.DependsOn other.ref dep ∧
              LiesIn dsl.DependsOn dsl.HasAction dep current := by
        intro other current hEntry hLe
        have hOther := (hOrder.mem_iff other).mp ⟨current, hEntry⟩
        rcases hOrder.arrives hEntry with ⟨hDeps, hRoot⟩ | ⟨dep, hDep, -, -, hScope⟩
        · refine Or.inl ⟨fun dep hEdge => ?_, hRoot⟩
          obtain ⟨edge, hMem, -⟩ := (hResolved.dependsOn_iff hOther).mp hEdge
          rw [hDeps] at hMem
          cases hMem
        · refine Or.inr ⟨dep.1, ⟨other, hOther, rfl, dep, hDep, rfl⟩, ?_⟩
          obtain ⟨source, hSource, hRef⟩ :=
            List.mem_map.mp (hResolved.deps_known other hOther dep hDep)
          have hLess : rank source.ref < rank stmt.ref := by
            rw [hRef]
            exact Nat.lt_of_lt_of_le (hRank _ hEntry dep hDep) hLe
          rw [← hScope, ← hRef]
          exact ih _ hLess hSource rfl
      obtain ⟨current, hEntry⟩ := (hOrder.mem_iff stmt).mpr hStmt
      have hKind : dsl.HasAction stmt.ref stmt.action := ⟨stmt, hStmt, rfl, rfl⟩
      by_cases hOpener : stmt.action.isOpener
      · rw [(hOrder.opener_parent hEntry hOpener).1]
        exact .opener hKind hOpener
      · by_cases hCloser : stmt.action.isCloser
        · obtain ⟨hParent, -⟩ := hOrder.closer_parent hEntry hCloser
          rcases hReached stmt current hEntry (Nat.le_refl _) with ⟨-, rfl⟩ | ⟨dep, hEdge, hDep⟩
          · rw [hOrder.parentOf_root] at hParent
            cases hParent
          · cases current with
            | root =>
                rw [hOrder.parentOf_root] at hParent
                cases hParent
            | opened opener =>
                obtain ⟨other, hOther, rfl, -⟩ := hOrder.opener_entry hParent
                have hBefore : rank other.ref + 1 ≤ rank stmt.ref :=
                  (hOrder.scope_bounds hRank hEntry).1.2
                rcases hReached other _ hOther (by omega) with ⟨hNone, hRoot⟩ | ⟨above, hUp, hLies⟩
                · rw [hRoot]
                  exact .closerEntry hKind hCloser hEdge hDep hNone
                · exact .closer hKind hCloser hEdge hDep hUp hLies
        · have hPlain : stmt.action.isPlain := by simp [ActionType.isPlain, hOpener, hCloser]
          rw [hOrder.plain_scope hEntry hPlain]
          rcases hReached stmt current hEntry (Nat.le_refl _) with
            ⟨hNone, rfl⟩ | ⟨dep, hEdge, hDep⟩
          · exact .plainEntry hKind hPlain hNone
          · exact .plain hKind hPlain hEdge hDep

theorem liesIn_dep {ref src : Ref} (hEdge : dsl.DependsOn ref src) :
    LiesIn dsl.DependsOn dsl.HasAction src (assigned.scopeOf src) := by
  obtain ⟨stmt, hStmt, -, dep, hDep, rfl⟩ := hEdge
  obtain ⟨source, hSource, hRef⟩ :=
    List.mem_map.mp (hPlaced.validated.deps_known stmt hStmt dep hDep)
  rw [← hRef]
  exact hPlaced.liesIn_scopeOf hSource

end Placed
end DSLInput
end Tracecat
