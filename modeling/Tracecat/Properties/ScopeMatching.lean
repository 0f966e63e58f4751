import Mathlib.Data.Finset.Card
import Tracecat.Dsl.LoopEnds
import Tracecat.Dsl.ScopeRelation

/-!
# Openers and closers

The validator resolves the scope that a loop end closes, and no second loop end
may close it.  Of a gather it checks each dependency for itself, and it counts
the gathers.  So the loops of an accepted definition are always matched, and
its gathers are matched exactly when the dependencies of each come from inside
one opener, and no two gathers have dependencies inside one scatter.
-/

namespace Tracecat
namespace DSLInput

/-- The scopes that the validator assigns.  It skips the assignment when no
action opens a scope, and then every action is in the root scope. -/
def actionScopes (dsl : DSLInput) : ActionScopes :=
  dsl.assignActionScopes.toOption.getD {}

/-- Every gather closes the scope of one scatter and every loop end that of one
loop start, no scope is closed twice, and every loop is closed. -/
structure WellMatched (dsl : DSLInput) : Prop where
  gather_closes : ∀ gather ∈ dsl.actions, gather.action = .transformGather →
    ∃ scatter ∈ dsl.actions, scatter.action = .transformScatter ∧
      depScopes dsl.actionScopes gather = [.opened scatter.ref]
  gather_unique : ∀ first ∈ dsl.actions, ∀ second ∈ dsl.actions,
    first.action = .transformGather → second.action = .transformGather →
      depScopes dsl.actionScopes first = depScopes dsl.actionScopes second → first = second
  loops : dsl.LoopsMatched dsl.actionScopes

/-- By the dependencies and the kinds of the actions, no gather has dependencies
inside two openers, and no two gathers have dependencies inside one scatter. -/
structure GathersApart (dsl : DSLInput) : Prop where
  one_opener : ∀ gather dep other first second, dsl.HasAction gather .transformGather →
    dsl.DependsOn gather dep → dsl.DependsOn gather other →
      LiesIn dsl.DependsOn dsl.HasAction dep (.opened first) →
        LiesIn dsl.DependsOn dsl.HasAction other (.opened second) → first = second
  one_gather : ∀ gather again dep other scatter, dsl.HasAction gather .transformGather →
    dsl.HasAction again .transformGather → dsl.HasAction scatter .transformScatter →
      dsl.DependsOn gather dep → dsl.DependsOn again other →
        LiesIn dsl.DependsOn dsl.HasAction dep (.opened scatter) →
          LiesIn dsl.DependsOn dsl.HasAction other (.opened scatter) → gather = again

variable {dsl : DSLInput} {assigned : ActionScopes}

/-- The dependencies of a statement are in one scope when they are in the same
scope pairwise. -/
theorem depScopes_length_le_one {stmt : ActionStatement}
    (hSame : ∀ dep ∈ stmt.deps, ∀ other ∈ stmt.deps,
      assigned.scopeOf dep.1 = assigned.scopeOf other.1) :
    (depScopes assigned stmt).length ≤ 1 := by
  have hNodup : (depScopes assigned stmt).Nodup := List.nodup_dedup _
  rw [← List.toFinset_card_of_nodup hNodup]
  refine Finset.card_le_one.mpr fun first hFirst second hSecond => ?_
  rw [List.mem_toFinset, depScopes, List.mem_dedup, List.mem_map] at hFirst hSecond
  obtain ⟨dep, hDep, rfl⟩ := hFirst
  obtain ⟨other, hOther, rfl⟩ := hSecond
  exact hSame dep hDep other hOther

theorem Placed.gather_closes (hPlaced : dsl.Placed assigned) {gather : ActionStatement}
    (hGather : gather ∈ dsl.actions) (hAction : gather.action = .transformGather)
    (hSame : ∀ dep ∈ gather.deps, ∀ other ∈ gather.deps,
      assigned.scopeOf dep.1 = assigned.scopeOf other.1) :
    ∃ scatter ∈ dsl.actions, scatter.action = .transformScatter ∧
      depScopes assigned gather = [.opened scatter.ref] := by
  have hLength := depScopes_length_le_one hSame
  have hMixed : ¬ dsl.IsMixedGather assigned gather.ref := by
    rintro ⟨stmt, hStmt, -, hMany⟩
    rw [hPlaced.stmt?_eq hGather] at hStmt
    cases hStmt
    exact absurd hLength (not_le.mpr hMany)
  obtain ⟨scatter, hScatter, hScatterAction, hScope, -⟩ :=
    hPlaced.path_gather hGather hAction hMixed
  refine ⟨scatter, hScatter, hScatterAction, ?_⟩
  unfold executionScope at hScope
  simp only [hPlaced.stmt?_eq hGather] at hScope
  rw [if_neg (by simp [hAction, ActionType.isOpener]),
    if_pos (by simp [hAction, ActionType.isCloser])] at hScope
  cases hScopes : depScopes assigned gather with
  | nil =>
      rw [hScopes] at hScope
      cases hScope
  | cons first rest =>
      rw [hScopes] at hScope hLength
      simp only [List.headD_cons] at hScope
      cases rest with
      | nil => rw [hScope]
      | cons second rest => simp at hLength

theorem Placed.dep_opened (hPlaced : dsl.Placed assigned) {gather : ActionStatement}
    (hGather : gather ∈ dsl.actions) (hAction : gather.action = .transformGather) {dep : Ref}
    (hEdge : dsl.DependsOn gather.ref dep) : ∃ opener, assigned.scopeOf dep = .opened opener := by
  obtain ⟨order, hOrder⟩ := hPlaced.exists_order
  have hParent := hPlaced.closer_edge hGather (by simp [hAction, ActionType.isCloser]) hEdge
  cases hScope : assigned.scopeOf dep with
  | root =>
      rw [hScope, hOrder.parentOf_root] at hParent
      cases hParent
  | opened opener => exact ⟨opener, rfl⟩

theorem Placed.same_scope (hPlaced : dsl.Placed assigned) (hApart : dsl.GathersApart)
    {gather : ActionStatement} (hGather : gather ∈ dsl.actions)
    (hAction : gather.action = .transformGather) :
    ∀ dep ∈ gather.deps, ∀ other ∈ gather.deps,
      assigned.scopeOf dep.1 = assigned.scopeOf other.1 := by
  intro dep hDep other hOther
  have hEdge : dsl.DependsOn gather.ref dep.1 := ⟨gather, hGather, rfl, dep, hDep, rfl⟩
  have hOtherEdge : dsl.DependsOn gather.ref other.1 := ⟨gather, hGather, rfl, other, hOther, rfl⟩
  obtain ⟨first, hFirst⟩ := hPlaced.dep_opened hGather hAction hEdge
  obtain ⟨second, hSecond⟩ := hPlaced.dep_opened hGather hAction hOtherEdge
  have hSame := hApart.one_opener gather.ref dep.1 other.1 first second
    ⟨gather, hGather, rfl, hAction⟩ hEdge hOtherEdge (hFirst ▸ hPlaced.liesIn_dep hEdge)
    (hSecond ▸ hPlaced.liesIn_dep hOtherEdge)
  rw [hFirst, hSecond, hSame]

/-- An accepted definition has been sorted, or opens no scope. -/
theorem Accepted.placed_or_plain (hAccepted : dsl.Accepted) :
    dsl.Placed dsl.actionScopes ∨ ∀ stmt ∈ dsl.actions, stmt.action.isPlain := by
  have hValid := hAccepted.validated
  by_cases hOpener : dsl.HasOpener
  · obtain ⟨assigned, hAssigned⟩ := hValid.assignActionScopes_of_opener hOpener
    have hEq : dsl.actionScopes = assigned := by
      rw [actionScopes, hAssigned]
      rfl
    exact Or.inl ⟨hValid, hEq ▸ hAssigned⟩
  · exact Or.inr fun _ hStmt => hValid.plain_of_no_opener hOpener hStmt

end DSLInput

open DSLInput

/-- The scopes of an accepted definition are well matched exactly when its
gathers keep apart. -/
theorem accepted_wellMatched_iff {dsl : DSLInput} (hAccepted : dsl.Accepted) :
    dsl.WellMatched ↔ dsl.GathersApart := by
  rcases hAccepted.placed_or_plain with hPlaced | hPlain
  · constructor
    · intro hMatched
      -- a gather closes the scope that any of its dependencies lies in
      have hScope : ∀ gather ∈ dsl.actions, gather.action = .transformGather →
          ∀ dep opener, dsl.DependsOn gather.ref dep →
            LiesIn dsl.DependsOn dsl.HasAction dep (.opened opener) →
              depScopes dsl.actionScopes gather = [.opened opener] := by
        intro gather hGather hAction dep opener hEdge hLies
        obtain ⟨edge, hDep, rfl⟩ := (hPlaced.validated.resolved.dependsOn_iff hGather).mp hEdge
        obtain ⟨scatter, -, -, hCloses⟩ := hMatched.gather_closes gather hGather hAction
        have hMem := scopeOf_mem_depScopes dsl.actionScopes hDep
        rw [hPlaced.scopeOf_of_liesIn hLies, hCloses, List.mem_singleton] at hMem
        rw [hCloses, hMem]
      constructor
      · rintro _ dep other first second ⟨gather, hGather, rfl, hAction⟩ hEdge hOtherEdge hFirst
          hSecond
        have hSame := (hScope gather hGather hAction dep first hEdge hFirst).symm.trans
          (hScope gather hGather hAction other second hOtherEdge hSecond)
        exact Scope.opened.inj (List.cons.inj hSame).1
      · rintro _ _ dep other scatter ⟨gather, hGather, rfl, hAction⟩ ⟨again, hAgain, rfl, hKind⟩ -
          hEdge hOtherEdge hFirst hSecond
        exact congrArg ActionStatement.ref
          (hMatched.gather_unique gather hGather again hAgain hAction hKind
            ((hScope gather hGather hAction dep scatter hEdge hFirst).trans
              (hScope again hAgain hKind other scatter hOtherEdge hSecond).symm))
    · intro hApart
      have hCloses : ∀ gather ∈ dsl.actions, gather.action = .transformGather →
          ∃ scatter ∈ dsl.actions, scatter.action = .transformScatter ∧
            depScopes dsl.actionScopes gather = [.opened scatter.ref] :=
        fun gather hGather hAction =>
          hPlaced.gather_closes hGather hAction (hPlaced.same_scope hApart hGather hAction)
      refine ⟨hCloses, fun first hFirst second hSecond hFirstGather hSecondGather hSame => ?_,
        hPlaced.loopsMatched⟩
      obtain ⟨scatter, hScatter, hKind, hFirstScope⟩ := hCloses first hFirst hFirstGather
      have hInside {gather : ActionStatement} (hGather : gather ∈ dsl.actions)
          (hScope : depScopes dsl.actionScopes gather = [.opened scatter.ref]) :
          ∃ dep, dsl.DependsOn gather.ref dep ∧
            LiesIn dsl.DependsOn dsl.HasAction dep (.opened scatter.ref) := by
        have hMem : Scope.opened scatter.ref ∈ depScopes dsl.actionScopes gather :=
          hScope ▸ List.mem_singleton_self _
        rw [depScopes, List.mem_dedup] at hMem
        obtain ⟨dep, hDep, hDepScope⟩ := List.mem_map.mp hMem
        have hEdge : dsl.DependsOn gather.ref dep.1 := ⟨gather, hGather, rfl, dep, hDep, rfl⟩
        exact ⟨dep.1, hEdge, hDepScope ▸ hPlaced.liesIn_dep hEdge⟩
      obtain ⟨dep, hEdge, hDep⟩ := hInside hFirst hFirstScope
      obtain ⟨other, hOtherEdge, hOther⟩ := hInside hSecond (hSame ▸ hFirstScope)
      have hRef := hApart.one_gather first.ref second.ref dep other scatter.ref
        ⟨first, hFirst, rfl, hFirstGather⟩ ⟨second, hSecond, rfl, hSecondGather⟩
        ⟨scatter, hScatter, rfl, hKind⟩ hEdge hOtherEdge hDep hOther
      exact List.inj_on_of_nodup_map hPlaced.validated.refs_nodup hFirst hSecond hRef
  · have hNone (action : ActionType) (hAction : action.isPlain = false) :
        ∀ stmt ∈ dsl.actions, stmt.action ≠ action := by
      rintro stmt hStmt rfl
      rw [hPlain stmt hStmt] at hAction
      cases hAction
    have hGather := hNone .transformGather rfl
    have hLoopEnd := hNone .loopEnd rfl
    have hLoopStart := hNone .loopStart rfl
    refine iff_of_true ?_ ?_
    · exact ⟨fun gather hMem hAction => absurd hAction (hGather gather hMem),
        fun first hFirst _ _ hAction => absurd hAction (hGather first hFirst),
        fun stmt hMem hAction => absurd hAction (hLoopEnd stmt hMem),
        fun first hFirst _ _ hAction => absurd hAction (hLoopEnd first hFirst),
        fun start hMem hAction => absurd hAction (hLoopStart start hMem)⟩
    · constructor <;> rintro _ _ _ _ _ ⟨gather, hMem, -, hAction⟩ <;>
        exact absurd hAction (hGather gather hMem)

/-- A scatter, an action on its items and the gather of their results. -/
def oneScatter : DSLInput where
  actions :=
    [{ ref := "each", action := .transformScatter, args := .scatter { collection := {} } },
      { ref := "work", action := .udf "core.noop", dependsOn := ["each"] },
      { ref := "all", action := .transformGather, args := .gather { items := {} },
        dependsOn := ["work"] }]

theorem oneScatter_wellMatched : oneScatter.WellMatched := by
  have hAccepted : oneScatter.Accepted := by decide +kernel
  have hPlaced : oneScatter.Placed oneScatter.actionScopes := by
    refine hAccepted.placed_or_plain.resolve_right fun hPlain => ?_
    exact absurd (hPlain _ List.mem_cons_self) (by decide)
  have hOnly : ∀ stmt ∈ oneScatter.actions, stmt.action = .transformGather →
      stmt.ref = "all" ∧ stmt.deps.map Prod.fst = ["work"] := by
    decide +kernel
  refine (accepted_wellMatched_iff hAccepted).mpr ⟨?_, ?_⟩
  · rintro _ dep other first second ⟨gather, hGather, rfl, hAction⟩ hEdge hOtherEdge hFirst hSecond
    have hWork : ∀ src, oneScatter.DependsOn gather.ref src → src = "work" := by
      intro src hSrc
      obtain ⟨edge, hMem, rfl⟩ :=
        (hPlaced.validated.resolved.dependsOn_iff hGather).mp hSrc
      rw [← List.mem_singleton, ← (hOnly gather hGather hAction).2]
      exact List.mem_map_of_mem hMem
    rw [hWork dep hEdge] at hFirst
    rw [hWork other hOtherEdge] at hSecond
    exact Scope.opened.inj
      ((hPlaced.scopeOf_of_liesIn hFirst).symm.trans (hPlaced.scopeOf_of_liesIn hSecond))
  · rintro _ _ _ _ _ ⟨gather, hGather, rfl, hAction⟩ ⟨again, hAgain, rfl, hKind⟩ - - - - -
    rw [(hOnly gather hGather hAction).1, (hOnly again hAgain hKind).1]

/-- One gather on the items of two scatters. -/
def crossedGather : DSLInput where
  actions :=
    [{ ref := "left", action := .transformScatter, args := .scatter { collection := {} } },
      { ref := "right", action := .transformScatter, args := .scatter { collection := {} } },
      { ref := "a", action := .udf "core.noop", dependsOn := ["left"] },
      { ref := "b", action := .udf "core.noop", dependsOn := ["right"] },
      { ref := "both", action := .transformGather, args := .gather { items := {} },
        dependsOn := ["a", "b"] }]

/-- Two gathers on the items of one scatter, beside a scatter without a gather. -/
def sharedScatter : DSLInput where
  actions :=
    [{ ref := "left", action := .transformScatter, args := .scatter { collection := {} } },
      { ref := "right", action := .transformScatter, args := .scatter { collection := {} } },
      { ref := "a", action := .udf "core.noop", dependsOn := ["left"] },
      { ref := "first", action := .transformGather, args := .gather { items := {} },
        dependsOn := ["a"] },
      { ref := "second", action := .transformGather, args := .gather { items := {} },
        dependsOn := ["a"] }]

theorem gathers_not_wellMatched :
    (crossedGather.Accepted ∧ ¬ crossedGather.WellMatched) ∧
      sharedScatter.Accepted ∧ ¬ sharedScatter.WellMatched := by
  refine ⟨⟨by decide +kernel, fun hMatched => ?_⟩, by decide +kernel, fun hMatched => ?_⟩
  · obtain ⟨scatter, -, -, hScopes⟩ := hMatched.gather_closes
      { ref := "both", action := .transformGather, args := .gather { items := {} },
        dependsOn := ["a", "b"] } (by decide +kernel) rfl
    have hTwo := congrArg List.length hScopes
    revert hTwo
    show ¬ _ = 1
    decide +kernel
  · have hSame := hMatched.gather_unique
      { ref := "first", action := .transformGather, args := .gather { items := {} },
        dependsOn := ["a"] } (by decide +kernel)
      { ref := "second", action := .transformGather, args := .gather { items := {} },
        dependsOn := ["a"] } (by decide +kernel) rfl rfl (by decide +kernel)
    revert hSame
    decide +kernel

end Tracecat
