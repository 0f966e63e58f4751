import Tracecat.Dsl.Resorting

/-!
# Validation and the order of the listing

Validation gives every listing of the same actions and dependencies the same
verdict and the same scopes, or none of the listings is accepted, exactly when no
gather has an action in a loop's scope among its deepest dependencies.  The sort
checks that a gather closes a scatter for the one scope in which it visits the
gather, which is that of the dependency visited last.  The edge rule compares a
dependency's opener only when the scopes do not nest, so it passes a loop's scope
beside the scatter's.
-/

namespace Tracecat

open Checks

/-- The same statement with its `depends_on` list permuted. -/
structure ActionStatement.Permuted (stmt other : ActionStatement) : Prop where
  depends_on : stmt.dependsOn.Perm other.dependsOn
  rest : { stmt with dependsOn := [] } = { other with dependsOn := [] }

theorem ActionStatement.Permuted.sameEdges {stmt other : ActionStatement}
    (hPermuted : stmt.Permuted other) : stmt.SameEdges other :=
  ⟨hPermuted.depends_on.map _, hPermuted.rest⟩

namespace DSLInput

open TopoState

/-- The actions and each `depends_on` list are permuted. -/
def Relisting (dsl other : DSLInput) : Prop :=
  ∃ middle : DSLInput, List.Forall₂ ActionStatement.Permuted dsl.actions middle.actions ∧
    middle.SameStatements other

/-- Validation accepts both definitions or neither, and assigns the same scopes
and the same hierarchy. -/
structure SameVerdict (dsl other : DSLInput) : Prop where
  accepted : dsl.Accepted ↔ other.Accepted
  scopes : dsl.Accepted → ∀ assigned, dsl.assignActionScopes = .ok assigned →
    ∃ others, other.assignActionScopes = .ok others ∧ assigned.SameMaps others

variable {dsl middle other : DSLInput} {assigned : ActionScopes}

/-! ## Permuted dependencies -/

namespace SameEdges

theorem dependsOn_of (hSame : dsl.SameEdges other) {ref src : Ref}
    (hEdge : dsl.DependsOn ref src) : other.DependsOn ref src := by
  obtain ⟨stmt, hStmt, rfl, dep, hDep, rfl⟩ := hEdge
  obtain ⟨stmt', hStmt', hPair⟩ := exists_right_of_forall₂ hSame hStmt
  exact ⟨stmt', hStmt', hPair.ref_eq.symm, dep, hPair.deps_perm.mem_iff.mp hDep, rfl⟩

theorem dependsOn_eq (hSame : dsl.SameEdges other) : dsl.DependsOn = other.DependsOn := by
  funext ref src
  exact propext ⟨hSame.dependsOn_of, hSame.symm.dependsOn_of⟩

theorem hasAction_of (hSame : dsl.SameEdges other) {ref : Ref} {action : ActionType}
    (hAction : dsl.HasAction ref action) : other.HasAction ref action := by
  obtain ⟨stmt, hStmt, rfl, rfl⟩ := hAction
  obtain ⟨stmt', hStmt', hPair⟩ := exists_right_of_forall₂ hSame hStmt
  exact ⟨stmt', hStmt', hPair.ref_eq.symm, hPair.action_eq.symm⟩

theorem hasAction_eq (hSame : dsl.SameEdges other) : dsl.HasAction = other.HasAction := by
  funext ref action
  exact propext ⟨hSame.hasAction_of, hSame.symm.hasAction_of⟩

end SameEdges

theorem Relisting.exists_middle (hListing : dsl.Relisting other) :
    ∃ middle : DSLInput, dsl.SameEdges middle ∧ middle.SameStatements other := by
  obtain ⟨middle, hPermuted, hStmts⟩ := hListing
  exact ⟨middle, hPermuted.imp fun _ _ hPair => hPair.sameEdges, hStmts⟩

theorem noDeepLoopGather_congr (hEdges : dsl.DependsOn = other.DependsOn)
    (hKinds : dsl.HasAction = other.HasAction) :
    dsl.NoDeepLoopGather ↔ other.NoDeepLoopGather := by
  unfold NoDeepLoopGather
  rw [hEdges, hKinds]

/-! ## Listings of one verdict -/

namespace SameStatements

theorem validateScatterGatherScopes_ok (hStmts : dsl.SameStatements other)
    (hValid : dsl.Validated) (hShallow : dsl.NoDeepLoopGather) :
    other.validateScatterGatherScopes = .ok () := by
  have hScopes := hValid.scopes
  unfold validateScatterGatherScopes at hScopes ⊢
  simp only [hStmts.length_filter_eq, throw_if_eq_ok] at hScopes ⊢
  refine ⟨hScopes.1, hScopes.2.1, ?_⟩
  have hRest := hScopes.2.2
  split at hRest
  · rename_i hPlain
    rw [if_pos hPlain]
  · rename_i hOpener
    rw [if_neg hOpener]
    obtain ⟨assigned, hAssigned, hPasses⟩ := bind_eq_ok.mp hRest
    obtain ⟨hDependencies, hLoops⟩ := then_eq_ok.mp hPasses
    obtain ⟨others, hOthers, hSame⟩ :=
      hStmts.assignActionScopes_ok ⟨hValid, hAssigned⟩ hShallow
    refine bind_eq_ok.mpr ⟨others, hOthers, then_eq_ok.mpr ⟨?_, ?_⟩⟩
    · exact hStmts.validateScopeDependencies_ok hSame hDependencies
    · exact hStmts.validateLoopScopeSynchronization_ok hSame hValid.refs_nodup hLoops

theorem accepted (hStmts : dsl.SameStatements other) (hAccepted : dsl.Accepted)
    (hShallow : dsl.NoDeepLoopGather) : other.Accepted :=
  hStmts.accepted_of_scopes hAccepted
    (hStmts.validateScatterGatherScopes_ok hAccepted.validated hShallow)

end SameStatements

theorem Relisting.accepted (hListing : dsl.Relisting other) (hAccepted : dsl.Accepted)
    (hShallow : dsl.NoDeepLoopGather) : other.Accepted := by
  obtain ⟨middle, hEdges, hStmts⟩ := hListing.exists_middle
  refine hStmts.accepted (hEdges.accepted hAccepted) ?_
  exact (noDeepLoopGather_congr hEdges.dependsOn_eq hEdges.hasAction_eq).mp hShallow

/-- The listing back is a relisting too, as far as validation can tell. -/
theorem Relisting.accepted_back (hListing : dsl.Relisting other) (hAccepted : other.Accepted)
    (hShallow : dsl.NoDeepLoopGather) : dsl.Accepted := by
  obtain ⟨middle, hEdges, hStmts⟩ := hListing.exists_middle
  refine hEdges.symm.accepted (hStmts.symm.accepted hAccepted ?_)
  have hMiddle := (noDeepLoopGather_congr hEdges.dependsOn_eq hEdges.hasAction_eq).mp hShallow
  exact (noDeepLoopGather_congr hStmts.dependsOn_eq hStmts.hasAction_eq).mp hMiddle

theorem Relisting.sameVerdict (hListing : dsl.Relisting other) (hShallow : dsl.NoDeepLoopGather) :
    dsl.SameVerdict other := by
  refine ⟨⟨fun hAccepted => hListing.accepted hAccepted hShallow,
    fun hAccepted => hListing.accepted_back hAccepted hShallow⟩, ?_⟩
  intro hAccepted assigned hAssigned
  obtain ⟨middle, hEdges, hStmts⟩ := hListing.exists_middle
  rw [hEdges.assignActionScopes_eq] at hAssigned
  refine hStmts.assignActionScopes_ok ⟨(hEdges.accepted hAccepted).validated, hAssigned⟩ ?_
  exact (noDeepLoopGather_congr hEdges.dependsOn_eq hEdges.hasAction_eq).mp hShallow

/-! ## A listing that is rejected -/

/-- The actions of the line after all others. -/
def listLast (dsl : DSLInput) (line : List Ref) : DSLInput where
  actions := dsl.actions.filter (fun stmt => stmt.ref ∉ line) ++
    dsl.actions.filter fun stmt => stmt.ref ∈ line

theorem sameStatements_listLast (dsl : DSLInput) (line : List Ref) :
    dsl.SameStatements (dsl.listLast line) := by
  have hSplit := List.filter_append_perm (fun stmt : ActionStatement => decide (stmt.ref ∉ line))
    dsl.actions
  simp only [decide_not, Bool.not_not] at hSplit
  unfold SameStatements listLast
  simp only [decide_not]
  exact hSplit.symm

theorem relisting_listLast (dsl : DSLInput) (line : List Ref) :
    dsl.Relisting (dsl.listLast line) :=
  ⟨dsl, List.forall₂_same.mpr fun _ _ => ⟨.refl _, rfl⟩, dsl.sameStatements_listLast line⟩

theorem listedLast_listLast (dsl : DSLInput) (line : List Ref) :
    ListedLast (dsl.listLast line) line := by
  unfold ListedLast listLast
  rw [List.map_append, List.pairwise_append]
  have hOthers : ∀ ref ∈ (dsl.actions.filter fun stmt => stmt.ref ∉ line).map
      ActionStatement.ref, ref ∉ line := by
    intro ref hRef
    obtain ⟨stmt, hStmt, rfl⟩ := List.mem_map.mp hRef
    exact of_decide_eq_true (List.mem_filter.mp hStmt).2
  have hLine : ∀ ref ∈ (dsl.actions.filter fun stmt => stmt.ref ∈ line).map
      ActionStatement.ref, ref ∈ line := by
    intro ref hRef
    obtain ⟨stmt, hStmt, rfl⟩ := List.mem_map.mp hRef
    exact of_decide_eq_true (List.mem_filter.mp hStmt).2
  refine ⟨?_, ?_, fun first hFirst second hSecond _ => hLine second hSecond⟩
  · refine List.pairwise_of_forall_mem_list fun first hFirst second _ hIn => ?_
    exact absurd hIn (hOthers first hFirst)
  · exact List.pairwise_of_forall_mem_list fun first _ second hSecond _ => hLine second hSecond

theorem Placed.arrivesDeepest {line : List Ref} (hPlaced : dsl.Placed assigned)
    (hDescent : Descent dsl.DependsOn line) (hListed : ListedLast dsl line)
    {stmt : ActionStatement} (hStmt : stmt ∈ dsl.actions) :
    ∃ current, assigned.Assigns stmt current ∧
      ArrivesDeepest dsl line assigned stmt.ref current := by
  have hResolved := hPlaced.validated.resolved
  obtain ⟨final, hRun, hCount, rfl⟩ := assignActionScopes_ok.mp hPlaced.assigned_eq
  obtain ⟨order, hVisited, hFifo⟩ := Visited.run_keeps (Fifo dsl line) hResolved
    (fun hVisited hComplete hFifo hQueue hMem hVisit =>
      hFifo.turn hVisited hComplete hResolved hDescent hListed hQueue hMem hVisit)
    (visited_start hResolved) (complete_start hResolved) (fifo_start hResolved hDescent hListed)
    dsl.actions.length hRun
  obtain ⟨current, hEntry⟩ := ((hVisited.scopeOrder hResolved hCount).mem_iff stmt).mpr hStmt
  exact ⟨current, hVisited.mapped.assigns _ hEntry, hFifo.visited _ hEntry⟩

theorem Placed.exists_descent (hPlaced : dsl.Placed assigned) (ref : Ref) :
    ∃ line, ref ∈ line ∧ Descent dsl.DependsOn line := by
  obtain ⟨rank, hRank⟩ := hPlaced.exists_dep_rank
  have hFalls : ∀ ref src, dsl.DependsOn ref src → rank src < rank ref := by
    rintro ref src ⟨stmt, hStmt, rfl, dep, hDep, rfl⟩
    exact hRank stmt hStmt dep hDep
  have hFinite : ∀ node, ∃ nexts : List Ref, ∀ next, dsl.DependsOn node next ↔ next ∈ nexts := by
    intro node
    refine ⟨(dsl.actions.filter fun stmt => stmt.ref = node).flatMap fun stmt =>
      stmt.deps.map Prod.fst, fun next => ?_⟩
    simp [DependsOn, and_assoc]
  obtain ⟨line, hMem, hDescent, -⟩ := Tracecat.exists_descent hFalls hFinite ref
  exact ⟨line, hMem, hDescent⟩

/-- An accepted definition in which a gather has a loop's action among its deepest
dependencies is rejected in another listing. -/
theorem exists_rejected_listing (hAccepted : dsl.Accepted) (hDeep : ¬ dsl.NoDeepLoopGather) :
    ∃ other, dsl.Relisting other ∧ ¬ other.Accepted := by
  unfold NoDeepLoopGather at hDeep
  push Not at hDeep
  obtain ⟨gather, dep, loop, hGather, hDeepest, hLoop, hLies⟩ := hDeep
  obtain ⟨loopStmt, hLoopStmt, hLoopRef, hLoopKind⟩ := hLoop
  have hIsOpener : loopStmt.action.isOpener := by simp [hLoopKind, ActionType.isOpener]
  obtain ⟨assigned, hAssigned⟩ :=
    hAccepted.validated.assignActionScopes_of_opener ⟨loopStmt, hLoopStmt, hIsOpener⟩
  have hPlaced : dsl.Placed assigned := ⟨hAccepted.validated, hAssigned⟩
  obtain ⟨line, hDepLine, hDescent⟩ := hPlaced.exists_descent dep
  have hStmts := dsl.sameStatements_listLast line
  refine ⟨dsl.listLast line, dsl.relisting_listLast line, fun hOther => ?_⟩
  have hEdges := hStmts.dependsOn_eq
  have hKinds := hStmts.hasAction_eq
  rw [hEdges] at hDescent hDeepest
  rw [hEdges, hKinds] at hLies
  rw [hKinds] at hGather
  obtain ⟨gatherStmt, hGatherStmt, rfl, hGatherKind⟩ := hGather
  have hLoopOther := hStmts.mem_iff.mp hLoopStmt
  obtain ⟨others, hOthers⟩ :=
    hOther.validated.assignActionScopes_of_opener ⟨loopStmt, hLoopOther, hIsOpener⟩
  have hOtherPlaced : (dsl.listLast line).Placed others := ⟨hOther.validated, hOthers⟩
  obtain ⟨current, hAssigns, hArrives⟩ := hOtherPlaced.arrivesDeepest hDescent
    (dsl.listedLast_listLast line) hGatherStmt
  -- the line decides that the gather is visited in the scope of the loop
  have hCurrent : current = .opened loopStmt.ref := by
    rcases hArrives with ⟨hNone, -⟩ | ⟨last, -, hLookup, hTie⟩
    · exact absurd hDeepest.1 (hNone dep)
    · rw [← hTie dep hDepLine hDeepest] at hLookup
      have hScope := hOtherPlaced.scopeOf_of_liesIn hLies
      rw [ActionScopes.scopeOf, Dict.getD, hLookup] at hScope
      rw [hLoopRef]
      exact hScope
  have hOpener : others.openers.lookup current = gatherStmt.action.openerOf := by
    unfold ActionScopes.Assigns at hAssigns
    rw [if_neg (by simp [hGatherKind, ActionType.isOpener]),
      if_pos (by simp [hGatherKind, ActionType.isCloser])] at hAssigns
    obtain ⟨-, -, -, hOpenerOf⟩ := hAssigns
    exact hOpenerOf
  rw [hCurrent, hOtherPlaced.opener_of_loopStart hLoopOther hLoopKind, hGatherKind] at hOpener
  cases hOpener

/-- Every listing has the same verdict exactly when no gather has a loop's action
among its deepest dependencies, or no listing is accepted at all. -/
theorem sameVerdict_listings_iff (dsl : DSLInput) :
    (∀ other, dsl.Relisting other → dsl.SameVerdict other) ↔
      ((∃ other, dsl.Relisting other ∧ other.Accepted) → dsl.NoDeepLoopGather) := by
  constructor
  · rintro hAll ⟨other, hListing, hOther⟩
    by_contra hDeep
    have hAccepted := (hAll other hListing).accepted.mpr hOther
    obtain ⟨rejected, hRejected, hFails⟩ := exists_rejected_listing hAccepted hDeep
    exact hFails ((hAll rejected hRejected).accepted.mp hAccepted)
  · intro hShallow other hListing
    by_cases hSome : ∃ other, dsl.Relisting other ∧ other.Accepted
    · exact hListing.sameVerdict (hShallow hSome)
    · have hRefl : dsl.Relisting dsl :=
        ⟨dsl, List.forall₂_same.mpr fun _ _ => ⟨.refl _, rfl⟩, List.Perm.refl _⟩
      have hNone : ¬ dsl.Accepted := fun hAccepted => hSome ⟨dsl, hRefl, hAccepted⟩
      refine ⟨⟨fun hAccepted => absurd hAccepted hNone, fun hAccepted => ?_⟩,
        fun hAccepted => absurd hAccepted hNone⟩
      exact absurd ⟨other, hListing, hAccepted⟩ hSome

/-- A gather on an action inside a scatter and one inside a loop beside it. -/
def besideLoop : DSLInput where
  actions :=
    [{ ref := "again", action := .loopStart },
      { ref := "each", action := .transformScatter, args := .scatter { collection := {} } },
      { ref := "a", action := .udf "core.noop", dependsOn := ["again"] },
      { ref := "b", action := .udf "core.noop", dependsOn := ["each"] },
      { ref := "end", action := .loopEnd, args := .loopEnd { condition := {} },
        dependsOn := ["a"] },
      { ref := "all", action := .transformGather, args := .gather { items := {} },
        dependsOn := ["a", "b"] }]

theorem listing_changes_verdict :
    besideLoop.Relisting (besideLoop.listLast ["again", "a"]) ∧
      ¬ besideLoop.SameVerdict (besideLoop.listLast ["again", "a"]) ∧ besideLoop.Accepted ∧
      (besideLoop.listLast ["again", "a"]).validateStructure =
        .error (.closesWrongScopeType "all") := by
  have hAccepted : besideLoop.Accepted := by decide +kernel
  have hError : (besideLoop.listLast ["again", "a"]).validateStructure =
      .error (.closesWrongScopeType "all") := by decide +kernel
  refine ⟨besideLoop.relisting_listLast _, fun hSame => ?_, hAccepted, hError⟩
  have hOther : (besideLoop.listLast ["again", "a"]).validateStructure = .ok () :=
    hSame.accepted.mp hAccepted
  rw [hError] at hOther
  cases hOther

end DSLInput
end Tracecat
