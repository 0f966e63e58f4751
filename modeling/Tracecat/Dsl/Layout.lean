import Tracecat.Dsl.TopoSort

/-!
# The layout of an accepted definition

Every action of an accepted definition is scheduled in the streams of one
shape: the sequence of scatters around the scope it runs in.  This file
defines that sequence from the mappings of the sort and proves how it changes
along an edge: a scatter adds itself, a gather removes its scatter, and every
other action leaves the sequence as it is.
-/

namespace Tracecat

/-! ## Walks up the scope hierarchy -/

namespace ActionScopes

variable (assigned : ActionScopes)

/-- The scatter that opened a scope, if a scatter did. -/
def scatterOf : Scope → Option Ref
  | .root => none
  | .opened ref =>
      if assigned.openers.lookup (.opened ref) = some .transformScatter then some ref else none

/-- The scatters around a scope, innermost first; loop scopes are erased. -/
def enclosingScatters (scope : Scope) : List Ref :=
  (assigned.chain scope).filterMap assigned.scatterOf

variable {assigned}

/-- A rank that falls from every scope to its parent, which is a scope of the
hierarchy again. -/
def RankedBy (assigned : ActionScopes) (rank : Scope → Nat) : Prop :=
  ∀ scope parent, assigned.parentOf scope = some parent →
    rank parent < rank scope ∧ ∃ entry ∈ assigned.hierarchy.entries, entry.1 = parent

def below (assigned : ActionScopes) (rank : Scope → Nat) (scope : Scope) : Nat :=
  (assigned.hierarchy.entries.filter fun entry => rank entry.1 < rank scope).length

theorem below_lt_of_parent {rank : Scope → Nat} (hRank : assigned.RankedBy rank)
    {scope parent : Scope} (hParent : assigned.parentOf scope = some parent) :
    assigned.below rank parent < assigned.below rank scope := by
  obtain ⟨hLess, entry, hEntry, rfl⟩ := hRank scope parent hParent
  unfold below
  rw [← List.countP_eq_length_filter, ← List.countP_eq_length_filter]
  have hMono : ∀ other ∈ assigned.hierarchy.entries,
      decide (rank other.1 < rank entry.1) = true → decide (rank other.1 < rank scope) = true := by
    intro other _ hOther
    simp only [decide_eq_true_eq] at hOther ⊢
    omega
  refine lt_of_le_of_ne (List.countP_mono_left hMono) fun hEq => ?_
  obtain ⟨before, after, hSplit⟩ := List.append_of_mem hEntry
  rw [hSplit] at hEq hMono
  have hBefore := List.countP_mono_left (l := before)
    fun other hOther => hMono other (List.mem_append_left _ hOther)
  have hAfter := List.countP_mono_left (l := after)
    fun other hOther => hMono other (List.mem_append_right _ (List.mem_cons_of_mem _ hOther))
  rw [List.countP_append, List.countP_append, List.countP_cons_of_neg (by simp),
    List.countP_cons_of_pos (by simpa using hLess)] at hEq
  omega

theorem chainFrom_eq {rank : Scope → Nat} (hRank : assigned.RankedBy rank) {first : Nat}
    (second : Nat) {scope : Scope} (hFirst : assigned.below rank scope ≤ first)
    (hSecond : assigned.below rank scope ≤ second) :
    assigned.chainFrom first scope = assigned.chainFrom second scope := by
  induction first generalizing second scope with
  | zero =>
      cases hParent : assigned.parentOf scope with
      | none => cases second <;> simp [chainFrom, hParent]
      | some parent =>
          have hLess := below_lt_of_parent hRank hParent
          omega
  | succ first ih =>
      cases hParent : assigned.parentOf scope with
      | none => cases second <;> simp [chainFrom, hParent]
      | some parent =>
          have hLess := below_lt_of_parent hRank hParent
          cases second with
          | zero => omega
          | succ second =>
              simp only [chainFrom, hParent]
              rw [ih second (by omega) (by omega)]

theorem below_le (rank : Scope → Nat) (scope : Scope) :
    assigned.below rank scope ≤ assigned.hierarchy.entries.length :=
  List.length_filter_le _ _

theorem chain_of_parent {rank : Scope → Nat} (hRank : assigned.RankedBy rank)
    {scope parent : Scope} (hParent : assigned.parentOf scope = some parent) :
    assigned.chain scope = scope :: assigned.chain parent := by
  have hLess := below_lt_of_parent hRank hParent
  have hBound := assigned.below_le rank scope
  unfold chain
  cases hFuel : assigned.hierarchy.entries.length with
  | zero => omega
  | succ fuel =>
      rw [chainFrom, hParent]
      simp only
      rw [chainFrom_eq hRank (fuel + 1) (by omega) (by omega)]

theorem chain_of_no_parent {scope : Scope} (hParent : assigned.parentOf scope = none) :
    assigned.chain scope = [scope] := by
  unfold chain
  cases assigned.hierarchy.entries.length <;> simp [chainFrom, hParent]

theorem mem_chain_self (scope : Scope) : scope ∈ assigned.chain scope := by
  unfold chain
  cases assigned.hierarchy.entries.length with
  | zero => simp [chainFrom]
  | succ fuel =>
      unfold chainFrom
      split <;> simp

end ActionScopes

/-! ## The scopes of the sort -/

namespace TopoState

theorem Sorted.exists_rank {order : List (ActionStatement × Scope)} (hSorted : Sorted order)
    (hNodup : (visitedRefs order).Nodup) :
    ∃ rank : Ref → Nat, (∀ ref ∈ visitedRefs order, rank ref < order.length) ∧
      ∀ entry ∈ order, ∀ dep ∈ entry.1.deps, rank dep.1 < rank entry.1.ref := by
  induction hSorted with
  | nil => exact ⟨fun _ => 0, by simp [visitedRefs], by simp⟩
  | @cons stmt current order hOrder hDeps ih =>
      rw [visitedRefs, List.map_cons, List.nodup_cons] at hNodup
      obtain ⟨rank, hBound, hEdges⟩ := ih hNodup.2
      have hOld : ∀ ref ∈ visitedRefs order, ref ≠ stmt.ref := fun ref hRef hEq =>
        hNodup.1 (hEq ▸ hRef)
      refine ⟨fun ref => if ref = stmt.ref then order.length else rank ref, ?_, ?_⟩
      · intro ref hRef
        rcases mem_visitedRefs_cons.mp hRef with rfl | hRef
        · simp
        · have hLess := hBound ref hRef
          simp only [if_neg (hOld ref hRef), List.length_cons]
          omega
      · intro entry hEntry dep hDep
        rcases List.mem_cons.mp hEntry with rfl | hEntry
        · have hSource := hDeps dep hDep
          simpa [hOld _ hSource] using hBound _ hSource
        · have hSource := hOrder.deps_visited hEntry hDep
          have hTarget := hOld entry.1.ref
            (List.mem_map_of_mem (f := fun entry => entry.1.ref) hEntry)
          simpa [hOld _ hSource, hTarget] using hEdges entry hEntry dep hDep

end TopoState

namespace DSLInput
namespace ScopeOrder

open ActionScopes

variable {dsl : DSLInput} {assigned : ActionScopes} {order : List (ActionStatement × Scope)}

section

variable (hOrder : dsl.ScopeOrder assigned order)
include hOrder

theorem lookup_scopes {entry : ActionStatement × Scope} (hEntry : entry ∈ order) :
    assigned.scopes.lookup entry.1.ref = some (assigned.scopeOf entry.1.ref) := by
  have hAssigns := hOrder.mapped.assigns entry hEntry
  unfold Assigns at hAssigns
  unfold scopeOf Dict.getD
  split at hAssigns
  · simp [hAssigns.1]
  · split at hAssigns
    · obtain ⟨next, hNext, -⟩ := hAssigns
      simp [hNext]
    · simp [hAssigns]

theorem opener_entry {ref : Ref} {parent : Scope}
    (hParent : assigned.parentOf (.opened ref) = some parent) :
    ∃ stmt, (stmt, parent) ∈ order ∧ stmt.ref = ref ∧ stmt.action.isOpener ∧
      assigned.scopeOf ref = .opened ref ∧
      assigned.openers.lookup (.opened ref) = some stmt.action := by
  have hLookup := parentOf_eq_some.mp hParent
  obtain ⟨⟨stmt, current⟩, hEntry, rfl, hOpener⟩ :=
    hOrder.mapped.hierarchy_visited ref (by simp [hLookup])
  have hAssigns := hOrder.mapped.assigns _ hEntry
  unfold Assigns at hAssigns
  rw [if_pos hOpener] at hAssigns
  obtain ⟨hScope, hCurrent, hAction⟩ := hAssigns
  rw [hCurrent] at hLookup
  cases hLookup
  refine ⟨stmt, hEntry, rfl, hOpener, ?_, hAction⟩
  simp [scopeOf, Dict.getD, hScope]

theorem opener_parent {stmt : ActionStatement} {current : Scope} (hEntry : (stmt, current) ∈ order)
    (hOpener : stmt.action.isOpener) :
    assigned.scopeOf stmt.ref = .opened stmt.ref ∧
      assigned.parentOf (.opened stmt.ref) = some current ∧
      assigned.openers.lookup (.opened stmt.ref) = some stmt.action := by
  have hAssigns := hOrder.mapped.assigns _ hEntry
  unfold Assigns at hAssigns
  rw [if_pos hOpener] at hAssigns
  exact ⟨by simp [scopeOf, Dict.getD, hAssigns.1], parentOf_eq_some.mpr hAssigns.2.1,
    hAssigns.2.2⟩

theorem closer_parent {stmt : ActionStatement} {current : Scope} (hEntry : (stmt, current) ∈ order)
    (hCloser : stmt.action.isCloser) :
    assigned.parentOf current = some (assigned.scopeOf stmt.ref) ∧
      assigned.openers.lookup current = stmt.action.openerOf := by
  have hAssigns := hOrder.mapped.assigns _ hEntry
  have hOpener : ¬ stmt.action.isOpener := by
    cases hAction : stmt.action <;> simp_all [ActionType.isOpener, ActionType.isCloser]
  unfold Assigns at hAssigns
  rw [if_neg hOpener, if_pos hCloser] at hAssigns
  obtain ⟨next, hNext, hParent, hOpenerOf⟩ := hAssigns
  refine ⟨parentOf_eq_some.mpr ?_, hOpenerOf⟩
  simp [hParent, scopeOf, Dict.getD, hNext]

theorem plain_scope {stmt : ActionStatement} {current : Scope} (hEntry : (stmt, current) ∈ order)
    (hPlain : stmt.action.isPlain) :
    assigned.scopeOf stmt.ref = current := by
  have hAssigns := hOrder.mapped.assigns _ hEntry
  simp only [ActionType.isPlain, Bool.and_eq_true, Bool.not_eq_true'] at hPlain
  unfold Assigns at hAssigns
  rw [if_neg (by simp [hPlain.1]), if_neg (by simp [hPlain.2])] at hAssigns
  simp [scopeOf, Dict.getD, hAssigns]

theorem parentOf_root :
    assigned.parentOf .root = none := by
  simp [parentOf, Dict.getD, hOrder.mapped.root]

/-- An action is visited in the root scope or in the scope of a dependency. -/
theorem arrives {stmt : ActionStatement} {current : Scope} (hEntry : (stmt, current) ∈ order) :
    (stmt.deps = [] ∧ current = .root) ∨
      ∃ dep ∈ stmt.deps, ∃ scope, (∃ source, (source, scope) ∈ order ∧ source.ref = dep.1) ∧
        assigned.scopeOf dep.1 = current := by
  rcases hOrder.mapped.arrives _ hEntry with hRoot | ⟨dep, hDep, hLookup⟩
  · exact Or.inl hRoot
  · have hVisited := hOrder.sorted.deps_visited hEntry hDep
    obtain ⟨⟨source, scope⟩, hSource, hRef⟩ := List.mem_map.mp hVisited
    refine Or.inr ⟨dep, hDep, scope, ⟨source, hSource, hRef⟩, ?_⟩
    simp [scopeOf, Dict.getD, hLookup]

end

def scopeRank (rank : Ref → Nat) : Scope → Nat
  | .root => 0
  | .opened ref => rank ref + 1

def Known (assigned : ActionScopes) (scope : Scope) : Prop :=
  scope = .root ∨ ∃ parent, assigned.parentOf scope = some parent

variable (hOrder : dsl.ScopeOrder assigned order)
include hOrder

/-- An action is visited in a known scope opened before it, and leaves behind
a known scope opened by itself or before it. -/
theorem scope_bounds {rank : Ref → Nat}
    (hRank : ∀ entry ∈ order, ∀ dep ∈ entry.1.deps, rank dep.1 < rank entry.1.ref)
    {stmt : ActionStatement} {current : Scope} (hEntry : (stmt, current) ∈ order) :
    (Known assigned current ∧ scopeRank rank current ≤ rank stmt.ref) ∧
      Known assigned (assigned.scopeOf stmt.ref) ∧
      scopeRank rank (assigned.scopeOf stmt.ref) ≤ rank stmt.ref + 1 := by
  -- strong induction on the rank: the scope of the visit comes from a dependency
  induction hBound : rank stmt.ref using Nat.strong_induction_on
    generalizing stmt current with
  | _ bound ih =>
      subst hBound
      have hCurrent : Known assigned current ∧ scopeRank rank current ≤ rank stmt.ref := by
        rcases hOrder.arrives hEntry with ⟨-, rfl⟩ | ⟨dep, hDep, scope, ⟨source, hSource, hRef⟩, rfl⟩
        · exact ⟨Or.inl rfl, Nat.zero_le _⟩
        · have hLess : rank dep.1 < rank stmt.ref := hRank _ hEntry dep hDep
          obtain ⟨-, hKnown, hLe⟩ := ih (rank source.ref) (by simpa [hRef] using hLess) hSource rfl
          rw [hRef] at hKnown hLe
          exact ⟨hKnown, by omega⟩
      refine ⟨hCurrent, ?_⟩
      by_cases hOpener : stmt.action.isOpener
      · obtain ⟨hScope, hParent, -⟩ := hOrder.opener_parent hEntry hOpener
        rw [hScope]
        exact ⟨Or.inr ⟨current, hParent⟩, le_refl _⟩
      · by_cases hCloser : stmt.action.isCloser
        · obtain ⟨hParent, -⟩ := hOrder.closer_parent hEntry hCloser
          cases current with
          | root => simp [hOrder.parentOf_root] at hParent
          | opened ref =>
              obtain ⟨opener, hOpenerEntry, rfl, -⟩ := hOrder.opener_entry hParent
              have hLess : rank opener.ref < rank stmt.ref := hCurrent.2
              obtain ⟨⟨hKnown, hLe⟩, -⟩ := ih _ hLess hOpenerEntry rfl
              exact ⟨hKnown, by omega⟩
        · have hPlain : stmt.action.isPlain := by
            simp [ActionType.isPlain, hOpener, hCloser]
          rw [hOrder.plain_scope hEntry hPlain]
          exact ⟨hCurrent.1, by omega⟩

theorem rankedBy {rank : Ref → Nat}
    (hRank : ∀ entry ∈ order, ∀ dep ∈ entry.1.deps, rank dep.1 < rank entry.1.ref) :
    assigned.RankedBy (scopeRank rank) := by
  intro scope parent hParent
  cases scope with
  | root => simp [hOrder.parentOf_root] at hParent
  | opened ref =>
      obtain ⟨stmt, hEntry, rfl, -⟩ := hOrder.opener_entry hParent
      obtain ⟨⟨hKnown, hLe⟩, -⟩ := hOrder.scope_bounds hRank hEntry
      refine ⟨Nat.lt_succ_of_le hLe, ?_⟩
      rcases hKnown with rfl | ⟨grandparent, hGrandparent⟩
      · exact ⟨_, (Dict.mem_entries_iff _ _ _).mpr hOrder.mapped.root, rfl⟩
      · exact ⟨_, (Dict.mem_entries_iff _ _ _).mpr (parentOf_eq_some.mp hGrandparent), rfl⟩

theorem exists_rankedBy :
    ∃ rank, assigned.RankedBy rank := by
  obtain ⟨rank, -, hRank⟩ := hOrder.sorted.exists_rank hOrder.nodup
  exact ⟨_, hOrder.rankedBy hRank⟩

theorem enclosingScatters_opened {ref : Ref} {parent : Scope}
    (hParent : assigned.parentOf (.opened ref) = some parent) :
    assigned.enclosingScatters (.opened ref) =
      if assigned.openers.lookup (.opened ref) = some .transformScatter then
        ref :: assigned.enclosingScatters parent
      else assigned.enclosingScatters parent := by
  obtain ⟨rank, hRank⟩ := hOrder.exists_rankedBy
  unfold enclosingScatters
  rw [chain_of_parent hRank hParent, List.filterMap_cons]
  unfold scatterOf
  split <;> simp_all

theorem enclosingScatters_root :
    assigned.enclosingScatters .root = [] := by
  unfold enclosingScatters
  rw [chain_of_no_parent hOrder.parentOf_root]
  rfl

end ScopeOrder

/-! ## The shape of the streams of an action -/

/-- The scope in which an action is scheduled: an opener outside the scope
that it opens, a closer inside the scope that it closes. -/
def executionScope (dsl : DSLInput) (assigned : ActionScopes) (ref : Ref) : Scope :=
  match dsl.stmt? ref with
  | none => .root
  | some stmt =>
      if stmt.action.isOpener then (assigned.parentOf (assigned.scopeOf ref)).getD .root
      else if stmt.action.isCloser then (depScopes assigned stmt).headD .root
      else assigned.scopeOf ref

/-- The scatters around the scope in which an action is scheduled. -/
def path (dsl : DSLInput) (assigned : ActionScopes) (ref : Ref) : List Ref :=
  assigned.enclosingScatters (dsl.executionScope assigned ref)

/-- The scatters around the scope in which an action leaves its successors. -/
def outPath (assigned : ActionScopes) (ref : Ref) : List Ref :=
  assigned.enclosingScatters (assigned.scopeOf ref)

/-- A gather whose dependencies lie in more than one scope.  The edge rule
compares each dependency with the scope of the gather, so it accepts one whose
dependencies lie in different scopes below that scope. -/
def IsMixedGather (dsl : DSLInput) (assigned : ActionScopes) (ref : Ref) : Prop :=
  ∃ stmt, dsl.stmt? ref = some stmt ∧ stmt.action = .transformGather ∧
    1 < (depScopes assigned stmt).length

/-- A validated definition with the mappings of its sort. -/
structure Placed (dsl : DSLInput) (assigned : ActionScopes) : Prop where
  validated : dsl.Validated
  assigned_eq : dsl.assignActionScopes = .ok assigned

namespace Placed

open ActionScopes

variable {dsl : DSLInput} {assigned : ActionScopes}

variable (hPlaced : dsl.Placed assigned)
include hPlaced

theorem exists_order :
    ∃ order, dsl.ScopeOrder assigned order :=
  assignActionScopes_order hPlaced.validated hPlaced.assigned_eq

theorem exists_dep_rank :
    ∃ rank : Ref → Nat, ∀ stmt ∈ dsl.actions, ∀ dep ∈ stmt.deps, rank dep.1 < rank stmt.ref := by
  obtain ⟨order, hOrder⟩ := hPlaced.exists_order
  obtain ⟨rank, -, hRank⟩ := hOrder.sorted.exists_rank hOrder.nodup
  refine ⟨rank, fun stmt hStmt dep hDep => ?_⟩
  obtain ⟨current, hEntry⟩ := (hOrder.mem_iff stmt).mpr hStmt
  exact hRank _ hEntry dep hDep

theorem stmt?_eq {stmt : ActionStatement} (hStmt : stmt ∈ dsl.actions) :
    dsl.stmt? stmt.ref = some stmt :=
  stmt?_eq_some_of_mem hPlaced.validated.refs_nodup hStmt

/-- In a definition without openers every action runs in the root scope and
none closes a scope. -/
theorem root_of_no_opener (hNone : ¬ dsl.HasOpener) {stmt : ActionStatement}
    (hStmt : stmt ∈ dsl.actions) :
    stmt.action.isPlain ∧ assigned.scopeOf stmt.ref = .root := by
  obtain ⟨order, hOrder⟩ := hPlaced.exists_order
  obtain ⟨rank, -, hRank⟩ := hOrder.sorted.exists_rank hOrder.nodup
  obtain ⟨current, hEntry⟩ := (hOrder.mem_iff stmt).mpr hStmt
  have hRootOnly : ∀ scope, ScopeOrder.Known assigned scope → scope = .root := by
    rintro scope (rfl | ⟨parent, hParent⟩)
    · rfl
    · cases scope with
      | root => rfl
      | opened ref =>
          obtain ⟨opener, hOpener, -, hAction, -⟩ := hOrder.opener_entry hParent
          exact absurd ⟨opener, (hOrder.mem_iff opener).mp ⟨_, hOpener⟩, hAction⟩ hNone
  obtain ⟨⟨hCurrent, -⟩, hScope, -⟩ := hOrder.scope_bounds hRank hEntry
  refine ⟨?_, hRootOnly _ hScope⟩
  by_cases hOpener : stmt.action.isOpener
  · exact absurd ⟨stmt, hStmt, hOpener⟩ hNone
  · by_cases hCloser : stmt.action.isCloser
    · have hParent := (hOrder.closer_parent hEntry hCloser).1
      rw [hRootOnly _ hCurrent, hOrder.parentOf_root] at hParent
      cases hParent
    · simp [ActionType.isPlain, hOpener, hCloser]

theorem edgeRule {stmt : ActionStatement} (hStmt : stmt ∈ dsl.actions) {dep : AdjDst}
    (hDep : dep ∈ stmt.deps) :
    EdgeRule assigned stmt dep := by
  by_cases hOpener : dsl.HasOpener
  · exact edgeRule_of_validated
      (hPlaced.validated.scope_passes hOpener hPlaced.assigned_eq).1 hStmt hDep
  · obtain ⟨hPlain, hScope⟩ := hPlaced.root_of_no_opener hOpener hStmt
    obtain ⟨source, hSource⟩ := hPlaced.validated.stmt?_dep hStmt hDep
    obtain ⟨hSourceMem, hSourceRef⟩ := stmt?_some_mem hSource
    have hDepScope := (hPlaced.root_of_no_opener hOpener hSourceMem).2
    simp only [ActionType.isPlain, Bool.and_eq_true, Bool.not_eq_true'] at hPlain
    unfold EdgeRule
    rw [if_neg (by simp [hPlain.1]), if_neg (by simp [hPlain.2]), hScope, ← hSourceRef,
      hDepScope]

/-- The scopes of the dependencies of an action that is no mixed gather are
one scope, if there are any. -/
theorem depScopes_eq {stmt : ActionStatement} (hStmt : stmt ∈ dsl.actions)
    (hMixed : ¬ dsl.IsMixedGather assigned stmt.ref) (hCloser : stmt.action.isCloser) {dep : AdjDst}
    (hDep : dep ∈ stmt.deps) :
    depScopes assigned stmt = [assigned.scopeOf dep.1] := by
  have hMem := scopeOf_mem_depScopes assigned hDep
  have hSingle : (depScopes assigned stmt).length ≤ 1 := by
    by_cases hGather : stmt.action = .transformGather
    · by_contra hMany
      exact hMixed ⟨stmt, hPlaced.stmt?_eq hStmt, hGather, by omega⟩
    · have hLoopEnd : stmt.action = .loopEnd := by
        cases hAction : stmt.action <;> simp_all [ActionType.isCloser]
      have hOpener : dsl.HasOpener := by
        by_contra hNone
        have hPlain := (hPlaced.root_of_no_opener hNone hStmt).1
        simp [hLoopEnd, ActionType.isPlain, ActionType.isOpener, ActionType.isCloser] at hPlain
      obtain ⟨scope, hScope⟩ := loopEnd_resolved_of_validated
        (hPlaced.validated.scope_passes hOpener hPlaced.assigned_eq).1 hStmt hLoopEnd
      simp [(resolveClosedLoopScope_ok hScope).1]
  obtain ⟨scope, hScope⟩ := List.length_eq_one_iff.mp
    (le_antisymm hSingle (List.length_pos_of_mem hMem))
  rw [hScope] at hMem ⊢
  rw [List.mem_singleton.mp hMem]

theorem executionScope_of_dep {stmt : ActionStatement} (hStmt : stmt ∈ dsl.actions)
    (hMixed : ¬ dsl.IsMixedGather assigned stmt.ref) {dep : AdjDst} (hDep : dep ∈ stmt.deps) :
    dsl.executionScope assigned stmt.ref = assigned.scopeOf dep.1 := by
  have hRule := hPlaced.edgeRule hStmt hDep
  unfold EdgeRule at hRule
  unfold executionScope
  simp only [hPlaced.stmt?_eq hStmt]
  by_cases hOpener : stmt.action.isOpener
  · rw [if_pos hOpener] at hRule ⊢
    simp [hRule]
  · rw [if_neg hOpener] at hRule ⊢
    by_cases hCloser : stmt.action.isCloser
    · rw [if_pos hCloser, hPlaced.depScopes_eq hStmt hMixed hCloser hDep]
      rfl
    · rw [if_neg hCloser] at hRule ⊢
      exact hRule.symm

/-- Along an edge the shape of the source's successors is the shape of the
target. -/
theorem path_of_dep {stmt : ActionStatement} (hStmt : stmt ∈ dsl.actions)
    (hMixed : ¬ dsl.IsMixedGather assigned stmt.ref) {dep : AdjDst} (hDep : dep ∈ stmt.deps) :
    dsl.path assigned stmt.ref = outPath assigned dep.1 := by
  unfold path outPath
  rw [hPlaced.executionScope_of_dep hStmt hMixed hDep]

/-- The scope in which the sort visits an action is the one it runs in. -/
theorem executionScope_eq {order : List (ActionStatement × Scope)}
    (hOrder : dsl.ScopeOrder assigned order) {stmt : ActionStatement} {current : Scope}
    (hEntry : (stmt, current) ∈ order) (hMixed : ¬ dsl.IsMixedGather assigned stmt.ref) :
    dsl.executionScope assigned stmt.ref = current := by
  have hStmt := (hOrder.mem_iff stmt).mp ⟨current, hEntry⟩
  rcases hOrder.arrives hEntry with ⟨hDeps, rfl⟩ | ⟨dep, hDep, -, -, rfl⟩
  · unfold executionScope
    simp only [hPlaced.stmt?_eq hStmt]
    by_cases hOpener : stmt.action.isOpener
    · obtain ⟨hScope, hParent, -⟩ := hOrder.opener_parent hEntry hOpener
      simp [hOpener, hScope, hParent]
    · by_cases hCloser : stmt.action.isCloser
      · have hParent := (hOrder.closer_parent hEntry hCloser).1
        simp [hOrder.parentOf_root] at hParent
      · have hPlain : stmt.action.isPlain := by simp [ActionType.isPlain, hOpener, hCloser]
        simp [hOpener, hCloser, hOrder.plain_scope hEntry hPlain]
  · exact hPlaced.executionScope_of_dep hStmt hMixed hDep

theorem path_of_no_deps {stmt : ActionStatement} (hStmt : stmt ∈ dsl.actions)
    (hDeps : stmt.deps = []) :
    dsl.path assigned stmt.ref = [] := by
  obtain ⟨order, hOrder⟩ := hPlaced.exists_order
  obtain ⟨current, hEntry⟩ := (hOrder.mem_iff stmt).mpr hStmt
  have hMixed : ¬ dsl.IsMixedGather assigned stmt.ref := by
    rintro ⟨other, hOther, -, hMany⟩
    rw [hPlaced.stmt?_eq hStmt] at hOther
    cases hOther
    simp [depScopes, hDeps] at hMany
  unfold path
  rw [hPlaced.executionScope_eq hOrder hEntry hMixed]
  rcases hOrder.arrives hEntry with ⟨-, rfl⟩ | ⟨dep, hDep, -⟩
  · exact hOrder.enclosingScatters_root
  · simp [hDeps] at hDep

theorem outPath_scatter {stmt : ActionStatement} (hStmt : stmt ∈ dsl.actions)
    (hScatter : stmt.action = .transformScatter) :
    outPath assigned stmt.ref = stmt.ref :: dsl.path assigned stmt.ref := by
  obtain ⟨order, hOrder⟩ := hPlaced.exists_order
  obtain ⟨current, hEntry⟩ := (hOrder.mem_iff stmt).mpr hStmt
  have hOpener : stmt.action.isOpener := by simp [hScatter, ActionType.isOpener]
  obtain ⟨hScope, hParent, hAction⟩ := hOrder.opener_parent hEntry hOpener
  unfold outPath path executionScope
  simp only [hPlaced.stmt?_eq hStmt]
  rw [if_pos hOpener, hScope, hOrder.enclosingScatters_opened hParent, hParent]
  simp [hAction, hScatter]

/-- A gather that is not mixed runs inside a scatter and removes it from the
shape. -/
theorem path_gather {stmt : ActionStatement} (hStmt : stmt ∈ dsl.actions)
    (hGather : stmt.action = .transformGather) (hMixed : ¬ dsl.IsMixedGather assigned stmt.ref) :
    ∃ scatter ∈ dsl.actions, scatter.action = .transformScatter ∧
      dsl.executionScope assigned stmt.ref = .opened scatter.ref ∧
      dsl.path assigned stmt.ref = scatter.ref :: outPath assigned stmt.ref ∧
      outPath assigned stmt.ref = dsl.path assigned scatter.ref := by
  obtain ⟨order, hOrder⟩ := hPlaced.exists_order
  obtain ⟨current, hEntry⟩ := (hOrder.mem_iff stmt).mpr hStmt
  have hCloser : stmt.action.isCloser := by simp [hGather, ActionType.isCloser]
  obtain ⟨hParent, hOpenerOf⟩ := hOrder.closer_parent hEntry hCloser
  have hExecution := hPlaced.executionScope_eq hOrder hEntry hMixed
  cases current with
  | root => simp [hOrder.parentOf_root] at hParent
  | opened ref =>
      obtain ⟨scatter, hScatter, rfl, -, -, hAction⟩ := hOrder.opener_entry hParent
      have hScatterMem := (hOrder.mem_iff scatter).mp ⟨_, hScatter⟩
      have hKind : scatter.action = .transformScatter := by
        rw [hAction, hGather] at hOpenerOf
        simpa [ActionType.openerOf] using hOpenerOf
      have hPath : dsl.path assigned stmt.ref =
          scatter.ref :: assigned.enclosingScatters (assigned.scopeOf stmt.ref) := by
        unfold path
        rw [hExecution, hOrder.enclosingScatters_opened hParent]
        simp [hAction, hKind]
      refine ⟨scatter, hScatterMem, hKind, hExecution, hPath, ?_⟩
      have hNotMixed : ¬ dsl.IsMixedGather assigned scatter.ref := by
        rintro ⟨other, hOther, hOtherKind, -⟩
        rw [hPlaced.stmt?_eq hScatterMem] at hOther
        cases hOther
        simp [hKind] at hOtherKind
      unfold outPath path
      rw [hPlaced.executionScope_eq hOrder hScatter hNotMixed]

theorem outPath_other {stmt : ActionStatement} (hStmt : stmt ∈ dsl.actions)
    (hScatter : stmt.action ≠ .transformScatter) (hGather : stmt.action ≠ .transformGather) :
    outPath assigned stmt.ref = dsl.path assigned stmt.ref := by
  obtain ⟨order, hOrder⟩ := hPlaced.exists_order
  obtain ⟨current, hEntry⟩ := (hOrder.mem_iff stmt).mpr hStmt
  have hMixed : ¬ dsl.IsMixedGather assigned stmt.ref := by
    rintro ⟨other, hOther, hOtherKind, -⟩
    rw [hPlaced.stmt?_eq hStmt] at hOther
    cases hOther
    exact hGather hOtherKind
  unfold outPath path
  rw [hPlaced.executionScope_eq hOrder hEntry hMixed]
  by_cases hOpener : stmt.action.isOpener
  · obtain ⟨hScope, hParent, hAction⟩ := hOrder.opener_parent hEntry hOpener
    rw [hScope, hOrder.enclosingScatters_opened hParent, hAction, if_neg]
    simpa using hScatter
  · by_cases hCloser : stmt.action.isCloser
    · obtain ⟨hParent, hOpenerOf⟩ := hOrder.closer_parent hEntry hCloser
      cases current with
      | root => simp [hOrder.parentOf_root] at hParent
      | opened ref =>
          rw [hOrder.enclosingScatters_opened hParent, hOpenerOf, if_neg]
          cases hAction : stmt.action <;>
            simp_all [ActionType.isCloser, ActionType.openerOf]
    · have hPlain : stmt.action.isPlain := by simp [ActionType.isPlain, hOpener, hCloser]
      rw [hOrder.plain_scope hEntry hPlain]

end Placed
end DSLInput
end Tracecat
