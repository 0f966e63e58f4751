import Tracecat.Lib.Acyclic
import Tracecat.Dsl.TopoProgress

/-!
# The queue of the sort

The queue is first in, first out, so the sort visits the actions by depth, the
length of the longest chain of dependencies.  An action therefore arrives in the
scope of a deepest dependency.  Which one, when several are equally deep, depends
on the listing: a descent that is listed last decides every tie.
-/

namespace Tracecat

open Checks

namespace TopoState

/-- The refs in the order in which they were queued. -/
def queuedRefs (state : TopoState) (order : List (ActionStatement × Scope)) : List Ref :=
  (visitedRefs order).reverse ++ state.queue.map Prod.fst

/-- The first action is queued no later than the second: it is at most as deep,
and an action of the line comes last among those of its depth. -/
def Before (dsl : DSLInput) (line : List Ref) (first second : Ref) : Prop :=
  DepthLe dsl.DependsOn first second ∧
    (first ∈ line → ¬ DepthLe dsl.DependsOn second first)

/-- An action arrives in the scope of a deepest dependency, of the one in the
line if there is one. -/
def ArrivesDeepest (dsl : DSLInput) (line : List Ref) (assigned : ActionScopes) (ref : Ref)
    (current : Scope) : Prop :=
  ((∀ dep, ¬ dsl.DependsOn ref dep) ∧ current = .root) ∨
    ∃ dep, Deepest dsl.DependsOn ref dep ∧ assigned.scopes.lookup dep = some current ∧
      ∀ other ∈ line, Deepest dsl.DependsOn ref other → other = dep

/-- The actions of the line are listed last. -/
def ListedLast (dsl : DSLInput) (line : List Ref) : Prop :=
  (dsl.actions.map ActionStatement.ref).Pairwise fun first second =>
    first ∈ line → second ∈ line

/-- What the order of the queue keeps. -/
structure Fifo (dsl : DSLInput) (line : List Ref) (state : TopoState)
    (order : List (ActionStatement × Scope)) : Prop where
  ordered : (queuedRefs state order).Pairwise (Before dsl line)
  /-- A queued action is at most one deeper than the last visited one. -/
  near : ∀ ref ∈ state.queue.map Prod.fst, ∀ length, Chain dsl.DependsOn (length + 1) ref →
    ∃ entry, order.head? = some entry ∧ Chain dsl.DependsOn length entry.1.ref
  /-- With an action of the line everything at most as deep is queued. -/
  full : ∀ ref ∈ line, ref ∈ queuedRefs state order → ∀ stmt ∈ dsl.actions,
    DepthLe dsl.DependsOn stmt.ref ref → stmt.ref ∈ queuedRefs state order
  visited : ∀ entry ∈ order, ArrivesDeepest dsl line state.assigned entry.1.ref entry.2
  queued : ∀ entry ∈ state.queue, ArrivesDeepest dsl line state.assigned entry.1 entry.2

variable {dsl : DSLInput} {line : List Ref}

theorem mem_queuedRefs {state : TopoState} {order : List (ActionStatement × Scope)} {ref : Ref} :
    ref ∈ queuedRefs state order ↔
      ref ∈ visitedRefs order ∨ ref ∈ state.queue.map Prod.fst := by
  rw [queuedRefs, List.mem_append, List.mem_reverse]

theorem depthLe_of_entry {stmt : ActionStatement} (hResolved : dsl.Resolved)
    (hStmt : stmt ∈ dsl.actions) (hEntry : stmt.deps = []) (other : Ref) :
    DepthLe dsl.DependsOn stmt.ref other := by
  intro length hChain
  cases hChain with
  | nil => exact .nil other
  | cons hEdge _ =>
      obtain ⟨action, hAction, hRef, dep, hDep, -⟩ := hEdge
      rw [List.inj_on_of_nodup_map hResolved.refs_nodup hAction hStmt hRef, hEntry] at hDep
      cases hDep

theorem ListedLast.toAdjacency (hListed : ListedLast dsl line) (src : Ref) :
    (dsl.toAdjacency src).Pairwise fun first second => first ∈ line → second ∈ line := by
  unfold DSLInput.toAdjacency
  rw [List.pairwise_flatMap]
  constructor
  · intro action _
    rw [List.map_const', List.pairwise_replicate]
    exact Or.inr id
  · refine (List.pairwise_map.mp hListed).imp ?_
    intro first second hLine x hFirst y hSecond
    obtain ⟨-, -, rfl⟩ := List.mem_map.mp hFirst
    obtain ⟨-, -, rfl⟩ := List.mem_map.mp hSecond
    exact hLine

/-- Two actions of the line of one depth are the same, so a list without
repetitions that keeps the line last is ordered when its members are equally
deep. -/
theorem pairwise_before {refs : List Ref} (hDescent : Descent dsl.DependsOn line)
    (hNodup : refs.Nodup) (hLast : refs.Pairwise fun first second => first ∈ line → second ∈ line)
    (hLevel : ∀ first ∈ refs, ∀ second ∈ refs, DepthLe dsl.DependsOn first second) :
    refs.Pairwise (Before dsl line) := by
  refine (hNodup.and hLast).imp_of_mem ?_
  rintro first second hFirst hSecond ⟨hNe, hLine⟩
  refine ⟨hLevel first hFirst second hSecond, fun hIn _ => hNe ?_⟩
  exact hDescent.level first hIn second (hLine hIn) (hLevel first hFirst second hSecond)
    (hLevel second hSecond first hFirst)

/-! ## One turn -/

section Turn

variable {state : TopoState} {order : List (ActionStatement × Scope)} {stmt : ActionStatement}
  {current next : Scope} {rest : List (Ref × Scope)} {after : ActionScopes}

theorem queuedRefs_advance (hQueue : state.queue = (stmt.ref, current) :: rest) :
    queuedRefs (advance dsl state stmt.ref rest after next) ((stmt, current) :: order) =
      queuedRefs state order ++ releasedRefs dsl state stmt.ref := by
  have hFst : (Prod.fst ∘ fun key : Ref => (key, next)) = id := rfl
  unfold queuedRefs
  rw [advance_queue, hQueue, List.map_append, List.map_map, hFst, List.map_id]
  simp [visitedRefs]

theorem Visited.of_mem_releasedRefs (hVisited : Visited dsl state order)
    (hResolved : dsl.Resolved) (hQueue : state.queue = (stmt.ref, current) :: rest)
    (hStmt : stmt ∈ dsl.actions) {ref : Ref} (hRef : ref ∈ releasedRefs dsl state stmt.ref) :
    ref ∉ queuedRefs state order ∧ dsl.DependsOn ref stmt.ref ∧
      ∀ dep, dsl.DependsOn ref dep → dep ∈ visitedRefs order ∨ dep = stmt.ref := by
  have hNew := hVisited.head_new hQueue
  obtain ⟨action, hAction, rfl, -⟩ :=
    DSLInput.mem_toAdjacency.mp (Countdown.released_subset _ _ hRef)
  obtain ⟨hDep, hAll⟩ := (hVisited.mem_released_iff current hResolved hNew hAction).mp hRef
  have hReady := hVisited.queue_ready (stmt.ref, current) (hQueue ▸ List.mem_cons_self) stmt
    hStmt rfl
  have hFresh := hVisited.released_new hResolved hStmt hNew hReady.1 hRef
  refine ⟨fun hOld => ?_, (hResolved.dependsOn_iff hAction).mpr hDep, fun dep hEdge => ?_⟩
  · exact (mem_queuedRefs.mp hOld).elim hFresh.1 hFresh.2.2
  · obtain ⟨edge, hMem, rfl⟩ := (hResolved.dependsOn_iff hAction).mp hEdge
    exact (mem_visitedRefs_cons.mp (hAll edge hMem)).symm

namespace Fifo

variable (hFifo : Fifo dsl line state order)
include hFifo

theorem before_head (hQueue : state.queue = (stmt.ref, current) :: rest) {ref : Ref}
    (hRef : ref ∈ visitedRefs order) : Before dsl line ref stmt.ref := by
  have hOrdered := hFifo.ordered
  unfold queuedRefs at hOrdered
  rw [hQueue, List.map_cons] at hOrdered
  exact (List.pairwise_append.mp hOrdered).2.2 ref (List.mem_reverse.mpr hRef) stmt.ref
    List.mem_cons_self

theorem near_head (hQueue : state.queue = (stmt.ref, current) :: rest) {ref : Ref}
    (hRef : ref ∈ state.queue.map Prod.fst) {length : Nat}
    (hChain : Chain dsl.DependsOn (length + 1) ref) :
    Chain dsl.DependsOn length stmt.ref := by
  obtain ⟨entry, hLast, hShort⟩ := hFifo.near ref hRef length hChain
  have hEntry : entry.1.ref ∈ visitedRefs order :=
    List.mem_map_of_mem (f := fun entry => entry.1.ref) (List.mem_of_mem_head? hLast)
  exact (hFifo.before_head hQueue hEntry).1 length hShort

variable (hVisited : Visited dsl state order)
include hVisited

theorem released_deepest (hResolved : dsl.Resolved)
    (hQueue : state.queue = (stmt.ref, current) :: rest) (hStmt : stmt ∈ dsl.actions) {ref : Ref}
    (hRef : ref ∈ releasedRefs dsl state stmt.ref) :
    Deepest dsl.DependsOn ref stmt.ref := by
  obtain ⟨-, hEdge, hDeps⟩ := hVisited.of_mem_releasedRefs hResolved hQueue hStmt hRef
  refine ⟨hEdge, fun other hOther => ?_⟩
  rcases hDeps other hOther with hOld | rfl
  · exact (hFifo.before_head hQueue hOld).1
  · exact .refl _

theorem released_line (hResolved : dsl.Resolved)
    (hQueue : state.queue = (stmt.ref, current) :: rest) (hStmt : stmt ∈ dsl.actions) {ref : Ref}
    (hRef : ref ∈ releasedRefs dsl state stmt.ref) {other : Ref} (hLine : other ∈ line)
    (hDeepest : Deepest dsl.DependsOn ref other) :
    other = stmt.ref := by
  obtain ⟨-, hEdge, hDeps⟩ := hVisited.of_mem_releasedRefs hResolved hQueue hStmt hRef
  refine (hDeps other hDeepest.1).resolve_left fun hOld => ?_
  exact (hFifo.before_head hQueue hOld).2 hLine (hDeepest.2 _ hEdge)

/-- Everything queued is at most as deep as what is released. -/
theorem depthLe_released (hResolved : dsl.Resolved)
    (hQueue : state.queue = (stmt.ref, current) :: rest) (hStmt : stmt ∈ dsl.actions) {ref : Ref}
    (hRef : ref ∈ releasedRefs dsl state stmt.ref) {other : Ref}
    (hOther : other ∈ queuedRefs state order) :
    DepthLe dsl.DependsOn other ref := by
  have hDeepest := hFifo.released_deepest hVisited hResolved hQueue hStmt hRef
  rcases mem_queuedRefs.mp hOther with hOld | hQueued
  · exact (hFifo.before_head hQueue hOld).1.trans hDeepest.depthLe
  · intro length hChain
    cases length with
    | zero => exact .nil ref
    | succ length => exact hDeepest.chain_succ.mpr (hFifo.near_head hQueue hQueued hChain)

theorem ordered_turn (hResolved : dsl.Resolved) (hDescent : Descent dsl.DependsOn line)
    (hListed : ListedLast dsl line) (hQueue : state.queue = (stmt.ref, current) :: rest)
    (hStmt : stmt ∈ dsl.actions) :
    (queuedRefs state order ++ releasedRefs dsl state stmt.ref).Pairwise (Before dsl line) := by
  refine List.pairwise_append.mpr ⟨hFifo.ordered, ?_, fun first hFirst second hSecond => ?_⟩
  · apply pairwise_before hDescent
    · exact Countdown.released_nodup _ _ (hVisited.count_le hResolved (hVisited.head_new hQueue))
    · exact (hListed.toAdjacency stmt.ref).sublist (Countdown.released_sublist _ _)
    · intro first hFirst second hSecond
      exact (hFifo.released_deepest hVisited hResolved hQueue hStmt hFirst).depthLe_of_depthLe
        (hFifo.released_deepest hVisited hResolved hQueue hStmt hSecond) (.refl _)
  · refine ⟨hFifo.depthLe_released hVisited hResolved hQueue hStmt hSecond hFirst, ?_⟩
    -- with an action of the line everything of its depth is queued already
    intro hLine hLe
    obtain ⟨hNew, ⟨action, hAction, rfl, -⟩, -⟩ :=
      hVisited.of_mem_releasedRefs hResolved hQueue hStmt hSecond
    exact hNew (hFifo.full first hLine hFirst action hAction hLe)

/-- An action of the line that is released comes after everything that is at most
as deep. -/
theorem full_turn
    (hComplete : Complete dsl (advance dsl state stmt.ref rest after next)
      ((stmt, current) :: order)) (hResolved : dsl.Resolved) (hDescent : Descent dsl.DependsOn line)
    (hQueue : state.queue = (stmt.ref, current) :: rest) (hStmt : stmt ∈ dsl.actions) {ref : Ref}
    (hLine : ref ∈ line) (hRef : ref ∈ releasedRefs dsl state stmt.ref) {action : ActionStatement}
    (hAction : action ∈ dsl.actions) (hLe : DepthLe dsl.DependsOn action.ref ref) :
    action.ref ∈ queuedRefs (advance dsl state stmt.ref rest after next)
      ((stmt, current) :: order) := by
  have hDeepest := hFifo.released_deepest hVisited hResolved hQueue hStmt hRef
  have hHead : stmt.ref ∈ line := by
    rcases hDescent.next ref hLine with hNone | ⟨below, hBelow, hDown⟩
    · exact absurd hDeepest.1 (hNone stmt.ref)
    · exact hFifo.released_line hVisited hResolved hQueue hStmt hRef hBelow hDown ▸ hBelow
  have hQueuedHead : stmt.ref ∈ queuedRefs state order := by
    refine mem_queuedRefs.mpr (Or.inr ?_)
    rw [hQueue]
    exact List.mem_cons_self
  rw [mem_queuedRefs]
  by_cases hDone : action.ref ∈ visitedRefs ((stmt, current) :: order)
  · exact Or.inl hDone
  · right
    refine (hComplete action hAction hDone).resolve_right ?_
    -- a dependency is at most as deep as the visited action, so it was queued before it
    rintro ⟨dep, hDep, hWaits⟩
    have hEdge := (hResolved.dependsOn_iff hAction).mpr ⟨dep, hDep, rfl⟩
    have hDepLe : DepthLe dsl.DependsOn dep.1 stmt.ref := fun length hChain =>
      hDeepest.chain_succ.mp (hLe _ (.cons hEdge hChain))
    obtain ⟨source, hSource, hSourceRef⟩ :=
      List.mem_map.mp (hResolved.deps_known action hAction dep hDep)
    have hQueued := hFifo.full stmt.ref hHead hQueuedHead source hSource (hSourceRef ▸ hDepLe)
    rw [hSourceRef] at hQueued
    have hOrdered := hFifo.ordered
    unfold queuedRefs at hOrdered hQueued
    rw [hQueue, List.map_cons] at hOrdered hQueued
    rw [mem_visitedRefs_cons, not_or] at hWaits
    rcases List.mem_append.mp hQueued with hOld | hRest
    · exact hWaits.2 (List.mem_reverse.mp hOld)
    · have hLater := (List.mem_cons.mp hRest).resolve_left hWaits.1
      exact (List.rel_of_pairwise_cons (List.pairwise_append.mp hOrdered).2.1 hLater).2 hHead
        hDepLe

theorem turn (hComplete : Complete dsl state order) (hResolved : dsl.Resolved)
    (hDescent : Descent dsl.DependsOn line) (hListed : ListedLast dsl line)
    (hQueue : state.queue = (stmt.ref, current) :: rest) (hStmt : stmt ∈ dsl.actions)
    (hVisit : state.assigned.visit stmt current = .ok (after, next)) :
    Fifo dsl line (advance dsl state stmt.ref rest after next) ((stmt, current) :: order) := by
  have hNew := hVisited.head_new hQueue
  have hHead : (stmt.ref, current) ∈ state.queue := hQueue ▸ List.mem_cons_self
  have hArrives := (hVisited.queue_ready _ hHead stmt hStmt rfl).2
  obtain ⟨-, hNext, hSame⟩ := hVisited.mapped.visit hNew hArrives hVisit
  have hKeeps : ∀ ref scope, ArrivesDeepest dsl line state.assigned ref scope →
      ArrivesDeepest dsl line after ref scope := by
    rintro ref scope (hEntry | ⟨dep, hDeepest, hLookup, hTie⟩)
    · exact Or.inl hEntry
    · refine Or.inr ⟨dep, hDeepest, ?_, hTie⟩
      rw [hSame dep ?_, hLookup]
      rintro rfl
      exact hNew (hVisited.mapped.scopes_visited _ (by simp [hLookup]))
  refine ⟨?_, ?_, ?_, ?_, ?_⟩
  · rw [queuedRefs_advance hQueue]
    exact hFifo.ordered_turn hVisited hResolved hDescent hListed hQueue hStmt
  · intro ref hRef length hChain
    refine ⟨(stmt, current), rfl, ?_⟩
    rw [advance_queue, List.map_append, List.map_map] at hRef
    rcases List.mem_append.mp hRef with hRest | hReleased
    · refine hFifo.near_head hQueue ?_ hChain
      rw [hQueue]
      exact List.mem_cons_of_mem _ hRest
    · obtain ⟨key, hKey, rfl⟩ := List.mem_map.mp hReleased
      exact (hFifo.released_deepest hVisited hResolved hQueue hStmt hKey).chain_succ.mp hChain
  · intro ref hLine hRef action hAction hLe
    have hAfter : Complete dsl (advance dsl state stmt.ref rest after next)
        ((stmt, current) :: order) := hComplete.turn hResolved hVisited hQueue
    rw [queuedRefs_advance hQueue] at hRef
    rcases List.mem_append.mp hRef with hOld | hReleased
    · rw [queuedRefs_advance hQueue]
      exact List.mem_append_left _ (hFifo.full ref hLine hOld action hAction hLe)
    · exact hFifo.full_turn hVisited hAfter hResolved hDescent hQueue hStmt hLine hReleased
        hAction hLe
  · rw [advance_assigned]
    intro entry hEntry
    rcases List.mem_cons.mp hEntry with rfl | hOld
    · exact hKeeps _ _ (hFifo.queued _ hHead)
    · exact hKeeps _ _ (hFifo.visited entry hOld)
  · rw [advance_assigned, advance_queue]
    intro entry hEntry
    rcases List.mem_append.mp hEntry with hOld | hReleased
    · exact hKeeps _ _ (hFifo.queued entry (hQueue ▸ List.mem_cons_of_mem _ hOld))
    · obtain ⟨key, hKey, rfl⟩ := List.mem_map.mp hReleased
      refine Or.inr ⟨stmt.ref, ?_, hNext, fun other hLine hDeepest => ?_⟩
      · exact hFifo.released_deepest hVisited hResolved hQueue hStmt hKey
      · exact hFifo.released_line hVisited hResolved hQueue hStmt hKey hLine hDeepest

end Fifo
end Turn

theorem fifo_start (hResolved : dsl.Resolved) (hDescent : Descent dsl.DependsOn line)
    (hListed : ListedLast dsl line) : Fifo dsl line (start dsl) [] := by
  have hRefs : queuedRefs (start dsl) [] =
      (dsl.actions.filter fun action => action.dependsOn.length = 0).map ActionStatement.ref := by
    simp [queuedRefs, visitedRefs, start, Function.comp_def]
  have hSublist : (queuedRefs (start dsl) []).Sublist (dsl.actions.map ActionStatement.ref) := by
    rw [hRefs]
    exact List.filter_sublist.map ActionStatement.ref
  have hEntry : ∀ ref ∈ queuedRefs (start dsl) [], ∃ stmt ∈ dsl.actions, stmt.ref = ref ∧
      stmt.deps = [] := by
    intro ref hRef
    rw [hRefs] at hRef
    obtain ⟨stmt, hStmt, rfl⟩ := List.mem_map.mp hRef
    obtain ⟨hMem, hNone⟩ := List.mem_filter.mp hStmt
    refine ⟨stmt, hMem, rfl, List.length_eq_zero_iff.mp ?_⟩
    rw [hResolved.deps_length hMem]
    exact of_decide_eq_true hNone
  refine ⟨?_, ?_, ?_, ?_, ?_⟩
  · apply pairwise_before hDescent (hResolved.refs_nodup.sublist hSublist)
    · exact List.Pairwise.sublist hSublist hListed
    · intro first hFirst second _
      obtain ⟨stmt, hStmt, rfl, hDeps⟩ := hEntry first hFirst
      exact depthLe_of_entry hResolved hStmt hDeps second
  · intro ref hRef length hChain
    obtain ⟨stmt, hStmt, rfl, hDeps⟩ := hEntry ref (mem_queuedRefs.mpr (Or.inr hRef))
    cases hChain with
    | cons hEdge _ =>
        obtain ⟨dep, hDep, -⟩ := (hResolved.dependsOn_iff hStmt).mp hEdge
        rw [hDeps] at hDep
        cases hDep
  · intro ref _ hRef stmt hStmt hLe
    obtain ⟨first, hFirst, rfl, hFirstDeps⟩ := hEntry ref hRef
    have hNone : stmt.dependsOn.length = 0 := by
      rw [← hResolved.deps_length hStmt]
      refine List.length_eq_zero_iff.mpr (List.eq_nil_iff_forall_not_mem.mpr fun dep hDep => ?_)
      have hChain := hLe 1
        (.cons ((hResolved.dependsOn_iff hStmt).mpr ⟨dep, hDep, rfl⟩) (.nil dep.1))
      cases hChain with
      | cons hEdge _ =>
          obtain ⟨other, hOther, -⟩ := (hResolved.dependsOn_iff hFirst).mp hEdge
          rw [hFirstDeps] at hOther
          cases hOther
    rw [hRefs]
    exact List.mem_map_of_mem (List.mem_filter.mpr ⟨hStmt, decide_eq_true hNone⟩)
  · intro entry hNone
    cases hNone
  · intro entry hQueued
    have hRoot : entry.2 = .root := by
      obtain ⟨stmt, -, rfl⟩ := List.mem_map.mp hQueued
      rfl
    have hMem : entry.1 ∈ queuedRefs (start dsl) [] :=
      mem_queuedRefs.mpr (Or.inr (List.mem_map_of_mem hQueued))
    obtain ⟨stmt, hStmt, hRef, hDeps⟩ := hEntry entry.1 hMem
    refine Or.inl ⟨fun dep hEdge => ?_, hRoot⟩
    rw [← hRef] at hEdge
    obtain ⟨other, hOther, -⟩ := (hResolved.dependsOn_iff hStmt).mp hEdge
    rw [hDeps] at hOther
    cases hOther

end TopoState

end Tracecat
