import Tracecat.Scheduler.Regions

/-!
# Counters and markers

The indegree counter of an action in a stream counts the edges into it that are
still `PENDING` there, as long as no dependency is listed twice.  An emission
of an action whose out-edges are pending keeps this, and it queues exactly the
successors that have no pending edge left.
-/

namespace Tracecat

namespace Control

/-- The dependencies of an action whose edge is still pending in a stream. -/
def pendingDeps (control : Control) (stmt : ActionStatement) (stream : StreamID) :
    List AdjDst :=
  stmt.deps.filter fun dep => control.marker ⟨dep.1, stmt.ref, dep.2, stream⟩ = .pending

/-- The counter of an action in a stream counts its pending dependencies. -/
def Counted (control : Control) (stmt : ActionStatement) (stream : StreamID) : Prop :=
  control.indegree ⟨stmt.ref, stream⟩ = (control.pendingDeps stmt stream).length

/-- The edges out of an action are pending in a stream. -/
def Unmarked (dsl : DSLInput) (control : Control) (src : Ref) (stream : StreamID) : Prop :=
  ∀ next ∈ dsl.adj src, control.marker ⟨src, next.1, next.2, stream⟩ = .pending

section Emission

variable {dsl : DSLInput} {control : Control} {src : Ref} {stream : StreamID} {delay : Int}
  {keep : EdgeType → Bool} {stmt : ActionStatement}

theorem mem_pendingDeps {dep : AdjDst} :
    dep ∈ control.pendingDeps stmt stream ↔
      dep ∈ stmt.deps ∧ control.marker ⟨dep.1, stmt.ref, dep.2, stream⟩ = .pending := by
  simp [pendingDeps]

theorem mem_adj_of_dep (hStmt : stmt ∈ dsl.actions) {dep : AdjDst} (hDep : dep ∈ stmt.deps) :
    (stmt.ref, dep.2) ∈ dsl.adj dep.1 :=
  DSLInput.mem_adj.mpr ⟨stmt, hStmt, rfl, hDep⟩

theorem emit_marker_dep (hStmt : stmt ∈ dsl.actions) {dep : AdjDst} (hDep : dep ∈ stmt.deps)
    (other : StreamID) :
    (control.emit dsl src stream delay keep).marker ⟨dep.1, stmt.ref, dep.2, other⟩ =
      if dep.1 = src ∧ other = stream then if keep dep.2 then .visited else .skipped
      else control.marker ⟨dep.1, stmt.ref, dep.2, other⟩ := by
  unfold emit
  simp only
  by_cases hEdge : dep.1 = src ∧ other = stream
  · have hAdj : (stmt.ref, dep.2) ∈ dsl.adj src := hEdge.1 ▸ mem_adj_of_dep hStmt hDep
    simp [hEdge, hAdj]
  · rw [if_neg (fun h => hEdge ⟨h.1, h.2.1⟩), if_neg hEdge]

/-- The dependencies that are pending after an emission are those on other
actions. -/
theorem emit_pendingDeps (hStmt : stmt ∈ dsl.actions) :
    (control.emit dsl src stream delay keep).pendingDeps stmt stream =
      (control.pendingDeps stmt stream).filter fun dep => dep.1 ≠ src := by
  unfold pendingDeps
  rw [List.filter_filter]
  refine List.filter_congr fun dep hDep => ?_
  rw [emit_marker_dep hStmt hDep]
  by_cases hSrc : dep.1 = src
  · by_cases hKeep : keep dep.2 <;> simp [hSrc, hKeep]
  · simp [hSrc]

theorem count_dep_eq (hNodup : (dsl.actions.map ActionStatement.ref).Nodup)
    (hStmt : stmt ∈ dsl.actions) (hDeps : stmt.deps.Nodup)
    (hUnmarked : control.Unmarked dsl src stream) :
    ((dsl.adj src).map Prod.fst).count stmt.ref =
      ((control.pendingDeps stmt stream).filter fun dep => dep.1 = src).length := by
  rw [DSLInput.count_adj hNodup hStmt, List.dedup_eq_self.mpr hDeps, List.count,
    List.countP_map, List.countP_eq_length_filter]
  unfold pendingDeps
  rw [List.filter_filter]
  refine congrArg List.length (List.filter_congr fun dep hDep => ?_)
  by_cases hSrc : dep.1 = src
  · subst hSrc
    have hPending := hUnmarked (stmt.ref, dep.2) (mem_adj_of_dep hStmt hDep)
    simp [hPending]
  · simp [hSrc]

theorem length_pendingDeps_split (control : Control) (stmt : ActionStatement)
    (stream : StreamID) (src : Ref) :
    (control.pendingDeps stmt stream).length =
      ((control.pendingDeps stmt stream).filter fun dep => dep.1 = src).length +
        ((control.pendingDeps stmt stream).filter fun dep => dep.1 ≠ src).length := by
  rw [← List.countP_eq_length_filter, ← List.countP_eq_length_filter,
    List.length_eq_countP_add_countP fun dep : AdjDst => decide (dep.1 = src)]
  simp

theorem Counted.emit (hCounted : control.Counted stmt stream)
    (hNodup : (dsl.actions.map ActionStatement.ref).Nodup) (hStmt : stmt ∈ dsl.actions)
    (hDeps : stmt.deps.Nodup) (hUnmarked : control.Unmarked dsl src stream) :
    (control.emit dsl src stream delay keep).Counted stmt stream := by
  unfold Counted at hCounted ⊢
  have hSplit := length_pendingDeps_split control stmt stream src
  have hCount := count_dep_eq hNodup hStmt hDeps hUnmarked
  rw [emit_pendingDeps hStmt]
  have hIndegree : (control.emit dsl src stream delay keep).indegree ⟨stmt.ref, stream⟩ =
      control.indegree ⟨stmt.ref, stream⟩ - ((dsl.adj src).map Prod.fst).count stmt.ref := by
    simp [Control.emit]
  rw [hIndegree, hCounted, hCount]
  omega

/-- No counter is overdrawn by an emission of an unmarked action. -/
theorem count_adj_le (hNodup : (dsl.actions.map ActionStatement.ref).Nodup)
    (hDistinct : ∀ stmt ∈ dsl.actions, stmt.deps.Nodup)
    (hCounted : ∀ stmt ∈ dsl.actions, control.Counted stmt stream)
    (hUnmarked : control.Unmarked dsl src stream) :
    ∀ ref ∈ (dsl.adj src).map Prod.fst,
      (((dsl.adj src).map Prod.fst).count ref : Int) ≤ control.indegree ⟨ref, stream⟩ := by
  intro ref hRef
  obtain ⟨next, hNext, rfl⟩ := List.mem_map.mp hRef
  obtain ⟨stmt, hStmt, hDst, -⟩ := DSLInput.mem_adj.mp hNext
  rw [← hDst, hCounted stmt hStmt, count_dep_eq hNodup hStmt (hDistinct stmt hStmt) hUnmarked,
    length_pendingDeps_split control stmt stream src]
  omega

variable (delay keep) in
/-- What an emission queues: the successors that have no pending dependency
left. -/
theorem mem_released_iff (hNodup : (dsl.actions.map ActionStatement.ref).Nodup)
    (hDistinct : ∀ stmt ∈ dsl.actions, stmt.deps.Nodup)
    (hCounted : ∀ stmt ∈ dsl.actions, control.Counted stmt stream)
    (hUnmarked : control.Unmarked dsl src stream) (hStmt : stmt ∈ dsl.actions) :
    stmt.ref ∈ control.released dsl src stream ↔
      (∃ dep ∈ stmt.deps, dep.1 = src) ∧
        (control.emit dsl src stream delay keep).pendingDeps stmt stream = [] := by
  unfold released
  rw [Countdown.mem_released_iff _ _ (count_adj_le hNodup hDistinct hCounted hUnmarked),
    emit_pendingDeps hStmt, ← List.length_eq_zero_iff, hCounted stmt hStmt,
    count_dep_eq hNodup hStmt (hDistinct stmt hStmt) hUnmarked,
    length_pendingDeps_split control stmt stream src]
  have hSuccessor : stmt.ref ∈ (dsl.adj src).map Prod.fst ↔ ∃ dep ∈ stmt.deps, dep.1 = src := by
    constructor
    · intro hRef
      obtain ⟨next, hNext, hDst⟩ := List.mem_map.mp hRef
      obtain ⟨other, hOther, hOtherRef, hDep⟩ := DSLInput.mem_adj.mp hNext
      have hSame : other = stmt :=
        List.inj_on_of_nodup_map hNodup hOther hStmt (hOtherRef.trans hDst)
      exact ⟨(src, next.2), hSame ▸ hDep, rfl⟩
    · rintro ⟨dep, hDep, rfl⟩
      exact List.mem_map.mpr ⟨_, mem_adj_of_dep hStmt hDep, rfl⟩
  rw [hSuccessor]
  refine and_congr_right fun _ => ?_
  push_cast
  omega

theorem nodup_released (hNodup : (dsl.actions.map ActionStatement.ref).Nodup)
    (hDistinct : ∀ stmt ∈ dsl.actions, stmt.deps.Nodup)
    (hCounted : ∀ stmt ∈ dsl.actions, control.Counted stmt stream)
    (hUnmarked : control.Unmarked dsl src stream) :
    (control.released dsl src stream).Nodup :=
  Countdown.released_nodup _ _ (count_adj_le hNodup hDistinct hCounted hUnmarked)

end Emission

def active (control : Control) : List Task :=
  control.queue.map DelayedTask.task ++ control.pending.map Coroutine.task

end Control

end Tracecat
