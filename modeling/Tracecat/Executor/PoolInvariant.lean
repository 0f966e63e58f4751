import Mathlib.Data.List.Nodup
import Tracecat.Executor.WorkerPool

/-!
# Accounts of the worker pool

The counters of the pool against the awaits of its calls.  Every step of a call
is one of a few changes of the accounts: nothing, a wait begins or ends, a worker
is obtained, released, taken out for recycling or replaced.
-/

namespace Tracecat
namespace Executor

/-! ## What an await says -/

namespace Await

/-- The worker that the call has obtained and not released. -/
def holds : Await → Option WorkerRef
  | running worker | releasing worker => some worker
  | _ => none

def recycles : Await → Option WorkerRef
  | terminating worker | killed worker | spawning worker | replacing worker _ => some worker
  | _ => none

/-- The call has announced that it waits for a slot. -/
def waits : Await → Bool
  | acquiring isWaiting => isWaiting
  | sleeping | leaving => true
  | _ => false

def seeks : Await → Bool
  | acquiring _ | sleeping | leaving => true
  | _ => false

end Await

namespace PoolEntry

def isObtained (call : CallId) (worker : WorkerRef) : PoolEntry → Bool
  | obtained call' worker' _ => call' = call && worker' = worker
  | released _ _ => false

def isReleased (call : CallId) (worker : WorkerRef) : PoolEntry → Bool
  | obtained _ _ _ => false
  | released call' worker' => call' = call && worker' = worker

def isObtainedBy (call : CallId) : PoolEntry → Bool
  | obtained call' _ _ => call' = call
  | released _ _ => false

end PoolEntry

namespace PoolState

variable (state : PoolState)

def holders (worker : WorkerRef) : Nat :=
  state.calls.countP fun call => call.2.holds = some worker

def recyclers (worker : WorkerRef) : Nat :=
  state.calls.countP fun call => call.2.recycles = some worker

def waiting : Nat :=
  state.calls.countP fun call => call.2.waits

def holding (call : CallId) (worker : WorkerRef) : Nat :=
  state.calls.countP fun other => other.1 = call ∧ other.2.holds = some worker

def obtained (call : CallId) (worker : WorkerRef) : Nat :=
  state.pool.log.countP (PoolEntry.isObtained call worker)

def released (call : CallId) (worker : WorkerRef) : Nat :=
  state.pool.log.countP (PoolEntry.isReleased call worker)

/-! ## A call settles -/

variable {state} {index : Nat} {call : CallId} {await : Await}

theorem countP_settle (hCall : state.calls[index]? = some (call, await))
    (pool : WorkerPool) (next : Option Await) (p : CallId × Await → Bool) :
    (state.settle index call (pool, next)).calls.countP p + (p (call, await)).toNat =
      state.calls.countP p + (next.map fun next => (p (call, next)).toNat).getD 0 := by
  obtain ⟨hIndex, hGet⟩ := List.getElem?_eq_some_iff.mp hCall
  have hSplit : state.calls =
      state.calls.take index ++ (call, await) :: state.calls.drop (index + 1) := by
    rw [← hGet, ← List.drop_eq_getElem_cons hIndex, List.take_append_drop]
  have hCount (other : CallId × Await) : (other :: state.calls.drop (index + 1)).countP p =
      (state.calls.drop (index + 1)).countP p + (p other).toNat := by
    rw [List.countP_cons]
    cases p other <;> rfl
  have hAll : state.calls.countP p = (state.calls.take index).countP p +
      ((state.calls.drop (index + 1)).countP p + (p (call, await)).toNat) := by
    conv_lhs => rw [hSplit]
    rw [List.countP_append, hCount]
  cases next with
  | none =>
      show (state.calls.eraseIdx index).countP p + _ = _
      rw [List.eraseIdx_eq_take_drop_succ, List.countP_append, hAll]
      simp
      omega
  | some next =>
      show (state.calls.set index (call, next)).countP p + _ = _
      rw [List.set_eq_take_append_cons_drop, if_pos hIndex, List.countP_append, hCount, hAll]
      simp
      omega

theorem mem_settle {pool : WorkerPool} {next : Option Await} {other : CallId × Await}
    (hOther : other ∈ (state.settle index call (pool, next)).calls) :
    other ∈ state.calls ∨ ∃ await, next = some await ∧ other = (call, await) := by
  cases next with
  | none => exact Or.inl (List.mem_of_mem_eraseIdx hOther)
  | some next =>
      rcases List.mem_or_eq_of_mem_set hOther with hOld | hNew
      · exact Or.inl hOld
      · exact Or.inr ⟨next, rfl, hNew⟩

theorem ids_settle (hCall : state.calls[index]? = some (call, await)) (pool : WorkerPool)
    (next : Option Await) :
    ((state.settle index call (pool, next)).calls.map Prod.fst).Sublist
      (state.calls.map Prod.fst) := by
  cases next with
  | none => exact (List.eraseIdx_sublist _ _).map _
  | some next =>
      have hSame : (state.calls.set index (call, next)).map Prod.fst = state.calls.map Prod.fst := by
        obtain ⟨hIndex, hGet⟩ := List.getElem?_eq_some_iff.mp hCall
        have hBound : index < (state.calls.map Prod.fst).length := by
          rw [List.length_map]
          exact hIndex
        have hId : (state.calls.map Prod.fst)[index] = call := by simp [hGet]
        rw [List.map_set, ← hId, List.set_getElem_self]
      exact hSame ▸ List.Sublist.refl _

end PoolState

/-! ## The invariant -/

/-- The accounts are in order. -/
structure PoolState.Balanced (config : PoolConfig) (state : PoolState) : Prop where
  nodup : state.pool.workers.Nodup
  bound : ∀ worker ∈ state.pool.workers, worker < state.pool.nextRef
  present : ∀ worker, worker ∉ state.pool.workers → (state.pool.info worker).activeTasks = 0
  active : ∀ worker, (state.pool.info worker).activeTasks = state.holders worker
  capacity : ∀ worker, (state.pool.info worker).activeTasks ≤ config.maxConcurrentPerWorker
  recyclers : ∀ worker, state.recyclers worker =
    (decide (worker ∈ state.pool.workers) && (state.pool.info worker).recycling).toNat
  idle : ∀ worker, (state.pool.info worker).recycling = true →
    (state.pool.info worker).activeTasks = 0
  waiting : state.pool.tasksWaiting = state.waiting
  ids : (state.calls.map Prod.fst).Nodup
  known : ∀ call ∈ state.calls, call.1 < state.nextCall
  logged : ∀ call worker info, .obtained call worker info ∈ state.pool.log →
    call < state.nextCall ∧ info.recycling = false ∧ info.dead = false
  seeking : ∀ call ∈ state.calls, call.2.seeks = true →
    ∀ worker info, .obtained call.1 worker info ∉ state.pool.log
  accounted : ∀ call worker,
    state.obtained call worker = state.released call worker + state.holding call worker
  once : ∀ call, state.pool.log.countP (PoolEntry.isObtainedBy call) ≤ 1

/-! ## Changes of the accounts -/

def Await.count (p : Await → Bool) (await : Option Await) : Nat :=
  (await.map fun await => (p await).toNat).getD 0

@[simp] theorem Await.count_none (p : Await → Bool) : Await.count p none = 0 := rfl

@[simp] theorem Await.count_some (p : Await → Bool) (await : Await) :
    Await.count p (some await) = (p await).toNat := rfl

/-- What a step of a call does to the accounts: the pool before and after, the
await before and after, and what the call has done. -/
structure Transfer (config : PoolConfig) (before after : WorkerPool) (call : CallId)
    (await : Await) (next : Option Await) (entries : List PoolEntry) : Prop where
  nodup : after.workers.Nodup
  bound : ∀ worker ∈ after.workers, worker < after.nextRef
  present : ∀ worker, worker ∉ after.workers → (after.info worker).activeTasks = 0
  active : ∀ worker,
    (after.info worker).activeTasks + (decide (await.holds = some worker)).toNat =
      (before.info worker).activeTasks +
        Await.count (fun await => await.holds = some worker) next
  capacity : ∀ worker, (after.info worker).activeTasks ≤ config.maxConcurrentPerWorker
  recyclers : ∀ worker,
    (decide (worker ∈ after.workers) && (after.info worker).recycling).toNat +
        (decide (await.recycles = some worker)).toNat =
      (decide (worker ∈ before.workers) && (before.info worker).recycling).toNat +
        Await.count (fun await => await.recycles = some worker) next
  idle : ∀ worker, (after.info worker).recycling = true → (after.info worker).activeTasks = 0
  waiting : after.tasksWaiting + await.waits.toNat =
    before.tasksWaiting + Await.count Await.waits next
  log : after.log = entries ++ before.log
  seeks : Await.count Await.seeks next ≤ await.seeks.toNat
  own : ∀ entry ∈ entries, ∀ other, other ≠ call → ∀ worker,
    entry.isObtained other worker = false ∧ entry.isReleased other worker = false
  obtained : ∀ other worker info, .obtained other worker info ∈ entries →
    other = call ∧ await.seeks = true ∧ Await.count Await.seeks next = 0 ∧
      info.recycling = false ∧ info.dead = false
  once : entries.length ≤ 1
  accounted : ∀ worker,
    entries.countP (PoolEntry.isObtained call worker) +
        (decide (await.holds = some worker)).toNat =
      entries.countP (PoolEntry.isReleased call worker) +
        Await.count (fun await => await.holds = some worker) next

namespace PoolState.Balanced

variable {config : PoolConfig} {state : PoolState} {index : Nat} {call : CallId} {await : Await}

/-- What a count of the calls sees of a call: their ids are distinct. -/
theorem countP_own {calls : List (CallId × Await)} (hIds : (calls.map Prod.fst).Nodup)
    (hMem : (call, await) ∈ calls) (p : Await → Bool) :
    (calls.countP fun other => other.1 = call && p other.2) = (p await).toNat := by
  induction calls with
  | nil => cases hMem
  | cons first calls ih =>
      rw [List.map_cons, List.nodup_cons] at hIds
      rw [List.countP_cons]
      rcases List.mem_cons.mp hMem with rfl | hMem
      · have hNone : (calls.countP fun other => other.1 = call && p other.2) = 0 := by
          rw [List.countP_eq_zero]
          intro other hOther hOwn
          rw [Bool.and_eq_true, decide_eq_true_eq] at hOwn
          exact hIds.1 (List.mem_map.mpr ⟨other, hOther, hOwn.1⟩)
        rw [hNone]
        cases p await <;> simp
      · have hOther : first.1 ≠ call := fun hId =>
          hIds.1 (hId ▸ List.mem_map_of_mem (f := Prod.fst) hMem)
        rw [ih hIds.2 hMem]
        simp [hOther]

theorem settle (hBalanced : state.Balanced config)
    (hCall : state.calls[index]? = some (call, await)) {pool : WorkerPool} {next : Option Await}
    {entries : List PoolEntry} (hTransfer : Transfer config state.pool pool call await next entries) :
    (state.settle index call (pool, next)).Balanced config := by
  have hMem : (call, await) ∈ state.calls := List.mem_of_getElem? hCall
  have hCount (p : Await → Bool) := state.countP_settle hCall pool next fun call => p call.2
  have hHolders (worker : WorkerRef) :
      (state.settle index call (pool, next)).holders worker +
          (decide (await.holds = some worker)).toNat =
        state.holders worker + Await.count (fun await => await.holds = some worker) next :=
    hCount fun await => await.holds = some worker
  have hRecyclers (worker : WorkerRef) :
      (state.settle index call (pool, next)).recyclers worker +
          (decide (await.recycles = some worker)).toNat =
        state.recyclers worker + Await.count (fun await => await.recycles = some worker) next :=
    hCount fun await => await.recycles = some worker
  have hWaiting : (state.settle index call (pool, next)).waiting + await.waits.toNat =
      state.waiting + Await.count Await.waits next := hCount Await.waits
  have hIds := PoolState.ids_settle hCall pool next
  have hIdMem {other : CallId × Await} (hOther : other ∈ (state.settle index call (pool, next)).calls) :
      other.1 ∈ state.calls.map Prod.fst := hIds.subset (List.mem_map_of_mem hOther)
  have hKnown : ∀ other ∈ (state.settle index call (pool, next)).calls, other.1 < state.nextCall := by
    intro other hOther
    obtain ⟨known, hKnown, hId⟩ := List.mem_map.mp (hIdMem hOther)
    exact hId ▸ hBalanced.known known hKnown
  have hOwn (p : Await → Bool) :
      ((state.settle index call (pool, next)).calls.countP fun other =>
        other.1 = call && p other.2) = Await.count p next := by
    have hSum := state.countP_settle hCall pool next fun other => other.1 = call && p other.2
    rw [countP_own hBalanced.ids hMem] at hSum
    simp only [decide_true, Bool.true_and] at hSum
    unfold Await.count
    omega
  refine ⟨hTransfer.nodup, hTransfer.bound, hTransfer.present, fun worker => ?_,
    hTransfer.capacity, fun worker => ?_, hTransfer.idle, ?_, hBalanced.ids.sublist hIds, hKnown,
    fun other worker info hLog => ?_, fun other hOther hSeeks worker info hLog => ?_,
    fun other worker => ?_, fun other => ?_⟩
  · have hActive := hTransfer.active worker
    have hOld := hBalanced.active worker
    have hSum := hHolders worker
    show (pool.info worker).activeTasks = _
    omega
  · have hFlags := hTransfer.recyclers worker
    have hOld := hBalanced.recyclers worker
    have hSum := hRecyclers worker
    show _ = (decide (worker ∈ pool.workers) && (pool.info worker).recycling).toNat
    omega
  · have hNew := hTransfer.waiting
    have hOld := hBalanced.waiting
    show pool.tasksWaiting = _
    omega
  · have hLog' : PoolEntry.obtained other worker info ∈ entries ++ state.pool.log :=
      hTransfer.log ▸ hLog
    rcases List.mem_append.mp hLog' with hNew | hOld
    · obtain ⟨rfl, -, -, hRecycling, hDead⟩ := hTransfer.obtained other worker info hNew
      exact ⟨hBalanced.known _ hMem, hRecycling, hDead⟩
    · exact hBalanced.logged other worker info hOld
  · have hLog' : PoolEntry.obtained other.1 worker info ∈ entries ++ state.pool.log :=
      hTransfer.log ▸ hLog
    by_cases hId : other.1 = call
    · have hNext : 0 < Await.count Await.seeks next := by
        rw [← hOwn Await.seeks, List.countP_pos_iff]
        exact ⟨other, hOther, by simp [hId, hSeeks]⟩
      have hAwait : await.seeks = true := by
        have hLe := hTransfer.seeks
        cases hSeek : await.seeks
        · rw [hSeek] at hLe
          simp only [Bool.toNat_false] at hLe
          omega
        · rfl
      rcases List.mem_append.mp hLog' with hNew | hOld
      · obtain ⟨-, -, hDone, -⟩ := hTransfer.obtained other.1 worker info hNew
        omega
      · rw [hId] at hOld
        exact hBalanced.seeking _ hMem hAwait worker info hOld
    · rcases List.mem_append.mp hLog' with hNew | hOld
      · exact hId (hTransfer.obtained other.1 worker info hNew).1
      · rcases PoolState.mem_settle hOther with hBefore | ⟨_, -, rfl⟩
        · exact hBalanced.seeking other hBefore hSeeks worker info hOld
        · exact hId rfl
  · have hOld := hBalanced.accounted other worker
    have hObtained : (state.settle index call (pool, next)).obtained other worker =
        entries.countP (PoolEntry.isObtained other worker) + state.obtained other worker := by
      show pool.log.countP _ = _
      rw [hTransfer.log, List.countP_append]
      rfl
    have hReleased : (state.settle index call (pool, next)).released other worker =
        entries.countP (PoolEntry.isReleased other worker) + state.released other worker := by
      show pool.log.countP _ = _
      rw [hTransfer.log, List.countP_append]
      rfl
    have hHolding := state.countP_settle hCall pool next fun another =>
      another.1 = other && decide (another.2.holds = some worker)
    by_cases hId : other = call
    · subst hId
      have hEntries := hTransfer.accounted worker
      simp only [decide_true, Bool.true_and] at hHolding
      simp only [holding, Bool.decide_and] at hOld ⊢
      simp only [Await.count] at hEntries
      omega
    · have hNone (p : PoolEntry → Bool) (hP : ∀ entry ∈ entries, p entry = false) :
          entries.countP p = 0 := by
        rw [List.countP_eq_zero]
        exact fun entry hEntry => by simp [hP entry hEntry]
      have hFirst := hNone _ fun entry hEntry => (hTransfer.own entry hEntry other hId worker).1
      have hSecond := hNone _ fun entry hEntry => (hTransfer.own entry hEntry other hId worker).2
      have hSkip : decide (call = other) = false := by simp [Ne.symm hId]
      simp only [hSkip, Bool.false_and, Bool.toNat_false] at hHolding
      simp only [holding, Bool.decide_and] at hOld ⊢
      cases next <;> simp at hHolding <;> omega
  · show pool.log.countP _ ≤ 1
    rw [hTransfer.log, List.countP_append]
    have hOld := hBalanced.once other
    by_cases hNew : ∃ worker info, PoolEntry.obtained other worker info ∈ entries
    · obtain ⟨worker, info, hNew⟩ := hNew
      obtain ⟨rfl, hSeek, -⟩ := hTransfer.obtained other worker info hNew
      have hNone : state.pool.log.countP (PoolEntry.isObtainedBy other) = 0 := by
        rw [List.countP_eq_zero]
        intro entry hEntry hBy
        cases entry with
        | obtained by_ worker' info' =>
            have hCaller : by_ = other := of_decide_eq_true hBy
            exact hBalanced.seeking _ hMem hSeek worker' info' (hCaller ▸ hEntry)
        | released by_ worker' => cases hBy
      have hLength := List.countP_le_length (p := PoolEntry.isObtainedBy other) (l := entries)
      have hOnce := hTransfer.once
      omega
    · have hNone : entries.countP (PoolEntry.isObtainedBy other) = 0 := by
        rw [List.countP_eq_zero]
        intro entry hEntry hBy
        cases entry with
        | obtained by_ worker' info' =>
            have hCaller : by_ = other := of_decide_eq_true hBy
            exact hNew ⟨worker', info', hCaller ▸ hEntry⟩
        | released by_ worker' => cases hBy
      omega

end PoolState.Balanced

/-! ## The changes, one by one -/

namespace WorkerPool

theorem info_modify (pool : WorkerPool) (worker other : WorkerRef)
    (change : WorkerInfo → WorkerInfo) :
    (pool.modify worker change).info other =
      if other = worker then change (pool.info worker) else pool.info other := by
  unfold modify
  by_cases hOther : other = worker
  · subst hOther
    simp
  · simp [hOther]

/-- The pools have the same accounts; processes may have died in between. -/
structure SameAccounts (pool other : WorkerPool) : Prop where
  workers : other.workers = pool.workers
  nextRef : other.nextRef = pool.nextRef
  log : other.log = pool.log
  activeTasks : ∀ worker, (other.info worker).activeTasks = (pool.info worker).activeTasks
  recycling : ∀ worker, (other.info worker).recycling = (pool.info worker).recycling

theorem SameAccounts.refl (pool : WorkerPool) : pool.SameAccounts pool :=
  ⟨rfl, rfl, rfl, fun _ => rfl, fun _ => rfl⟩

theorem sameAccounts_dead (pool : WorkerPool) (worker : WorkerRef) :
    pool.SameAccounts (pool.modify worker fun info => { info with dead := true }) := by
  refine ⟨rfl, rfl, rfl, fun other => ?_, fun other => ?_⟩ <;> rw [info_modify] <;> split <;>
    simp_all

/-- A selected worker is in the pool, alive, not recycling and below capacity. -/
theorem bestWorker?_some {config : PoolConfig} {pool : WorkerPool} {best : WorkerRef}
    (hBest : pool.bestWorker? config = some best) :
    best ∈ pool.workers ∧ (pool.info best).dead = false ∧ (pool.info best).recycling = false ∧
      (pool.info best).activeTasks < config.maxConcurrentPerWorker := by
  have hCandidate := List.mem_of_getElem? hBest
  have hAvailable := (List.mem_filter.mp hCandidate).1
  obtain ⟨hMem, hFree⟩ := List.mem_filter.mp hAvailable
  simp only [Bool.and_eq_true, Bool.not_eq_true', decide_eq_true_eq] at hFree
  exact ⟨hMem, hFree.1.1, hFree.1.2, hFree.2⟩

end WorkerPool

namespace PoolState.Balanced

variable {config : PoolConfig} {state : PoolState} {index : Nat} {call : CallId} {await : Await}
  {next : Option Await} {pool : WorkerPool} {isWaiting : Bool}

theorem holders_pos (hCall : state.calls[index]? = some (call, await)) {worker : WorkerRef}
    (hHolds : await.holds = some worker) : 0 < state.holders worker := by
  unfold PoolState.holders
  rw [List.countP_pos_iff]
  exact ⟨_, List.mem_of_getElem? hCall, by simpa using hHolds⟩

theorem recyclers_pos (hCall : state.calls[index]? = some (call, await)) {worker : WorkerRef}
    (hRecycles : await.recycles = some worker) : 0 < state.recyclers worker := by
  unfold PoolState.recyclers
  rw [List.countP_pos_iff]
  exact ⟨_, List.mem_of_getElem? hCall, by simpa using hRecycles⟩

variable (hBalanced : state.Balanced config)
include hBalanced

theorem recycled (hCall : state.calls[index]? = some (call, await)) {worker : WorkerRef}
    (hRecycles : await.recycles = some worker) :
    worker ∈ state.pool.workers ∧ (state.pool.info worker).recycling = true := by
  have hPos := recyclers_pos hCall hRecycles
  rw [hBalanced.recyclers worker] at hPos
  have hTrue : (decide (worker ∈ state.pool.workers) && (state.pool.info worker).recycling) =
      true := by
    by_contra hFalse
    rw [Bool.not_eq_true] at hFalse
    rw [hFalse] at hPos
    exact Nat.lt_irrefl 0 hPos
  simpa using hTrue

theorem quiet (hSame : state.pool.SameAccounts pool)
    (hHolds : ∀ worker, Await.count (fun await => await.holds = some worker) next =
      (decide (await.holds = some worker)).toNat)
    (hRecycles : ∀ worker, Await.count (fun await => await.recycles = some worker) next =
      (decide (await.recycles = some worker)).toNat)
    (hSeeks : Await.count Await.seeks next ≤ await.seeks.toNat)
    (hWaiting : pool.tasksWaiting + await.waits.toNat =
      state.pool.tasksWaiting + Await.count Await.waits next) :
    Transfer config state.pool pool call await next [] where
  nodup := hSame.workers ▸ hBalanced.nodup
  bound worker hWorker := by
    rw [hSame.workers] at hWorker
    rw [hSame.nextRef]
    exact hBalanced.bound worker hWorker
  present worker hAbsent := by
    rw [hSame.workers] at hAbsent
    rw [hSame.activeTasks]
    exact hBalanced.present worker hAbsent
  active worker := by rw [hHolds, hSame.activeTasks]
  capacity worker := by
    rw [hSame.activeTasks]
    exact hBalanced.capacity worker
  recyclers worker := by rw [hRecycles, hSame.workers, hSame.recycling]
  idle worker hRecycling := by
    rw [hSame.recycling] at hRecycling
    rw [hSame.activeTasks]
    exact hBalanced.idle worker hRecycling
  waiting := hWaiting
  log := hSame.log
  seeks := hSeeks
  own := by simp
  obtained := by simp
  once := by simp
  accounted worker := by
    rw [hHolds]
    rfl

theorem acquire (hCall : state.calls[index]? = some (call, .acquiring isWaiting)) {best : WorkerRef}
    (hBest : state.pool.bestWorker? config = some best)
    (hWorkers : pool.workers = state.pool.workers) (hNextRef : pool.nextRef = state.pool.nextRef)
    (hTasks : pool.tasksWaiting =
      if isWaiting then state.pool.tasksWaiting - 1 else state.pool.tasksWaiting)
    (hLog : pool.log = .obtained call best (state.pool.info best) :: state.pool.log)
    (hInfo : ∀ worker, pool.info worker =
      if worker = best then
      { state.pool.info best with activeTasks := (state.pool.info best).activeTasks + 1 }
      else state.pool.info worker) :
    Transfer config state.pool pool call (.acquiring isWaiting) (some (.running best))
      [.obtained call best (state.pool.info best)] := by
  obtain ⟨hMem, hDead, hRecycling, hCapacity⟩ := WorkerPool.bestWorker?_some hBest
  refine
    { nodup := hWorkers ▸ hBalanced.nodup
      bound := fun worker hWorker => ?_
      present := fun worker hAbsent => ?_
      active := fun worker => ?_
      capacity := fun worker => ?_
      recyclers := fun worker => ?_
      idle := fun worker => ?_
      waiting := ?_
      log := hLog
      seeks := by simp [Await.seeks]
      own := ?_
      obtained := ?_
      once := le_refl _
      accounted := fun worker => ?_ }
  · rw [hWorkers] at hWorker
    rw [hNextRef]
    exact hBalanced.bound worker hWorker
  · rw [hWorkers] at hAbsent
    rw [hInfo, if_neg fun hWorker : worker = best => hAbsent (hWorker ▸ hMem)]
    exact hBalanced.present worker hAbsent
  · rw [hInfo]
    by_cases hWorker : worker = best
    · simp [hWorker, Await.holds]
    · simp [hWorker, Await.holds, Ne.symm hWorker]
  · rw [hInfo]
    by_cases hWorker : worker = best
    · rw [if_pos hWorker]
      exact hCapacity
    · rw [if_neg hWorker]
      exact hBalanced.capacity worker
  · rw [hInfo, hWorkers]
    by_cases hWorker : worker = best <;> simp [hWorker, Await.recycles]
  · rw [hInfo]
    by_cases hWorker : worker = best
    · rw [if_pos hWorker]
      intro hTrue
      rw [hRecycling] at hTrue
      cases hTrue
    · rw [if_neg hWorker]
      exact hBalanced.idle worker
  · rw [hTasks]
    cases isWaiting with
    | false => simp [Await.waits]
    | true =>
        have hPos : 0 < state.waiting := by
          unfold PoolState.waiting
          rw [List.countP_pos_iff]
          exact ⟨_, List.mem_of_getElem? hCall, rfl⟩
        have hTotal := hBalanced.waiting
        simp [Await.waits]
        omega
  · intro entry hEntry other hOther worker
    rw [List.mem_singleton.mp hEntry]
    simp [PoolEntry.isObtained, PoolEntry.isReleased, Ne.symm hOther]
  · intro other worker info hEntry
    obtain ⟨rfl, rfl, rfl⟩ := PoolEntry.obtained.inj (List.mem_singleton.mp hEntry)
    exact ⟨rfl, rfl, by simp [Await.seeks], hRecycling, hDead⟩
  · by_cases hWorker : best = worker <;>
      simp [Await.holds, PoolEntry.isObtained, PoolEntry.isReleased, hWorker]

/-- The call releases its worker, and takes it out for recycling if it is marked
on the way. -/
theorem release (marked : Bool) {worker : WorkerRef}
    (hCall : state.calls[index]? = some (call, .releasing worker))
    (hWorkers : pool.workers = state.pool.workers) (hNextRef : pool.nextRef = state.pool.nextRef)
    (hTasks : pool.tasksWaiting = state.pool.tasksWaiting)
    (hLog : pool.log = .released call worker :: state.pool.log)
    (hActive : (pool.info worker).activeTasks = (state.pool.info worker).activeTasks - 1)
    (hMarked : (pool.info worker).recycling = ((state.pool.info worker).recycling || marked))
    (hOther : ∀ other, other ≠ worker → pool.info other = state.pool.info other)
    (hIdle : marked = true →
      (pool.info worker).activeTasks = 0 ∧ (state.pool.info worker).recycling = false)
    (hNext : next.bind Await.holds = none ∧ Await.count Await.waits next = 0 ∧
      Await.count Await.seeks next = 0 ∧
      next.bind Await.recycles = if marked then some worker else none) :
    Transfer config state.pool pool call (.releasing worker) next [.released call worker] := by
  have hPos : 0 < (state.pool.info worker).activeTasks := by
    rw [hBalanced.active]
    exact holders_pos hCall rfl
  have hMem : worker ∈ state.pool.workers := by
    by_contra hAbsent
    have hNone := hBalanced.present worker hAbsent
    omega
  have hHolds (other : WorkerRef) :
      Await.count (fun await => await.holds = some other) next = 0 := by
    cases next with
    | none => rfl
    | some next =>
        have hNone : next.holds = none := hNext.1
        simp [hNone]
  have hRecycles (other : WorkerRef) :
      Await.count (fun await => await.recycles = some other) next =
        (decide (other = worker) && marked).toNat := by
    have hEq := hNext.2.2.2
    cases next with
    | none =>
        have hUnmarked : marked = false := by
          cases marked with
          | false => rfl
          | true => cases hEq
        rw [hUnmarked, Bool.and_false]
        rfl
    | some next =>
        have hSome : next.recycles = if marked then some worker else none := hEq
        rw [Await.count_some, hSome]
        cases marked with
        | false => simp
        | true =>
            rw [if_pos rfl]
            by_cases hSame : worker = other
            · simp [hSame]
            · simp [hSame, Ne.symm hSame]
  refine
    { nodup := hWorkers ▸ hBalanced.nodup
      bound := fun other hOther => ?_
      present := fun other hAbsent => ?_
      active := fun other => ?_
      capacity := fun other => ?_
      recyclers := fun other => ?_
      idle := fun other hRecycling => ?_
      waiting := by rw [hTasks, hNext.2.1]; rfl
      log := hLog
      seeks := by simp [hNext.2.2.1]
      own := ?_
      obtained := by simp
      once := le_refl _
      accounted := fun other => ?_ }
  · rw [hWorkers] at hOther
    rw [hNextRef]
    exact hBalanced.bound other hOther
  · rw [hWorkers] at hAbsent
    rw [hOther other fun hWorker => hAbsent (hWorker ▸ hMem)]
    exact hBalanced.present other hAbsent
  · rw [hHolds]
    by_cases hWorker : other = worker
    · subst hWorker
      simp [Await.holds]
      omega
    · rw [hOther other hWorker]
      simp [Await.holds, Ne.symm hWorker]
  · by_cases hWorker : other = worker
    · subst hWorker
      have hOld := hBalanced.capacity other
      omega
    · rw [hOther other hWorker]
      exact hBalanced.capacity other
  · rw [hRecycles, hWorkers]
    by_cases hWorker : other = worker
    · subst hWorker
      rw [hMarked]
      cases hFlag : marked with
      | false => simp [Await.recycles]
      | true => simp [Await.recycles, hMem, (hIdle hFlag).2]
    · rw [hOther other hWorker]
      simp [Await.recycles, hWorker]
  · by_cases hWorker : other = worker
    · subst hWorker
      rw [hMarked, Bool.or_eq_true] at hRecycling
      rcases hRecycling with hOld | hNew
      · have hNone := hBalanced.idle other hOld
        omega
      · exact (hIdle hNew).1
    · rw [hOther other hWorker] at hRecycling ⊢
      exact hBalanced.idle other hRecycling
  · intro entry hEntry other hOther worker
    rw [List.mem_singleton.mp hEntry]
    simp [PoolEntry.isObtained, PoolEntry.isReleased, Ne.symm hOther]
  · rw [hHolds]
    by_cases hWorker : worker = other <;>
      simp [Await.holds, PoolEntry.isObtained, PoolEntry.isReleased, hWorker]

/-- The call puts a new worker in the place of the one it recycles, or takes
that one out of the pool. -/
theorem replace {worker : WorkerRef} {spawned : Bool}
    (hCall : state.calls[index]? = some (call, .replacing worker spawned)) :
    Transfer config state.pool (state.pool.replaceWorker worker spawned) call
      (.replacing worker spawned) none [] := by
  obtain ⟨hMem, hMarked⟩ := hBalanced.recycled hCall rfl
  have hIdle := hBalanced.idle worker hMarked
  have hNewRef : state.pool.nextRef ∉ state.pool.workers := fun hIn =>
    Nat.lt_irrefl _ (hBalanced.bound _ hIn)
  cases spawned with
  | false =>
      have hPool : state.pool.replaceWorker worker false =
          { state.pool with workers := state.pool.workers.erase worker } := by
        unfold WorkerPool.replaceWorker
        rw [if_neg (not_not.mpr hMem)]
        rfl
      rw [hPool]
      have hErase (other : WorkerRef) : other ∈ state.pool.workers.erase worker ↔
          other ≠ worker ∧ other ∈ state.pool.workers := hBalanced.nodup.mem_erase_iff
      refine
        { nodup := hBalanced.nodup.erase worker
          bound := fun other hOther => hBalanced.bound other ((hErase other).mp hOther).2
          present := fun other hAbsent => ?_
          active := fun other => rfl
          capacity := hBalanced.capacity
          recyclers := fun other => ?_
          idle := hBalanced.idle
          waiting := rfl
          log := rfl
          seeks := by simp
          own := by simp
          obtained := by simp
          once := by simp
          accounted := fun other => rfl }
      · rw [hErase, not_and_or, not_ne_iff] at hAbsent
        rcases hAbsent with rfl | hAbsent
        · exact hIdle
        · exact hBalanced.present other hAbsent
      · by_cases hWorker : other = worker
        · subst hWorker
          simp [hErase, hMem, hMarked, Await.recycles]
        · simp [hErase, hWorker, Ne.symm hWorker, Await.recycles]
  | true =>
      let swap (other : WorkerRef) : WorkerRef :=
        if other = worker then state.pool.nextRef else other
      have hPool : state.pool.replaceWorker worker true =
          { state.pool with
            workers := state.pool.workers.map swap
            info := Function.update state.pool.info state.pool.nextRef
              { workerId := (state.pool.info worker).workerId }
            nextRef := state.pool.nextRef + 1 } := by
        unfold WorkerPool.replaceWorker
        rw [if_neg (not_not.mpr hMem)]
        rfl
      rw [hPool]
      have hSwap (other : WorkerRef) : other ∈ state.pool.workers.map swap ↔
          other = state.pool.nextRef ∨ other ≠ worker ∧ other ∈ state.pool.workers := by
        rw [List.mem_map]
        constructor
        · rintro ⟨old, hOld, rfl⟩
          by_cases hWorker : old = worker
          · exact Or.inl (if_pos hWorker)
          · rw [show swap old = old from if_neg hWorker]
            exact Or.inr ⟨hWorker, hOld⟩
        · rintro (rfl | ⟨hWorker, hOld⟩)
          · exact ⟨worker, hMem, if_pos rfl⟩
          · exact ⟨other, hOld, if_neg hWorker⟩
      have hInfo (other : WorkerRef) :
          (Function.update state.pool.info state.pool.nextRef
              { workerId := (state.pool.info worker).workerId }) other =
            if other = state.pool.nextRef then
              { workerId := (state.pool.info worker).workerId }
            else state.pool.info other := by
        by_cases hNew : other = state.pool.nextRef
        · subst hNew
          simp
        · simp [hNew]
      have hFresh : (state.pool.info state.pool.nextRef).activeTasks = 0 :=
        hBalanced.present _ hNewRef
      refine
        { nodup := hBalanced.nodup.map_on fun first hFirst second hSecond hEq => ?_
          bound := fun other hOther => ?_
          present := fun other hAbsent => ?_
          active := fun other => ?_
          capacity := fun other => ?_
          recyclers := fun other => ?_
          idle := fun other hRecycling => ?_
          waiting := rfl
          log := rfl
          seeks := by simp
          own := by simp
          obtained := by simp
          once := by simp
          accounted := fun other => rfl }
      · by_cases hFirstOld : first = worker
        · by_cases hSecondOld : second = worker
          · exact hFirstOld.trans hSecondOld.symm
          · rw [show swap first = state.pool.nextRef from if_pos hFirstOld,
              show swap second = second from if_neg hSecondOld] at hEq
            exact absurd (hEq ▸ hSecond) hNewRef
        · by_cases hSecondOld : second = worker
          · rw [show swap second = state.pool.nextRef from if_pos hSecondOld,
              show swap first = first from if_neg hFirstOld] at hEq
            exact absurd (hEq ▸ hFirst) hNewRef
          · rwa [show swap first = first from if_neg hFirstOld,
              show swap second = second from if_neg hSecondOld] at hEq
      · rcases (hSwap other).mp hOther with rfl | ⟨-, hOld⟩
        · exact Nat.lt_succ_self _
        · exact Nat.lt_succ_of_lt (hBalanced.bound other hOld)
      · rw [hSwap, not_or, not_and_or, not_ne_iff] at hAbsent
        show ((Function.update state.pool.info state.pool.nextRef _) other).activeTasks = 0
        rw [hInfo, if_neg hAbsent.1]
        rcases hAbsent.2 with rfl | hOld
        · exact hIdle
        · exact hBalanced.present other hOld
      · show ((Function.update state.pool.info state.pool.nextRef _) other).activeTasks + _ = _
        rw [hInfo]
        by_cases hNew : other = state.pool.nextRef
        · subst hNew
          simp [hFresh, Await.holds]
        · simp [hNew, Await.holds]
      · show ((Function.update state.pool.info state.pool.nextRef _) other).activeTasks ≤ _
        rw [hInfo]
        split
        · exact Nat.zero_le _
        · exact hBalanced.capacity other
      · show (_ && ((Function.update state.pool.info state.pool.nextRef _) other).recycling).toNat +
          _ = _
        rw [hInfo]
        by_cases hNew : other = state.pool.nextRef
        · subst hNew
          have hNe : worker ≠ state.pool.nextRef := fun hEq => hNewRef (hEq ▸ hMem)
          simp [hNewRef, hNe, Await.recycles]
        · by_cases hWorker : other = worker
          · subst hWorker
            simp [hSwap, hNew, hMem, hMarked, Await.recycles]
          · simp [hSwap, hNew, hWorker, Ne.symm hWorker, Await.recycles]
      · have hRecycling' :
            ((Function.update state.pool.info state.pool.nextRef
              { workerId := (state.pool.info worker).workerId }) other).recycling = true := hRecycling
        show ((Function.update state.pool.info state.pool.nextRef _) other).activeTasks = 0
        rw [hInfo] at hRecycling' ⊢
        split
        · rfl
        · rename_i hNew
          rw [if_neg hNew] at hRecycling'
          exact hBalanced.idle other hRecycling'

end PoolState.Balanced

end Executor
end Tracecat
