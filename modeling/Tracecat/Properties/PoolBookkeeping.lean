import Tracecat.Lib.Runs
import Tracecat.Executor.PoolInvariant

/-!
# Bookkeeping of the worker pool

The counters of the pool agree with its calls in every run in which no call is
interrupted while it recycles a worker or while it takes itself off the waiting
count.  An interrupted recycling releases its worker a second time, and the
worker stays marked with no call left to replace it.
-/

namespace Tracecat
namespace Executor

open PoolState

/-- The books of the pool are right. -/
structure PoolBookkeeping (config : PoolConfig) (state : PoolState) : Prop where
  /-- the tasks of a worker are the calls that hold it, within its capacity -/
  active : ∀ worker ∈ state.pool.workers,
    (state.pool.info worker).activeTasks = state.holders worker ∧
      state.holders worker ≤ config.maxConcurrentPerWorker
  /-- a call obtains one worker at most, and has released what it does not hold once -/
  once : ∀ call, state.pool.log.countP (PoolEntry.isObtainedBy call) ≤ 1
  released : ∀ call worker,
    state.obtained call worker = state.released call worker + state.holding call worker
  /-- no worker was obtained while it was recycled or known to be dead -/
  assigned : ∀ call worker info, .obtained call worker info ∈ state.pool.log →
    info.recycling = false ∧ info.dead = false
  /-- a worker that is being recycled is held by no call -/
  recycled : ∀ call ∈ state.calls, ∀ worker, call.2.recycles = some worker →
    state.holders worker = 0
  waiting : state.pool.tasksWaiting = state.waiting
  idle : state.calls = [] → ∀ worker ∈ state.pool.workers,
    (state.pool.info worker).recycling = false

/-- The event interrupts a call that recycles a worker or leaves the queue: a
cancellation, or an exception of `terminate` or `kill`. -/
def PoolState.interrupts (config : PoolConfig) (state : PoolState) : PoolEvent → Bool
  | .cancel index =>
      (state.calls[index]?).any fun call => call.2.recycles.isSome || call.2 = .leaving
  | .resume index .raised =>
      (state.calls[index]?).any fun call =>
        match call.2 with
        | .terminating _ => true
        | .releasing worker => (state.pool.releaseWorker config call.1 worker).2
        | _ => false
  | _ => false

/-- A step that interrupts no such call. -/
def SafePoolStep (config : PoolConfig) (state : PoolState) (event : PoolEvent)
    (next : PoolState) : Prop :=
  state.interrupts config event = false ∧ state.step config event = some next

namespace PoolState.Balanced

variable {config : PoolConfig} {state : PoolState} {index : Nat} {call : CallId} {await : Await}

theorem bookkeeping (hBalanced : state.Balanced config) : PoolBookkeeping config state where
  active worker _ :=
    ⟨hBalanced.active worker, hBalanced.active worker ▸ hBalanced.capacity worker⟩
  once := hBalanced.once
  released := hBalanced.accounted
  assigned call worker info hLog := (hBalanced.logged call worker info hLog).2
  recycled other hOther worker hRecycles := by
    obtain ⟨index, hIndex⟩ := List.mem_iff_getElem?.mp hOther
    have hMarked := (hBalanced.recycled hIndex hRecycles).2
    rw [← hBalanced.active, hBalanced.idle worker hMarked]
  waiting := hBalanced.waiting
  idle hNone worker hWorker := by
    have hFlags := hBalanced.recyclers worker
    unfold PoolState.recyclers at hFlags
    rw [hNone, List.countP_nil] at hFlags
    by_contra hMarked
    rw [Bool.not_eq_false] at hMarked
    simp [hWorker, hMarked] at hFlags

theorem started (config : PoolConfig) (workerIds : List Nat) :
    (PoolState.started workerIds).Balanced config where
  nodup := List.nodup_range
  bound worker hWorker := List.mem_range.mp hWorker
  present _ _ := rfl
  active _ := rfl
  capacity _ := Nat.zero_le _
  recyclers worker := by simp [PoolState.started, PoolState.recyclers]
  idle _ _ := rfl
  waiting := rfl
  ids := List.nodup_nil
  known := by simp [PoolState.started]
  logged := by simp [PoolState.started]
  seeking := by simp [PoolState.started]
  accounted _ _ := rfl
  once _ := Nat.zero_le _

/-! ## Steps -/

variable (hBalanced : state.Balanced config)
include hBalanced

theorem execute :
    ({ state with
        calls := state.calls ++ [(state.nextCall, .acquiring false)]
        nextCall := state.nextCall + 1 } : PoolState).Balanced config := by
  have hCount (p : CallId × Await → Bool) (hP : p (state.nextCall, .acquiring false) = false) :
      (state.calls ++ [(state.nextCall, Await.acquiring false)]).countP p =
        state.calls.countP p := by
    rw [List.countP_append, List.countP_singleton, if_neg (by simp [hP]), Nat.add_zero]
  refine
    { hBalanced with
      active := fun worker => ?_
      recyclers := fun worker => ?_
      waiting := ?_
      ids := ?_
      known := ?_
      logged := fun other worker info hLog => ?_
      seeking := fun other hOther hSeeks worker info hLog => ?_
      accounted := fun other worker => ?_ }
  · exact (hBalanced.active worker).trans (hCount _ rfl).symm
  · exact (hCount _ rfl).trans (hBalanced.recyclers worker)
  · exact hBalanced.waiting.trans (hCount _ rfl).symm
  · rw [List.map_append, List.nodup_append]
    refine ⟨hBalanced.ids, List.nodup_singleton _, fun id hId other hOther => ?_⟩
    obtain ⟨known, hKnown, rfl⟩ := List.mem_map.mp hId
    rw [List.mem_singleton.mp hOther]
    exact Nat.ne_of_lt (hBalanced.known known hKnown)
  · intro other hOther
    rcases List.mem_append.mp hOther with hOld | hNew
    · exact Nat.lt_succ_of_lt (hBalanced.known other hOld)
    · rw [List.mem_singleton.mp hNew]
      exact Nat.lt_succ_self _
  · obtain ⟨hKnown, hInfo⟩ := hBalanced.logged other worker info hLog
    exact ⟨Nat.lt_succ_of_lt hKnown, hInfo⟩
  · rcases List.mem_append.mp hOther with hOld | hNew
    · exact hBalanced.seeking other hOld hSeeks worker info hLog
    · rw [List.mem_singleton.mp hNew] at hLog
      exact Nat.lt_irrefl _ (hBalanced.logged _ worker info hLog).1
  · refine (hBalanced.accounted other worker).trans ?_
    exact congrArg _ (hCount _ (by simp [Await.holds])).symm

theorem die (worker : WorkerRef) :
    ({ state with
        pool := state.pool.modify worker fun info => { info with dead := true } } :
          PoolState).Balanced config := by
  have hSame := state.pool.sameAccounts_dead worker
  exact
    { hBalanced with
      present := fun other hAbsent => (hSame.activeTasks other).trans (hBalanced.present other hAbsent)
      active := fun other => (hSame.activeTasks other).trans (hBalanced.active other)
      capacity := fun other => (hSame.activeTasks other).trans_le (hBalanced.capacity other)
      recyclers := fun other => by
        have hOld := hBalanced.recyclers other
        rw [← hSame.recycling] at hOld
        exact hOld
      idle := fun other hMarked =>
        (hSame.activeTasks other).trans (hBalanced.idle other (hSame.recycling other ▸ hMarked)) }

theorem marked {worker : WorkerRef} (hCall : state.calls[index]? = some (call, .releasing worker))
    (hRecycle : (state.pool.releaseWorker config call worker).2 = true) :
    Transfer config state.pool (state.pool.releaseWorker config call worker).1 call
      (.releasing worker) (some (.terminating worker)) [.released call worker] := by
  unfold WorkerPool.releaseWorker at hRecycle ⊢
  simp only [WorkerPool.info_modify, WorkerPool.record, if_true] at hRecycle ⊢
  split at hRecycle
  case isFalse => cases hRecycle
  case isTrue hDone =>
    rw [if_pos hDone]
    refine hBalanced.release true hCall rfl rfl rfl rfl ?_ ?_ (fun other hOther => ?_)
      (fun _ => ⟨?_, hDone.2.2⟩) ⟨rfl, rfl, rfl, rfl⟩
    · simp [WorkerPool.info_modify]
    · simp [WorkerPool.info_modify]
    · simp [WorkerPool.info_modify, hOther]
    · simpa [WorkerPool.info_modify] using hDone.2.1

theorem unmarked {worker : WorkerRef} (hCall : state.calls[index]? = some (call, .releasing worker))
    (hRecycle : (state.pool.releaseWorker config call worker).2 ≠ true) :
    Transfer config state.pool (state.pool.releaseWorker config call worker).1 call
      (.releasing worker) none [.released call worker] := by
  unfold WorkerPool.releaseWorker at hRecycle ⊢
  simp only [WorkerPool.info_modify, WorkerPool.record, if_true] at hRecycle ⊢
  split at hRecycle
  case isTrue => exact absurd rfl hRecycle
  case isFalse hKept =>
    rw [if_neg hKept]
    refine hBalanced.release false hCall rfl rfl rfl rfl ?_ ?_ (fun other hOther => ?_)
      Bool.noConfusion ⟨rfl, rfl, rfl, rfl⟩
    · simp [WorkerPool.info_modify]
    · simp [WorkerPool.info_modify]
    · simp [WorkerPool.info_modify, hOther]

theorem resume (hCall : state.calls[index]? = some (call, await)) {outcome : Outcome}
    (hTerminating : outcome = .raised → ∀ worker, await ≠ .terminating worker)
    (hReleasing : outcome = .raised → ∀ worker, await = .releasing worker →
      (state.pool.releaseWorker config call worker).2 = false) {result : WorkerPool × Option Await}
    (hResume : state.pool.resume config call outcome await = some result) :
    (state.settle index call result).Balanced config := by
  have hRefl := WorkerPool.SameAccounts.refl state.pool
  cases await with
  | acquiring isWaiting =>
      cases hBest : state.pool.bestWorker? config with
      | some best =>
          simp only [WorkerPool.resume, WorkerPool.getAvailableWorker, hBest, Option.some.injEq]
            at hResume
          subst hResume
          exact hBalanced.settle hCall (hBalanced.acquire hCall hBest rfl rfl rfl rfl
            (WorkerPool.info_modify
              (state.pool.record (.obtained call best (state.pool.info best))) best ·
              fun info => { info with activeTasks := info.activeTasks + 1 }))
      | none =>
          -- the call announces its wait in the first turn without a worker
          have hWaits (next : Await) (hNext : next = .sleeping ∨ next = .leaving) :
              Transfer config state.pool
                (if isWaiting then state.pool
                  else { state.pool with tasksWaiting := state.pool.tasksWaiting + 1 })
                call (.acquiring isWaiting) (some next) [] := by
            refine hBalanced.quiet ?_ (fun worker => ?_) (fun worker => ?_) ?_ ?_
            · cases isWaiting
              · exact ⟨rfl, rfl, rfl, fun _ => rfl, fun _ => rfl⟩
              · exact hRefl
            · rcases hNext with rfl | rfl <;> rfl
            · rcases hNext with rfl | rfl <;> rfl
            · rcases hNext with rfl | rfl <;> exact le_refl _
            · rcases hNext with rfl | rfl <;> cases isWaiting <;> rfl
          simp only [WorkerPool.resume, WorkerPool.getAvailableWorker, hBest, Option.some.injEq]
            at hResume
          subst hResume
          refine hBalanced.settle hCall (hWaits _ ?_)
          by_cases hTime : outcome = .timedOut
          · exact Or.inr (if_pos hTime)
          · exact Or.inl (if_neg hTime)
  | sleeping =>
      cases hResume
      exact hBalanced.settle hCall
        (hBalanced.quiet hRefl (fun _ => rfl) (fun _ => rfl) (le_refl _) rfl)
  | leaving =>
      cases hResume
      have hPos : 0 < state.waiting := by
        unfold PoolState.waiting
        rw [List.countP_pos_iff]
        exact ⟨_, List.mem_of_getElem? hCall, rfl⟩
      have hTotal := hBalanced.waiting
      refine hBalanced.settle hCall (hBalanced.quiet
        ⟨rfl, rfl, rfl, fun _ => rfl, fun _ => rfl⟩ (fun _ => rfl) (fun _ => rfl)
        (Nat.zero_le _) ?_)
      show state.pool.tasksWaiting - 1 + 1 = state.pool.tasksWaiting
      omega
  | running worker =>
      cases hResume
      exact hBalanced.settle hCall
        (hBalanced.quiet hRefl (fun _ => rfl) (fun _ => rfl) (le_refl _) rfl)
  | releasing worker =>
      by_cases hRecycle : (state.pool.releaseWorker config call worker).2 = true
      · have hNormal : outcome ≠ .raised := fun hRaised =>
          Bool.noConfusion ((hReleasing hRaised worker rfl).symm.trans hRecycle)
        have hResult : result =
            ((state.pool.releaseWorker config call worker).1, some (.terminating worker)) := by
          simpa [WorkerPool.resume, hRecycle, hNormal] using hResume.symm
        subst hResult
        exact hBalanced.settle hCall (hBalanced.marked hCall hRecycle)
      · have hResult : result = ((state.pool.releaseWorker config call worker).1, none) := by
          simpa [WorkerPool.resume, hRecycle] using hResume.symm
        subst hResult
        exact hBalanced.settle hCall (hBalanced.unmarked hCall hRecycle)
  | terminating worker =>
      cases outcome with
      | normal =>
          cases hResume
          exact hBalanced.settle hCall (hBalanced.quiet
            (state.pool.sameAccounts_dead worker) (fun _ => rfl) (fun _ => rfl) (le_refl _) rfl)
      | timedOut =>
          cases hResume
          exact hBalanced.settle hCall
            (hBalanced.quiet hRefl (fun _ => rfl) (fun _ => rfl) (le_refl _) rfl)
      | raised => exact absurd rfl (hTerminating rfl worker)
  | killed worker =>
      cases hResume
      exact hBalanced.settle hCall (hBalanced.quiet
        (state.pool.sameAccounts_dead worker) (fun _ => rfl) (fun _ => rfl) (le_refl _) rfl)
  | spawning worker =>
      cases hResume
      exact hBalanced.settle hCall
        (hBalanced.quiet hRefl (fun _ => rfl) (fun _ => rfl) (le_refl _) rfl)
  | replacing worker spawned =>
      cases hResume
      exact hBalanced.settle hCall (hBalanced.replace hCall)

/-- The call is cancelled, but neither in a recycling nor on leaving the queue. -/
theorem cancel (hCall : state.calls[index]? = some (call, await))
    (hRecycles : await.recycles = none) (hLeaving : await ≠ .leaving) :
    (state.settle index call (state.pool.cancel call await)).Balanced config := by
  have hRefl := WorkerPool.SameAccounts.refl state.pool
  cases await with
  | acquiring isWaiting =>
      refine hBalanced.settle hCall (hBalanced.quiet hRefl (fun worker => ?_)
        (fun worker => ?_) ?_ ?_) <;> cases isWaiting <;> first | rfl | exact Nat.zero_le _
  | sleeping =>
      exact hBalanced.settle hCall
        (hBalanced.quiet hRefl (fun _ => rfl) (fun _ => rfl) (le_refl _) rfl)
  | leaving => exact absurd rfl hLeaving
  | running worker =>
      exact hBalanced.settle hCall
        (hBalanced.quiet hRefl (fun _ => rfl) (fun _ => rfl) (le_refl _) rfl)
  | releasing worker =>
      refine hBalanced.settle hCall (hBalanced.release false hCall rfl rfl rfl rfl
        ?_ ?_ (fun other hOther => ?_) Bool.noConfusion ⟨rfl, rfl, rfl, rfl⟩)
      · simp [WorkerPool.forceRelease, WorkerPool.info_modify,
          WorkerPool.record]
      · simp [WorkerPool.forceRelease, WorkerPool.info_modify, WorkerPool.record]
      · simp [WorkerPool.forceRelease, WorkerPool.info_modify, WorkerPool.record, hOther]
  | terminating worker => cases hRecycles
  | killed worker => cases hRecycles
  | spawning worker => cases hRecycles
  | replacing worker spawned => cases hRecycles

theorem step {event : PoolEvent} {next : PoolState} (hStep : SafePoolStep config state event next) :
    next.Balanced config := by
  obtain ⟨hSafe, hTaken⟩ := hStep
  cases event with
  | execute =>
      cases hTaken
      exact hBalanced.execute
  | resume index outcome =>
      obtain ⟨⟨call, await⟩, hCall, hTaken⟩ := Option.bind_eq_some_iff.mp hTaken
      obtain ⟨result, hResume, rfl⟩ := Option.map_eq_some_iff.mp hTaken
      refine hBalanced.resume hCall (fun hRaised worker hAwait => ?_)
        (fun hRaised worker hAwait => ?_) hResume
      · subst hRaised hAwait
        simp [interrupts, hCall] at hSafe
      · subst hRaised hAwait
        simpa [interrupts, hCall] using hSafe
  | cancel index =>
      obtain ⟨⟨call, await⟩, hCall, rfl⟩ := Option.map_eq_some_iff.mp hTaken
      simp only [interrupts, hCall, Option.any_some, Bool.or_eq_false_iff,
        Option.isSome_eq_false_iff, Option.isNone_iff_eq_none, decide_eq_false_iff_not] at hSafe
      exact hBalanced.cancel hCall hSafe.1 hSafe.2
  | die worker =>
      cases hTaken
      exact hBalanced.die worker

end PoolState.Balanced

/-! ## Runs -/

/-- The books are right along every run that interrupts no call that recycles a
worker or leaves the queue. -/
theorem pool_bookkeeping_of_safe_run (config : PoolConfig) (workerIds : List Nat)
    (events : List PoolEvent) (state : PoolState)
    (hRun : Run (SafePoolStep config) (PoolState.started workerIds) events state) :
    PoolBookkeeping config state :=
  (hRun.invariant (fun _ => PoolState.Balanced config)
    (PoolState.Balanced.started config workerIds)
    fun _ hBalanced hStep => hBalanced.step hStep).bookkeeping

def oneTaskPool : PoolConfig where
  maxTasksPerWorker := 1
  maxConcurrentPerWorker := 1

/-- A call obtains the worker, is cancelled while its task runs, and replaces the
worker by a new one. -/
def recycledCall : List PoolEvent :=
  [.execute, .resume 0 .normal, .cancel 0, .resume 0 .normal, .resume 0 .timedOut,
    .resume 0 .normal, .resume 0 .normal, .resume 0 .normal]

theorem recycledCall_bookkeeping : ∃ state,
    PoolBookkeeping oneTaskPool state ∧ state.calls = [] ∧ state.pool.workers = [1] := by
  let take (state : PoolState) (event : PoolEvent) : Option PoolState :=
    if state.interrupts oneTaskPool event then none else state.step oneTaskPool event
  have hTake : ∀ event ∈ recycledCall, ∀ state next, take state event = some next →
      SafePoolStep oneTaskPool state event next := by
    intro event _ state next hTaken
    obtain ⟨hSafe, hStep⟩ := Option.ite_none_left_eq_some.mp hTaken
    exact ⟨Bool.not_eq_true _ ▸ hSafe, hStep⟩
  have hEnd : (recycledCall.foldlM take (PoolState.started [0])).map
      (fun state => (state.calls, state.pool.workers)) = some ([], [1]) := by
    decide
  obtain ⟨state, hFold, hEnds⟩ := Option.map_eq_some_iff.mp hEnd
  obtain ⟨hCalls, hWorkers⟩ := Prod.mk.inj hEnds
  exact ⟨state, pool_bookkeeping_of_safe_run oneTaskPool [0] _ state (Run.of_foldlM hTake hFold),
    hCalls, hWorkers⟩

/-- A call is cancelled while it waits for the end of the process that it
terminates: the worker is released twice, and stays marked in the pool. -/
theorem interrupted_recycling_breaks_books :
    ¬ ∀ config workerIds events state,
      Run (fun state event next => PoolState.step config state event = some next)
        (PoolState.started workerIds) events state → PoolBookkeeping config state := by
  intro hAll
  let events : List PoolEvent :=
    [.execute, .resume 0 .normal, .resume 0 .normal, .resume 0 .normal, .cancel 0]
  have hEnd : (events.foldlM (PoolState.step oneTaskPool) (PoolState.started [0])).map
      (fun state => (state.calls, state.pool.workers, (state.pool.info 0).recycling,
        state.pool.log.countP (PoolEntry.isReleased 0 0))) = some ([], [0], true, 2) := by
    decide
  obtain ⟨state, hFold, hEnds⟩ := Option.map_eq_some_iff.mp hEnd
  simp only [Prod.mk.injEq] at hEnds
  obtain ⟨hCalls, hWorkers, hMarked, -⟩ := hEnds
  have hBooks := hAll oneTaskPool [0] _ state
    (Run.of_foldlM (fun _ _ _ _ hTaken => hTaken) hFold)
  have hClean := hBooks.idle hCalls 0 (by simp [hWorkers])
  rw [hMarked] at hClean
  cases hClean

end Executor
end Tracecat
