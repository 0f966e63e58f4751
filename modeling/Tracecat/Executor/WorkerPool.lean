import Mathlib.Data.List.MinMax
import Mathlib.Logic.Function.Basic

/-!
# The worker pool

`WorkerPool` (`executor/backends/pool/pool.py`).  Calls of `execute` run on one
event loop and interleave at the awaits.  A call is the point at which it is
suspended; a step takes it from there to the next await or to its end, and every
`async with self._timed_lock()` begins with an await.
-/

namespace Tracecat
namespace Executor

/-- `WorkerInfo`.  `dead` says that `process.returncode` is set. -/
structure WorkerInfo where
  workerId : Nat
  activeTasks : Nat := 0
  tasksCompleted : Nat := 0
  recycling : Bool := false
  dead : Bool := false
  deriving DecidableEq, Repr

/-- A `WorkerInfo` object, by its identity. -/
abbrev WorkerRef : Type := Nat

abbrev CallId : Type := Nat

structure PoolConfig where
  maxTasksPerWorker : Nat := 1000
  maxConcurrentPerWorker : Nat := 16

/-- What a call has done to a worker; an obtained worker as it was selected. -/
inductive PoolEntry
  | obtained (call : CallId) (worker : WorkerRef) (info : WorkerInfo)
  | released (call : CallId) (worker : WorkerRef)
  deriving DecidableEq, Repr

/-- The attributes of the pool, the objects that `_workers` refers to, and the
log of what the calls have done, newest first. -/
structure WorkerPool where
  workers : List WorkerRef
  info : WorkerRef → WorkerInfo
  nextRef : WorkerRef
  nextWorkerIndex : Nat := 0
  tasksWaiting : Nat := 0
  log : List PoolEntry := []

inductive Await
  /-- the lock in the loop of `_get_available_worker` -/
  | acquiring (isWaiting : Bool)
  /-- `asyncio.sleep` in that loop -/
  | sleeping
  /-- the lock in its `finally` -/
  | leaving
  /-- `_execute_on_worker` -/
  | running (worker : WorkerRef)
  /-- the lock in `_release_worker` -/
  | releasing (worker : WorkerRef)
  /-- `process.wait()` under the timeout in `_recycle_worker` -/
  | terminating (worker : WorkerRef)
  /-- `process.wait()` after `process.kill()` -/
  | killed (worker : WorkerRef)
  /-- `_spawn_worker` -/
  | spawning (worker : WorkerRef)
  /-- the lock at the end of `_recycle_worker` -/
  | replacing (worker : WorkerRef) (spawned : Bool)
  deriving DecidableEq, Repr

/-- How the awaited operation ends, or the call after it: as expected, by a
timeout, or with an exception of the worker's process. -/
inductive Outcome
  | normal
  | timedOut
  | raised
  deriving DecidableEq, Repr

namespace WorkerPool

variable (config : PoolConfig) (pool : WorkerPool)

/-- `worker.attribute = ...`. -/
def modify (worker : WorkerRef) (change : WorkerInfo → WorkerInfo) : WorkerPool :=
  { pool with info := Function.update pool.info worker (change (pool.info worker)) }

def record (entry : PoolEntry) : WorkerPool :=
  { pool with log := entry :: pool.log }

/-! ## Selection -/

/-- `available_workers`. -/
def available : List WorkerRef :=
  pool.workers.filter fun worker =>
    !(pool.info worker).dead && !(pool.info worker).recycling &&
      decide ((pool.info worker).activeTasks < config.maxConcurrentPerWorker)

/-- `candidates`: the available workers with the minimum load. -/
def candidates : List WorkerRef :=
  (pool.available config).filter fun worker =>
    (pool.available config).all fun other =>
      decide ((pool.info worker).activeTasks ≤ (pool.info other).activeTasks)

/-- `best_worker`: round-robin among the candidates. -/
def bestWorker? : Option WorkerRef :=
  (pool.candidates config)[pool.nextWorkerIndex % (pool.candidates config).length]?

/-- One turn of the loop of `_get_available_worker` under the lock.  With
`.timedOut` the time is up when no worker is available. -/
def getAvailableWorker (call : CallId) (isWaiting : Bool) (outcome : Outcome) :
    WorkerPool × Await :=
  match pool.bestWorker? config with
  | some best =>
      let selected := (pool.record (.obtained call best (pool.info best))).modify best
        fun info => { info with activeTasks := info.activeTasks + 1 }
      ({ selected with
          nextWorkerIndex := (pool.nextWorkerIndex + 1) % pool.workers.length
          tasksWaiting := if isWaiting then pool.tasksWaiting - 1 else pool.tasksWaiting },
        .running best)
  | none =>
      let waiting : WorkerPool :=
        if isWaiting then pool else { pool with tasksWaiting := pool.tasksWaiting + 1 }
      (waiting, if outcome = .timedOut then .leaving else .sleeping)

/-! ## Release -/

/-- `_release_worker` under the lock, and `should_recycle`. -/
def releaseWorker (call : CallId) (worker : WorkerRef) : WorkerPool × Bool :=
  let released := (pool.record (.released call worker)).modify worker fun info =>
    { info with
      activeTasks := info.activeTasks - 1
      tasksCompleted := info.tasksCompleted + 1 }
  let info := released.info worker
  if config.maxTasksPerWorker ≤ info.tasksCompleted ∧ info.activeTasks = 0 ∧
      info.recycling = false then
    (released.modify worker fun info => { info with recycling := true }, true)
  else (released, false)

/-- "Force decrement without async lock". -/
def forceRelease (call : CallId) (worker : WorkerRef) : WorkerPool :=
  (pool.record (.released call worker)).modify worker fun info =>
    { info with
      activeTasks := info.activeTasks - 1
      tasksCompleted := info.tasksCompleted + 1 }

/-- The list of workers after a recycling: the old worker is replaced, or
dropped when there is no new one. -/
def replaceWorker (worker : WorkerRef) (spawned : Bool) : WorkerPool :=
  if worker ∉ pool.workers then pool
  else if spawned then
    { pool with
      workers := pool.workers.map fun other => if other = worker then pool.nextRef else other
      info := Function.update pool.info pool.nextRef { workerId := (pool.info worker).workerId }
      nextRef := pool.nextRef + 1 }
  else { pool with workers := pool.workers.erase worker }

/-! ## Steps of a call -/

/-- The call goes on from its await.  `none` for the await: the call has ended.
`terminate` and `kill` raise for a process that is gone. -/
def resume (call : CallId) (outcome : Outcome) : Await → Option (WorkerPool × Option Await)
  | .acquiring isWaiting =>
      let (pool, next) := pool.getAvailableWorker config call isWaiting outcome
      some (pool, some next)
  | .sleeping => some (pool, some (.acquiring true))
  | .leaving => some ({ pool with tasksWaiting := pool.tasksWaiting - 1 }, none)
  | .running worker => some (pool, some (.releasing worker))
  | .releasing worker =>
      let (released, shouldRecycle) := pool.releaseWorker config call worker
      if shouldRecycle then
        if outcome = .raised then
          if (pool.info worker).dead then some (released, none) else none
        else some (released, some (.terminating worker))
      else some (released, none)
  | .terminating worker =>
      match outcome with
      | .normal =>
          some (pool.modify worker fun info => { info with dead := true },
            some (.spawning worker))
      | .timedOut => some (pool, some (.killed worker))
      | .raised => if (pool.info worker).dead then some (pool, none) else none
  | .killed worker =>
      some (pool.modify worker fun info => { info with dead := true }, some (.spawning worker))
  | .spawning worker => some (pool, some (.replacing worker (outcome = .normal)))
  | .replacing worker spawned => some (pool.replaceWorker worker spawned, none)

/-- `CancelledError` is raised at the await of the call. -/
def cancel (call : CallId) : Await → WorkerPool × Option Await
  | .acquiring isWaiting => (pool, if isWaiting then some .leaving else none)
  | .sleeping => (pool, some .leaving)
  | .leaving => (pool, none)
  | .running worker => (pool, some (.releasing worker))
  | .releasing worker | .terminating worker | .killed worker | .spawning worker
  | .replacing worker _ => (pool.forceRelease call worker, none)

end WorkerPool

/-! ## Runs -/

/-- The pool and the calls that have not ended. -/
structure PoolState where
  pool : WorkerPool
  calls : List (CallId × Await)
  nextCall : CallId

inductive PoolEvent
  /-- a new call of `execute` -/
  | execute
  /-- the call at a position goes on -/
  | resume (index : Nat) (outcome : Outcome)
  /-- the call at a position is cancelled -/
  | cancel (index : Nat)
  /-- the process of a worker dies -/
  | die (worker : WorkerRef)
  deriving DecidableEq, Repr

namespace PoolState

variable (config : PoolConfig) (state : PoolState)

/-- The state after a call has reached its next await or its end. -/
def settle (index : Nat) (call : CallId) (result : WorkerPool × Option Await) : PoolState :=
  { state with
    pool := result.1
    calls :=
      match result.2 with
      | some next => state.calls.set index (call, next)
      | none => state.calls.eraseIdx index }

def step : PoolEvent → Option PoolState
  | .execute =>
      some { state with
        calls := state.calls ++ [(state.nextCall, .acquiring false)]
        nextCall := state.nextCall + 1 }
  | .resume index outcome =>
      state.calls[index]?.bind fun call =>
        (state.pool.resume config call.1 outcome call.2).map (state.settle index call.1)
  | .cancel index =>
      state.calls[index]?.map fun call =>
        state.settle index call.1 (state.pool.cancel call.1 call.2)
  | .die worker =>
      some { state with pool := state.pool.modify worker fun info => { info with dead := true } }

/-- A started pool with one object for each worker that was spawned. -/
def started (workerIds : List Nat) : PoolState where
  pool :=
    { workers := List.range workerIds.length
      info := fun ref => { workerId := workerIds.getD ref 0 }
      nextRef := workerIds.length }
  calls := []
  nextCall := 0

end PoolState

end Executor
end Tracecat
