import Tracecat.Lib.Runs
import Tracecat.Lib.SortedSet

/-!
# The permit semaphore

`RedisSemaphore` (`tiers/semaphore.py`) on the sorted set of one organization
and scope: the two Lua scripts, `_release` and `get_count`.  Redis runs each of
the first three atomically, so a run is a sequence of calls, each with the
timestamp that the client took.  The call of `get_count` is its first command,
which prunes; `zcard_eq_getCount` shows that calls before the second, `ZCARD`,
make no difference.
-/

namespace Tracecat

/-- A permit holder: a workflow or action execution. -/
abbrev PermitId : Type := String

/-- The set at a semaphore key, scored by Unix timestamps. -/
abbrev PermitSet : Type := SortedSet PermitId Int

/-- `AcquireResult`. -/
structure AcquireResult where
  acquired : Bool
  currentCount : Nat
  deriving DecidableEq, Repr

namespace PermitSet

variable (set : PermitSet)

/-- `_ACQUIRE_SCRIPT`. -/
def acquireScript (wfId : PermitId) (limit : Nat) (now ttl : Int) :
    PermitSet × AcquireResult :=
  let set := set.zremUpTo (now - ttl)
  if (set.zscore wfId).isSome then
    let set := set.zadd now wfId
    (set, ⟨true, set.zcard⟩)
  else
    let count := set.zcard
    if limit ≤ count then (set, ⟨false, count⟩)
    else (set.zadd now wfId, ⟨true, count + 1⟩)

/-- `_HEARTBEAT_SCRIPT`. -/
def heartbeatScript (permitId : PermitId) (now : Int) : PermitSet × Bool :=
  if (set.zscore permitId).isNone then (set, false) else (set.zadd now permitId, true)

/-- `_release`. -/
def release (permitId : PermitId) : PermitSet :=
  set.zrem permitId

/-- `get_count`. -/
def getCount (now ttl : Int) : PermitSet × Nat :=
  let set := set.zremUpTo (now - ttl)
  (set, set.zcard)

end PermitSet

/-! ## Runs -/

/-- A call of a client. -/
inductive PermitCall
  | acquire (permitId : PermitId)
  | release (permitId : PermitId)
  | heartbeat (permitId : PermitId)
  | getCount
  deriving DecidableEq, Repr

/-- A call, the time the client took, and whether the call granted or
refreshed the permit. -/
structure PermitEvent where
  call : PermitCall
  now : Int
  granted : Bool
  deriving DecidableEq, Repr

/-- The set and the latest timestamp so far. -/
structure PermitState where
  set : PermitSet
  clock : Int

/-- The effect of a call on the set, and whether it grants or refreshes. -/
def PermitCall.run (limit : Nat) (ttl now : Int) (set : PermitSet) :
    PermitCall → PermitSet × Bool
  | acquire permitId =>
      let (set, result) := set.acquireScript permitId limit now ttl
      (set, result.acquired)
  | release permitId => (set.release permitId, false)
  | heartbeat permitId => set.heartbeatScript permitId now
  | getCount => ((set.getCount now ttl).1, false)

/-- One call, with a timestamp that is not before the last one. -/
structure PermitStep (limit : Nat) (ttl : Int) (state : PermitState) (event : PermitEvent)
    (next : PermitState) : Prop where
  time : state.clock ≤ event.now
  run : event.call.run limit ttl event.now state.set = (next.set, event.granted)
  clock : next.clock = event.now

abbrev PermitRun (limit : Nat) (ttl start : Int) : List PermitEvent → PermitState → Prop :=
  Run (PermitStep limit ttl) ⟨⟨∅, fun _ => 0⟩, start⟩

/-- The time of the last call that gave the permit to a holder or refreshed it,
`none` when it has been released since.  The events are newest first. -/
def leaseOf (permitId : PermitId) : List PermitEvent → Option Int
  | [] => none
  | event :: rest =>
      match event.call with
      | .acquire other | .heartbeat other =>
          if other = permitId ∧ event.granted then some event.now else leaseOf permitId rest
      | .release other => if other = permitId then none else leaseOf permitId rest
      | .getCount => leaseOf permitId rest

/-- The holder has a lease that has not expired. -/
def Holds (ttl : Int) (events : List PermitEvent) (now : Int) (permitId : PermitId) : Prop :=
  ∃ time, leaseOf permitId events = some time ∧ now < time + ttl

end Tracecat
