import Tracecat.Dsl.SubflowLoop
import Tracecat.Lib.Gather
import Tracecat.Lib.Runs

/-!
# The child workflow loop

`_execute_child_workflow_loop_prepared`, `_execute_child_workflow_batch_prepared`
and `_gather_dispatched_child_results` (`dsl/workflow.py`).  The loop goes over
logical batches; a batch is dispatched in windows, and then its children are
awaited.  `asyncio.gather` starts its awaitables in their order; they end in any
order, and each fills its own slot.
-/

namespace Tracecat

inductive LoopStrategy
  | sequential
  | batch
  | parallel
  deriving DecidableEq, Repr

inductive FailStrategy
  | isolated
  | all
  deriving DecidableEq, Repr

inductive WaitStrategy
  | wait
  | detach
  deriving DecidableEq, Repr

structure ChildException where
  type : String
  message : String
  deriving DecidableEq, Repr

/-- `DSLRunArgs`: what differs between the children of a loop. -/
structure ChildRunArgs (Digest : Type) where
  triggerInputs : Option (StoredHandle Tree Digest)
  runtimeConfig : DSLConfig

/-- `ChildWorkflowHandle`, with the child workflow that it stands for. -/
structure ChildHandle (Digest : Type) where
  id : String
  loopIndex : Nat
  args : ChildRunArgs Digest

variable {Digest : Type}

/-- What the server does: whether the start of a child workflow succeeds, and
how the child ends. -/
structure ChildOracle (Digest : Type) where
  start : Nat → ChildRunArgs Digest → Except ChildException String
  result : Nat → ChildRunArgs Digest → Except ChildException (StoredHandle Tree Digest)

/-- The task arguments of the loop and the configured window. -/
structure ChildLoopPlan where
  loopStrategy : LoopStrategy := .batch
  batchSize : Int := 32
  failStrategy : FailStrategy := .isolated
  waitStrategy : WaitStrategy := .wait
  dispatchWindow : Nat

namespace ChildLoopPlan

variable (plan : ChildLoopPlan)

def requestedBatchSize (totalCount : Nat) : Int :=
  match plan.loopStrategy with
  | .sequential => 1
  | .batch => plan.batchSize
  | .parallel => totalCount

/-- `_resolve_child_loop_batch_plan`. -/
def logicalBatchSize (totalCount : Nat) : Nat :=
  (max 1 (min (plan.requestedBatchSize totalCount) totalCount)).toNat

end ChildLoopPlan

/-- `_build_prepared_child_run_args`. -/
def buildRunArgs (prepared : PreparedSubflowResult Digest) (loopIndex : Nat) :
    Except PreparedError (ChildRunArgs Digest) := do
  let triggerInputs ← prepared.getTriggerInputAt loopIndex
  let runtimeConfig ← prepared.getConfig loopIndex
  .ok ⟨triggerInputs, runtimeConfig⟩

/-- `_dispatch_child_workflow`. -/
def ChildOracle.dispatch (oracle : ChildOracle Digest)
    (child : Nat × ChildRunArgs Digest) : Except ChildException (ChildHandle Digest) :=
  (oracle.start child.1 child.2).map fun id => ⟨id, child.1, child.2⟩

/-- `_resolve` of `_gather_dispatched_child_results`, or the identity of a
detached child. -/
def ChildOracle.resolve (oracle : ChildOracle Digest) (waitStrategy : WaitStrategy) :
    Except ChildException (ChildHandle Digest) → Except ChildException (StoredHandle Tree Digest)
  | .error error => .error error
  | .ok handle =>
      match waitStrategy with
      | .detach => .ok (.item (.inline (Tree.scalar (.str handle.id))))
      | .wait => oracle.result handle.loopIndex handle.args

/-- `dsl_execution_error_from_exception`. -/
def dslExecutionError (error : ChildException) : Tree :=
  Tree.dict [("is_error", Tree.scalar (.bool true)), ("type", Tree.scalar (.str error.type)),
    ("message", Tree.scalar (.str error.message))]

def resultEntry : Except ChildException (StoredHandle Tree Digest) → StoredHandle Tree Digest
  | .ok stored => stored
  | .error error => .item (.inline (dslExecutionError error))

inductive ChildLoopError
  | prepared (error : PreparedError)
  | runtimeError (message : String)
  deriving DecidableEq, Repr

inductive ChildLoopPhase (Digest : Type)
  /-- at the condition of the `while` -/
  | nextBatch
  /-- in the `for`, with `dispatch_batch` and `launched_handles` -/
  | preparing (offset : Nat) (dispatchBatch : List (Nat × ChildRunArgs Digest))
      (launched : List (Except ChildException (ChildHandle Digest)))
  /-- in `_flush_child_workflow_dispatch_batch` -/
  | flushing (offset : Nat) (dispatchBatch : List (Nat × ChildRunArgs Digest))
      (slots : Slots (Except ChildException (ChildHandle Digest)))
      (launched : List (Except ChildException (ChildHandle Digest)))
  /-- in `_gather_dispatched_child_results` -/
  | gathering (launched : List (Except ChildException (ChildHandle Digest)))
      (slots : Slots (Except ChildException (StoredHandle Tree Digest)))
  /-- after the `while` -/
  | finished
  | raised (error : ChildLoopError)

structure ChildLoopState (Digest : Type) where
  batchStart : Nat := 0
  allResults : List (StoredHandle Tree Digest) := []
  phase : ChildLoopPhase Digest := .nextBatch

inductive ChildLoopEvent (Digest : Type)
  | dispatched (children : List (Nat × ChildRunArgs Digest))
  | settled (slot : Nat)
  | internal

section

variable (plan : ChildLoopPlan) (oracle : ChildOracle Digest)
  (prepared : PreparedSubflowResult Digest) (totalCount : Nat)

/-- `min(logical_batch_size, total_count - batch_start)`. -/
def currentBatchSize (batchStart : Nat) : Nat :=
  min (plan.logicalBatchSize totalCount) (totalCount - batchStart)

/-- `launched_handles` are complete. -/
def startGathering (launched : List (Except ChildException (ChildHandle Digest))) :
    ChildLoopPhase Digest :=
  .gathering launched (match plan.waitStrategy with
    | .detach => launched.map fun handle => some (oracle.resolve .detach handle)
    | .wait => launched.map fun _ => none)

/-- The end of `_execute_child_workflow_batch_prepared`, and the `while` body
after it. -/
def finishBatch (state : ChildLoopState Digest)
    (gathered : List (Except ChildException (StoredHandle Tree Digest))) :
    ChildLoopState Digest :=
  if plan.failStrategy = .all ∧ gathered.any (fun result => !result.isOk) then
    { state with phase := .raised (.runtimeError "One or more child workflows failed") }
  else
    { batchStart := state.batchStart + currentBatchSize plan totalCount state.batchStart
      allResults := state.allResults ++ gathered.map resultEntry
      phase := .nextBatch }

/-- One step of the workflow.  `slot` is the awaitable that ends next, where the
workflow waits. -/
def childLoopStep (slot : Nat) (state : ChildLoopState Digest) :
    Option (ChildLoopEvent Digest × ChildLoopState Digest) :=
  match state.phase with
  | .nextBatch =>
      if state.batchStart < totalCount then
        some (.internal, { state with phase := .preparing 0 [] [] })
      else
        some (.internal, { state with phase := .finished })
  | .preparing offset dispatchBatch launched =>
      if offset < currentBatchSize plan totalCount state.batchStart then
        match buildRunArgs prepared (state.batchStart + offset) with
        | .error error => some (.internal, { state with phase := .raised (.prepared error) })
        | .ok args =>
            let dispatchBatch := dispatchBatch ++ [(state.batchStart + offset, args)]
            if plan.dispatchWindow ≤ dispatchBatch.length then
              some (.dispatched dispatchBatch, { state with
                phase := .flushing (offset + 1) dispatchBatch (dispatchBatch.map fun _ => none)
                  launched })
            else
              some (.internal, { state with
                phase := .preparing (offset + 1) dispatchBatch launched })
      else if dispatchBatch ≠ [] then
        some (.dispatched dispatchBatch, { state with
          phase := .flushing offset dispatchBatch (dispatchBatch.map fun _ => none) launched })
      else
        some (.internal, { state with phase := startGathering plan oracle launched })
  | .flushing offset dispatchBatch slots launched =>
      if slots.all Option.isSome then
        some (.internal, { state with
          phase := .preparing offset [] (launched ++ slots.reduceOption) })
      else do
        let slots ← settleSlot slots slot (dispatchBatch[slot]?.map oracle.dispatch)
        some (.settled slot, { state with
          phase := .flushing offset dispatchBatch slots launched })
  | .gathering launched slots =>
      if slots.all Option.isSome then
        some (.internal, finishBatch plan totalCount state slots.reduceOption)
      else do
        let slots ← settleSlot slots slot
          (launched[slot]?.map (oracle.resolve plan.waitStrategy))
        some (.settled slot, { state with phase := .gathering launched slots })
  | .finished => none
  | .raised _ => none

/-- The awaitables end in any order. -/
def ChildLoopStep (state : ChildLoopState Digest) (event : ChildLoopEvent Digest)
    (next : ChildLoopState Digest) : Prop :=
  ∃ slot, childLoopStep plan oracle prepared totalCount slot state = some (event, next)

end

def ChildLoopEvent.children : ChildLoopEvent Digest → List (Nat × ChildRunArgs Digest)
  | dispatched children => children
  | _ => []

/-- The children that a run dispatched, in the order of their dispatch; the
events come newest first. -/
def dispatchedChildren (events : List (ChildLoopEvent Digest)) :
    List (Nat × ChildRunArgs Digest) :=
  events.reverse.flatMap ChildLoopEvent.children

def ChildLoopState.Done (state : ChildLoopState Digest) : Prop :=
  match state.phase with
  | .finished => True
  | .raised _ => True
  | _ => False

/-- The list of results, or what the loop raised. -/
def ChildLoopState.outcome (state : ChildLoopState Digest) :
    Option (Except ChildLoopError (List (StoredHandle Tree Digest))) :=
  match state.phase with
  | .finished => some (.ok state.allResults)
  | .raised error => some (.error error)
  | _ => none

/-- The data of a stored object as one value. -/
def StoredData.tree : StoredData Tree → Tree
  | .one data => data
  | .many items => Tree.list items

/-- `synchronize_collection_object_activity`: the values of the results, stored
as one list. -/
def synchronizeCollection {Bytes : Type} [DecidableEq Digest] (codec : BlobCodec Tree Bytes Digest)
    (config : StorageConfig) (read : ObjectRef Digest → Option Bytes) (key : String)
    (collection : List (StoredHandle Tree Digest)) :
    Except (StorageError Digest) (StoredHandle Tree Digest × List (Upload Bytes)) := do
  let values ← collection.mapM (codec.retrieve read)
  .ok (codec.storeList config key (values.map StoredData.tree))

end Tracecat
