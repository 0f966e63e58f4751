import Tracecat.Expressions.LoopInput
import Tracecat.Lib.Runs

/-!
# `for_each` dispatch

`dispatch_action` with `for_each` (`executor/service.py`): a fixed pool of
workers takes the rows of the zipped iterables from one iterator.  A worker
patches a copy of the base context and awaits `invoke_once`; between two awaits
it is not interrupted.
-/

namespace Tracecat
namespace Executor

/-- The loop fields of `ExecutorActionErrorInfo`, and the rest of it. -/
structure ActionErrorInfo (Detail : Type) where
  detail : Detail
  loopIteration : Option Nat := none
  loopVars : Option (HeapRef LoopArena) := none
  deriving DecidableEq

structure ExecutionError (Detail : Type) where
  info : Option (ActionErrorInfo Detail)
  deriving DecidableEq

/-- How the body of `invoke_once` ends for an iteration: with the masked result,
an `ExecutionError`, or another exception as `from_exc` describes it. -/
inductive Attempt (Result Detail : Type)
  | returned (result : Result)
  | executionError (error : ExecutionError Detail)
  | otherException (info : ActionErrorInfo Detail)
  deriving DecidableEq

variable {Atom Result Detail : Type}

/-- `invoke_once` with an iteration: errors get the loop context. -/
def invokeOnce (iteration : Nat) (loopVars : Option (HeapRef LoopArena)) :
    Attempt Result Detail → Except (ExecutionError Detail) Result
  | .returned result => .ok result
  | .executionError error =>
      .error ⟨error.info.map fun info =>
        { info with loopIteration := some iteration, loopVars := loopVars }⟩
  | .otherException info =>
      .error ⟨some { info with loopIteration := some iteration, loopVars := loopVars }⟩

/-- Where a worker is: before `next(loop_items)`, in `invoke_once`, or returned. -/
inductive LoopWorker
  | ready
  | running (index : Nat) (context : HeapRef LoopArena)
  | stopped
  deriving DecidableEq

/-- The variables that the workers share.  `crashed` is an exception that a
worker raised; the task group then cancels the others. -/
structure LoopState (Atom Result Detail : Type) where
  heap : ObjectHeap LoopArena Atom
  workers : List LoopWorker
  position : Nat := 0
  iterationCount : Nat := 0
  results : List (Nat × Result) := []
  loopErrors : List (Nat × ExecutionError Detail) := []
  crashed : Option PatchError := none

inductive LoopEvent
  | invoked (worker index : Nat) (context : HeapRef LoopArena)
  | finished (worker index : Nat)
  | exhausted (worker : Nat)
  | crashed (worker : Nat)
  deriving DecidableEq

section

variable (input : LoopInput Atom)

/-- The state in which the task group starts. -/
def loopStart (Result Detail : Type) (configured : Nat) : LoopState Atom Result Detail where
  heap := input.heap
  workers := List.replicate (max 1 configured) .ready

/-- What `worker` does from one await to the next. -/
def advance (attempt : Nat → Attempt Result Detail) (worker : Nat)
    (state : LoopState Atom Result Detail) :
    Option (LoopEvent × LoopState Atom Result Detail) :=
  match state.crashed, state.workers[worker]? with
  | none, some .ready =>
      match input.rows[state.position]? with
      | none =>
          some (.exhausted worker, { state with workers := state.workers.set worker .stopped })
      | some items =>
          let state' := { state with
            position := state.position + 1, iterationCount := state.iterationCount + 1 }
          match patchedContext state.heap (some state.position) input.base items with
          | .error error => some (.crashed worker, { state' with crashed := some error })
          | .ok (context, heap) =>
              some (.invoked worker state.position context, { state' with
                heap := heap
                workers := state.workers.set worker (.running state.position context) })
  | none, some (.running index context) =>
      let state' := { state with workers := state.workers.set worker .ready }
      match invokeOnce index (loopVarsOf state.heap context) (attempt index) with
      | .ok result =>
          some (.finished worker index,
            { state' with results := Assoc.set index result state.results })
      | .error error =>
          some (.finished worker index,
            { state' with loopErrors := Assoc.set index error state.loopErrors })
  | _, _ => none

def Step (attempt : Nat → Attempt Result Detail) (state : LoopState Atom Result Detail)
    (event : LoopEvent) (next : LoopState Atom Result Detail) : Prop :=
  ∃ worker, advance input attempt worker state = some (event, next)

end

/-- What `dispatch_action` raises, or a missing key of its dictionaries. -/
inductive DispatchError (Detail : Type)
  | loopExecutionError (errors : List (ExecutionError Detail))
  | tracecatException (error : PatchError)
  | keyError
  deriving DecidableEq

def LoopState.Done (state : LoopState Atom Result Detail) : Prop :=
  state.crashed.isSome ∨ ∀ worker ∈ state.workers, worker = .stopped

instance (state : LoopState Atom Result Detail) : Decidable state.Done :=
  inferInstanceAs (Decidable (_ ∨ _))

/-- `entries[key]`. -/
def getItem {Value : Type} (entries : List (Nat × Value)) (key : Nat) :
    Except (DispatchError Detail) Value :=
  match entries.lookup key with
  | some value => .ok value
  | none => .error .keyError

def LoopState.outcome (state : LoopState Atom Result Detail) :
    Except (DispatchError Detail) (List Result) :=
  match state.crashed with
  | some error => .error (.tracecatException error)
  | none =>
      if state.loopErrors = [] then
        (List.range state.iterationCount).mapM (getItem state.results)
      else do
        let errors ← ((state.loopErrors.map Prod.fst).mergeSort (· ≤ ·)).mapM
          (getItem state.loopErrors)
        .error (.loopExecutionError errors)

/-! ## What one step does -/

theorem advance_cases {input : LoopInput Atom}
    {attempt : Nat → Attempt Result Detail} {worker : Nat}
    {state next : LoopState Atom Result Detail} {event : LoopEvent}
    (hStep : advance input attempt worker state = some (event, next)) :
    state.crashed = none ∧
      ((state.workers[worker]? = some .ready ∧ input.rows[state.position]? = none ∧
          event = .exhausted worker ∧
          next = { state with workers := state.workers.set worker .stopped }) ∨
        (∃ items, state.workers[worker]? = some .ready ∧
          input.rows[state.position]? = some items ∧
          ((∃ error, patchedContext state.heap (some state.position) input.base items =
                .error error ∧
              event = .crashed worker ∧
              next = { state with
                position := state.position + 1, iterationCount := state.iterationCount + 1,
                crashed := some error }) ∨
            (∃ context heap, patchedContext state.heap (some state.position) input.base items =
                .ok (context, heap) ∧
              event = .invoked worker state.position context ∧
              next = { state with
                heap := heap, position := state.position + 1,
                iterationCount := state.iterationCount + 1,
                workers := state.workers.set worker (.running state.position context) }))) ∨
        (∃ index context, state.workers[worker]? = some (.running index context) ∧
          event = .finished worker index ∧
          ((∃ result, invokeOnce index (loopVarsOf state.heap context) (attempt index) =
                .ok result ∧
              next = { state with
                workers := state.workers.set worker .ready,
                results := Assoc.set index result state.results }) ∨
            (∃ error, invokeOnce index (loopVarsOf state.heap context) (attempt index) =
                .error error ∧
              next = { state with
                workers := state.workers.set worker .ready,
                loopErrors := Assoc.set index error state.loopErrors })))) := by
  unfold advance at hStep
  split at hStep
  · rename_i hLive hWorker
    refine ⟨hLive, ?_⟩
    split at hStep
    · rename_i hRow
      cases hStep
      exact Or.inl ⟨hWorker, hRow, rfl, rfl⟩
    · rename_i items hRow
      refine Or.inr (Or.inl ⟨items, hWorker, hRow, ?_⟩)
      simp only at hStep
      split at hStep
      · rename_i error hPatched
        cases hStep
        exact Or.inl ⟨error, hPatched, rfl, rfl⟩
      · rename_i context heap hPatched
        cases hStep
        exact Or.inr ⟨context, heap, hPatched, rfl, rfl⟩
  · rename_i index context hLive hWorker
    refine ⟨hLive, Or.inr (Or.inr ⟨index, context, hWorker, ?_⟩)⟩
    simp only at hStep
    split at hStep
    · rename_i result hInvoke
      cases hStep
      exact ⟨rfl, Or.inl ⟨result, hInvoke, rfl⟩⟩
    · rename_i error hInvoke
      cases hStep
      exact ⟨rfl, Or.inr ⟨error, hInvoke, rfl⟩⟩
  · cases hStep

end Executor
end Tracecat
