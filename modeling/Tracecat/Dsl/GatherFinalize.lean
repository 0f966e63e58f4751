import Tracecat.Dsl.Values
import Tracecat.Lib.Checks

/-!
# Finalization of a gather

The entries that `_handle_gather` and `_handle_gather_skip_stream` write
(`dsl/scheduler.py`), and `finalize_gather_activity` (`dsl/action.py`), which
reads them back from storage and tells items and errors apart.
-/

namespace Tracecat
namespace Gather

/-! ## Error records -/

/-- `ActionErrorInfoAdapter`, with `isinstance(_, Mapping)` and the test for
`None`.  A record comes back from what it is dumped to, and only a mapping is
validated as one. -/
structure ErrorInfoAdapter (Value Info : Type) where
  isNone : Value → Bool
  isMapping : Value → Bool
  dumpPython : Info → Value
  validatePython : Value → Option Info
  validate_dump : ∀ info, validatePython (dumpPython info) = some info
  mapping_of_validate : ∀ value info, validatePython value = some info → isMapping value = true
  none_not_mapping : ∀ value, isNone value = true → isMapping value = false

/-- What became of an execution stream. -/
inductive StreamOutcome (Value Info : Type)
  | item (value : Value)
  | failed (info : Info)
  /-- skipped without an error: its slot stays `GATHER_UNSET` -/
  | skipped

variable {Value Info Stored Error : Type}

section Finalize

variable (adapter : ErrorInfoAdapter Value Info)

/-- `_as_error_info`. -/
def asErrorInfo (detail : Value) : Option Info :=
  adapter.validatePython detail

/-- `_is_error_info`, for a value that storage returns. -/
def isErrorInfo (detail : Value) : Bool :=
  adapter.isMapping detail && (adapter.validatePython detail).isSome

/-- `_partition_errors`. -/
def partitionErrors (items : List Value) : List Value × List Info :=
  items.foldl (fun (results, errors) item =>
    match asErrorInfo adapter item with
    | some info => (results, errors ++ [info])
    | none => (results ++ [item], errors)) ([], [])

/-- `finalize_gather_activity`, once the values are retrieved. -/
def finalizeValues (dropNulls : Bool) (strategy : StreamErrorHandlingStrategy)
    (values : List Value) : List Value × List Info :=
  let values := if dropNulls then values.filter fun value => !adapter.isNone value else values
  match strategy with
  | .partition => partitionErrors adapter values
  | .drop => (values.filter fun value => !isErrorInfo adapter value, [])
  | .include => (values, [])
  | .raise => partitionErrors adapter values

/-- `finalize_gather_activity`, up to the storing of the results. -/
def finalizeGatherActivity (retrieve : Stored → Except Error Value) (dropNulls : Bool)
    (strategy : StreamErrorHandlingStrategy) (collection : List Stored) :
    Except Error (List Value × List Info) := do
  let values ← collection.mapM retrieve
  return finalizeValues adapter dropNulls strategy values

/-- The data of the entry that a stream writes. -/
def entryOf : StreamOutcome Value Info → Option Value
  | .item value => some value
  | .failed info => some (adapter.dumpPython info)
  | .skipped => none

end Finalize

/-! ## Entries -/

/-- An element of the list behind a gather in progress. -/
inductive Slot (Stored : Type)
  | unset
  | stored (object : Stored)

/-- The list once the streams have finished, in the order in which they did.
`entry` is what a stream writes, if it does. -/
def gatherSlots (size : Nat) (entry : Nat → Option Stored) (order : List Nat) :
    List (Slot Stored) :=
  order.foldl (fun slots index =>
    match entry index with
    | some object => slots.set index (.stored object)
    | none => slots) (List.replicate size .unset)

/-- `stored_items` of `_handle_gather_result`. -/
def storedItems (slots : List (Slot Stored)) : List Stored :=
  slots.filterMap fun
    | .unset => none
    | .stored object => some object

def slotOf (entry : Option Stored) : Slot Stored :=
  match entry with
  | some object => .stored object
  | none => .unset

theorem length_gatherSlots {size : Nat} {entry : Nat → Option Stored} {order : List Nat} :
    (gatherSlots size entry order).length = size := by
  unfold gatherSlots
  have hFold (slots : List (Slot Stored)) : (order.foldl (fun slots index =>
      match entry index with
      | some object => slots.set index (.stored object)
      | none => slots) slots).length = slots.length := by
    induction order generalizing slots with
    | nil => rfl
    | cons index order ih =>
        rw [List.foldl_cons, ih]
        split
        · rw [List.length_set]
        · rfl
  rw [hFold, List.length_replicate]

/-- A stream that has finished has left its entry, whatever finished after it. -/
theorem getElem?_gatherSlots {size : Nat} {entry : Nat → Option Stored} {order : List Nat}
    {index : Nat} (hIndex : index < size) :
    (gatherSlots size entry order)[index]? =
      some (if index ∈ order then slotOf (entry index) else .unset) := by
  unfold gatherSlots
  induction order using List.reverseRecOn with
  | nil => simp [hIndex]
  | append_singleton order last ih =>
      rw [List.foldl_append, List.foldl_cons, List.foldl_nil]
      have hLength : index < (gatherSlots size entry order).length := by
        rw [length_gatherSlots]
        exact hIndex
      unfold gatherSlots at hLength
      by_cases hLast : last = index
      · subst hLast
        cases hEntry : entry last with
        | none =>
            rw [ih]
            simp [slotOf, hEntry]
        | some object =>
            rw [List.getElem?_set_self hLength]
            simp [slotOf]
      · have hMem : index ∈ order ++ [last] ↔ index ∈ order := by
          simp [Ne.symm hLast]
        simp only [hMem]
        cases entry last with
        | none => exact ih
        | some object =>
            rw [List.getElem?_set_ne hLast]
            exact ih

/-- When all streams have finished, in any order, the stored items are the
entries in stream order. -/
theorem storedItems_gatherSlots {size : Nat} {entry : Nat → Option Stored} {order : List Nat}
    (hOrder : order.Perm (List.range size)) :
    storedItems (gatherSlots size entry order) = (List.range size).filterMap entry := by
  have hSlots : gatherSlots size entry order =
      (List.range size).map fun index => slotOf (entry index) := by
    apply List.ext_getElem?
    intro index
    by_cases hIndex : index < size
    · have hMem : index ∈ order := hOrder.mem_iff.mpr (List.mem_range.mpr hIndex)
      rw [getElem?_gatherSlots hIndex, if_pos hMem]
      simp [hIndex]
    · have hShort : (gatherSlots size entry order).length ≤ index := by
        rw [length_gatherSlots]
        omega
      rw [List.getElem?_eq_none hShort]
      simp [hIndex]
  rw [hSlots, storedItems, List.filterMap_map]
  refine List.filterMap_congr fun index _ => ?_
  rw [Function.comp_apply]
  cases entry index <;> rfl

end Gather
end Tracecat
