import Tracecat.Dsl.ErrorRecords

/-!
# Items and errors of a gather

The finalization tells items and errors apart by their shape.  It gives each
stream its due exactly when no successful item is validated as an error record,
or the strategy does not ask.
-/

namespace Tracecat
namespace Gather

open Checks

section Outcomes

variable {Value Info Stored Error : Type} (adapter : ErrorInfoAdapter Value Info)

/-- The outcome stays in the collection: unset slots do not, nor items that are
`None` under `drop_nulls`. -/
def stays (dropNulls : Bool) : StreamOutcome Value Info → Bool
  | .item value => !(dropNulls && adapter.isNone value)
  | .failed _ => true
  | .skipped => false

def itemOf : StreamOutcome Value Info → Option Value
  | .item value => some value
  | .failed _ => none
  | .skipped => none

def errorOf : StreamOutcome Value Info → Option Info
  | .item _ => none
  | .failed info => some info
  | .skipped => none

/-- The results and the errors by what became of the streams. -/
def byOutcome (dropNulls : Bool) (strategy : StreamErrorHandlingStrategy)
    (outcomes : List (StreamOutcome Value Info)) : List Value × List Info :=
  let kept := outcomes.filter (stays adapter dropNulls)
  match strategy with
  | .partition => (kept.filterMap itemOf, kept.filterMap errorOf)
  | .drop => (kept.filterMap itemOf, [])
  | .include => (kept.filterMap (entryOf adapter), [])
  | .raise => (kept.filterMap itemOf, kept.filterMap errorOf)

variable {adapter}

/-! ## The loop of `_partition_errors` -/

theorem partitionErrors_eq (items : List Value) :
    partitionErrors adapter items =
      (items.filter fun item => (asErrorInfo adapter item).isNone,
        items.filterMap (asErrorInfo adapter)) := by
  induction items using List.reverseRecOn with
  | nil => rfl
  | append_singleton items item ih =>
      unfold partitionErrors at ih ⊢
      rw [List.foldl_concat, ih, List.filter_append, List.filterMap_append]
      cases hInfo : asErrorInfo adapter item with
      | none => simp [hInfo]
      | some info => simp [hInfo]

theorem isErrorInfo_eq (item : Value) :
    isErrorInfo adapter item = (asErrorInfo adapter item).isSome := by
  unfold isErrorInfo asErrorInfo
  cases hInfo : adapter.validatePython item with
  | none => rw [Option.isSome_none, Bool.and_false]
  | some info =>
      rw [adapter.mapping_of_validate item info hInfo]
      rfl

/-! ## The values that are classified -/

theorem isNone_dumpPython (info : Info) : adapter.isNone (adapter.dumpPython info) = false := by
  rw [← Bool.not_eq_true]
  intro hNone
  have hMapping := adapter.mapping_of_validate _ info (adapter.validate_dump info)
  rw [adapter.none_not_mapping _ hNone] at hMapping
  cases hMapping

/-- `drop_nulls` leaves the entries of the outcomes that stay. -/
theorem filter_isNone (dropNulls : Bool) (outcomes : List (StreamOutcome Value Info)) :
    (if dropNulls then (outcomes.filterMap (entryOf adapter)).filter
        fun value => !adapter.isNone value
      else outcomes.filterMap (entryOf adapter)) =
      (outcomes.filter (stays adapter dropNulls)).filterMap (entryOf adapter) := by
  induction outcomes with
  | nil => cases dropNulls <;> rfl
  | cons outcome outcomes ih =>
      cases outcome with
      | item value =>
          cases dropNulls with
          | false => simpa [List.filterMap_cons, List.filter_cons, entryOf, stays] using ih
          | true =>
              cases hNone : adapter.isNone value with
              | false => simpa [List.filterMap_cons, List.filter_cons, entryOf, stays, hNone] using ih
              | true => simpa [List.filterMap_cons, List.filter_cons, entryOf, stays, hNone] using ih
      | failed info =>
          cases dropNulls with
          | false => simpa [List.filterMap_cons, List.filter_cons, entryOf, stays] using ih
          | true =>
              simpa [List.filterMap_cons, List.filter_cons, entryOf, stays, isNone_dumpPython] using ih
      | skipped => simpa [List.filterMap_cons, List.filter_cons, entryOf, stays] using ih

/-- No successful item looks like an error record. -/
def NoLookalike (adapter : ErrorInfoAdapter Value Info)
    (outcomes : List (StreamOutcome Value Info)) : Prop :=
  ∀ value, .item value ∈ outcomes → adapter.validatePython value = none

/-- The values that are not validated are the items, when none looks like an
error, and fewer otherwise. -/
theorem filter_isNone_asErrorInfo (outcomes : List (StreamOutcome Value Info)) :
    (outcomes.filterMap (entryOf adapter)).filter
        (fun item => (asErrorInfo adapter item).isNone) =
      (outcomes.filterMap itemOf).filter fun item => (asErrorInfo adapter item).isNone := by
  induction outcomes with
  | nil => rfl
  | cons outcome outcomes ih =>
      cases outcome with
      | item value => simp [entryOf, itemOf, List.filter_cons, ih]
      | failed info =>
          have hInfo : asErrorInfo adapter (adapter.dumpPython info) = some info :=
            adapter.validate_dump info
          simp [List.filterMap_cons, entryOf, itemOf, hInfo, ih]
      | skipped => simp [List.filterMap_cons, entryOf, itemOf, ih]

theorem filterMap_asErrorInfo {outcomes : List (StreamOutcome Value Info)}
    (hItems : NoLookalike adapter outcomes) :
    (outcomes.filterMap (entryOf adapter)).filterMap (asErrorInfo adapter) =
      outcomes.filterMap errorOf := by
  rw [List.filterMap_filterMap]
  refine List.filterMap_congr fun outcome hOutcome => ?_
  cases outcome with
  | item value => exact hItems value hOutcome
  | failed info => exact adapter.validate_dump info
  | skipped => rfl

theorem filter_items_iff {outcomes : List (StreamOutcome Value Info)} :
    ((outcomes.filterMap itemOf).filter fun item => (asErrorInfo adapter item).isNone) =
      outcomes.filterMap itemOf ↔ NoLookalike adapter outcomes := by
  rw [List.filter_eq_self]
  constructor
  · intro hAll value hValue
    have hItem : value ∈ outcomes.filterMap itemOf := List.mem_filterMap.mpr ⟨_, hValue, rfl⟩
    simpa [asErrorInfo] using hAll value hItem
  · intro hItems value hValue
    obtain ⟨outcome, hOutcome, hItem⟩ := List.mem_filterMap.mp hValue
    cases outcome with
    | item other =>
        obtain rfl := Option.some.inj hItem
        simpa [asErrorInfo] using hItems other hOutcome
    | failed info => cases hItem
    | skipped => cases hItem

/-- An item that looks like an error record is not `None`, so `drop_nulls` does
not matter. -/
theorem noLookalike_stays (dropNulls : Bool) (outcomes : List (StreamOutcome Value Info)) :
    NoLookalike adapter (outcomes.filter (stays adapter dropNulls)) ↔
      NoLookalike adapter outcomes := by
  constructor
  · intro hItems value hValue
    cases hNone : adapter.isNone value with
    | false =>
        exact hItems value (List.mem_filter.mpr ⟨hValue, by simp [stays, hNone]⟩)
    | true =>
        by_contra hSome
        obtain ⟨info, hInfo⟩ := Option.ne_none_iff_exists'.mp hSome
        have hMapping := adapter.mapping_of_validate value info hInfo
        rw [adapter.none_not_mapping value hNone] at hMapping
        cases hMapping
  · intro hItems value hValue
    exact hItems value (List.mem_of_mem_filter hValue)

/-! ## The finalization -/

theorem finalizeValues_iff (dropNulls : Bool) (strategy : StreamErrorHandlingStrategy)
    (outcomes : List (StreamOutcome Value Info)) :
    finalizeValues adapter dropNulls strategy (outcomes.filterMap (entryOf adapter)) =
        byOutcome adapter dropNulls strategy outcomes ↔
      strategy = .include ∨ NoLookalike adapter outcomes := by
  unfold finalizeValues byOutcome
  dsimp only
  rw [filter_isNone, ← noLookalike_stays dropNulls]
  generalize outcomes.filter (stays adapter dropNulls) = kept
  have hPartition : partitionErrors adapter (kept.filterMap (entryOf adapter)) =
      (kept.filterMap itemOf, kept.filterMap errorOf) ↔ NoLookalike adapter kept := by
    rw [partitionErrors_eq, filter_isNone_asErrorInfo, Prod.mk.injEq, filter_items_iff]
    exact and_iff_left_of_imp filterMap_asErrorInfo
  have hDrop : ((kept.filterMap (entryOf adapter)).filter fun value => !isErrorInfo adapter value) =
      kept.filterMap itemOf ↔ NoLookalike adapter kept := by
    have hSame : (fun value => !isErrorInfo adapter value) =
        fun value => (asErrorInfo adapter value).isNone := by
      funext value
      rw [isErrorInfo_eq, Option.not_isSome]
    rw [hSame, filter_isNone_asErrorInfo, filter_items_iff]
  match strategy with
  | .partition => simpa using hPartition
  | .include => simp
  | .drop => simpa using hDrop
  | .raise => simpa using hPartition

theorem mapM_entries {retrieve : Stored → Except Error Value}
    {outcomes : List (StreamOutcome Value Info)} {entry : Nat → Option Stored}
    (hStored : ∀ index outcome, outcomes[index]? = some outcome →
      (entry index).map retrieve = (entryOf adapter outcome).map .ok) :
    ((List.range outcomes.length).filterMap entry).mapM retrieve =
      .ok (outcomes.filterMap (entryOf adapter)) := by
  induction outcomes using List.reverseRecOn with
  | nil => rfl
  | append_singleton outcomes last ih =>
      have hBefore := ih fun index outcome hOutcome => hStored index outcome <| by
        rw [List.getElem?_append_left (List.getElem?_eq_some_iff.mp hOutcome).1]
        exact hOutcome
      have hLast := hStored outcomes.length last (by simp)
      rw [List.length_append, List.length_singleton, List.range_succ, List.filterMap_append,
        List.filterMap_append]
      refine mapM_eq_ok_iff.mpr (List.rel_append (mapM_eq_ok_iff.mp hBefore) ?_)
      cases hEntry : entry outcomes.length with
      | none =>
          rw [hEntry] at hLast
          have hNone : entryOf adapter last = none := by
            cases hValue : entryOf adapter last with
            | none => rfl
            | some value => rw [hValue] at hLast; cases hLast
          simp [hEntry, hNone]
      | some object =>
          rw [hEntry] at hLast
          cases hValue : entryOf adapter last with
          | none => rw [hValue] at hLast; cases hLast
          | some value =>
              rw [hValue] at hLast
              simpa [List.filterMap_cons, hEntry, hValue] using hLast

/-- The streams of a gather finish in some order and leave their entries, which
storage returns as they were.  The finalization then classifies by outcome
exactly when the strategy keeps every entry or no successful item is validated as
an error record. -/
theorem finalizeGather_iff (adapter : ErrorInfoAdapter Value Info)
    (retrieve : Stored → Except Error Value) (outcomes : List (StreamOutcome Value Info))
    (entry : Nat → Option Stored) (order : List Nat)
    (hOrder : order.Perm (List.range outcomes.length))
    (hStored : ∀ index outcome, outcomes[index]? = some outcome →
      (entry index).map retrieve = (entryOf adapter outcome).map .ok)
    (dropNulls : Bool) (strategy : StreamErrorHandlingStrategy) :
    finalizeGatherActivity adapter retrieve dropNulls strategy
        (storedItems (gatherSlots outcomes.length entry order)) =
      .ok (byOutcome adapter dropNulls strategy outcomes) ↔
      strategy = .include ∨ ∀ value, .item value ∈ outcomes →
        adapter.validatePython value = none := by
  have hValues : (storedItems (gatherSlots outcomes.length entry order)).mapM retrieve =
      .ok (outcomes.filterMap (entryOf adapter)) := by
    rw [storedItems_gatherSlots hOrder]
    exact mapM_entries hStored
  have hRun : finalizeGatherActivity adapter retrieve dropNulls strategy
      (storedItems (gatherSlots outcomes.length entry order)) =
      .ok (finalizeValues adapter dropNulls strategy (outcomes.filterMap (entryOf adapter))) := by
    unfold finalizeGatherActivity
    rw [hValues]
    rfl
  rw [hRun, Except.ok.injEq]
  exact finalizeValues_iff dropNulls strategy outcomes

end Outcomes

/-! ## Two gathers -/

section Examples

/-- What a ticket system may return for a ticket. -/
def ticket : Json :=
  .obj [("ref", .str "T-1"), ("message", .str "Disk full"), ("type", .str "incident")]

def fetchError : ErrorRecord :=
  .mk "fetch" "timed out" "ApplicationError" (.of .actions) 1 (.str "<root>:0/scatter:1") none

/-- Storage that keeps the values inline. -/
def inlineRetrieve (value : Json) : Except String Json :=
  .ok value

/-- The only stream succeeds with a ticket, and the gather has an error and no
result. -/
theorem ticket_not_byOutcome :
    finalizeGatherActivity (actionErrorInfoAdapter String.toInt?) inlineRetrieve false .partition
        (storedItems (gatherSlots 1 (fun _ => some ticket) [0])) ≠
      .ok (byOutcome (actionErrorInfoAdapter String.toInt?) false .partition [.item ticket]) := by
  intro hSame
  have hResults := congrArg (fun result => result.toOption.map fun pair => pair.1.length) hSame
  exact absurd hResults (by decide)

/-- An item, a failed stream and a skipped one that finish in another order. -/
theorem mixed_byOutcome :
    finalizeGatherActivity (actionErrorInfoAdapter String.toInt?) inlineRetrieve true .raise
        (storedItems (gatherSlots 3
          (fun index => [some (Json.str "ok"), some fetchError.dump, none][index]?.join) [2, 0, 1])) =
      .ok (byOutcome (actionErrorInfoAdapter String.toInt?) true .raise
        [.item (.str "ok"), .failed fetchError, .skipped]) := by
  refine (finalizeGather_iff (actionErrorInfoAdapter String.toInt?) inlineRetrieve
    [.item (.str "ok"), .failed fetchError, .skipped] _ [2, 0, 1] (by decide) ?_ true .raise).mpr ?_
  · intro index outcome hOutcome
    match index with
    | 0 => cases hOutcome; rfl
    | 1 => cases hOutcome; rfl
    | 2 => cases hOutcome; rfl
    | index + 3 => cases hOutcome
  · refine Or.inr fun value hValue => ?_
    have hText : value = .str "ok" := by simpa using hValue
    rw [hText]
    rfl

end Examples

end Gather
end Tracecat
