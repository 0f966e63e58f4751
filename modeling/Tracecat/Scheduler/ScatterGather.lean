import Tracecat.Scheduler.Queue

/-!
# Scatter and gather

`_handle_scatter`, `_handle_gather` and the functions they call.  Each
definition runs from one await point to the next.
-/

namespace Tracecat

/-- `_get_collection_size`. -/
def collectionSize : StoredObject Json → Option Nat
  | .collection _ count => some count
  | .inline (.arr items) => some items.length
  | _ => none

/-- `ScatterArgs(**stmt.args)`. -/
def scatterArgs (stmt : ActionStatement) : Except Exn ScatterArgs :=
  match stmt.args with
  | .scatter args => .ok args
  | _ => .error (.validationError "ScatterArgs")

/-- `GatherArgs(**stmt.args)`. -/
def gatherArgs (stmt : ActionStatement) : Except Exn GatherArgs :=
  match stmt.args with
  | .gather args => .ok args
  | _ => .error (.validationError "GatherArgs")

namespace DSLScheduler

variable (scheduler : DSLScheduler)

/-- `_handle_scatter_skip_stream`. -/
def handleScatterSkipStream (state : State) (task : Task) : State :=
  let newStream := StreamID.skip task.ref task.stream
  scheduler.queueSkipped (state.openStream task newStream task.stream ∅)
    ⟨⟨task.ref, newStream⟩, 0⟩

/-- `_handle_scatter`, up to `handle_scatter_input_activity`. -/
def handleScatter (state : State) (task : Task) (stmt : ActionStatement)
    (isSkipping : Bool) : Segment :=
  if isSkipping then .finish (scheduler.handleScatterSkipStream state task)
  else
    match scatterArgs stmt with
    | .error exc => .raise state exc false
    | .ok _ =>
        match state.streams.lookup task.stream with
        | none => .raise state (.keyError task.stream.text) false
        | some _ => .suspend state .scatterInput

/-- One turn of the loop of `_handle_scatter`: create the stream of the next
item and queue its first tasks.  `streams` is the local list; the entry of
`task_streams` is the same list as long as a loop reset has not removed it. -/
def scatterItem (state : State) (task : Task) (interval : Option Int)
    (collection : StoredObject Json) (streams : List StreamID) : State :=
  let index := streams.length
  let newStream := StreamID.new task.ref index task.stream
  let actions : Dict Ref TaskResult :=
    (∅ : Dict Ref TaskResult).insert task.ref (.fromCollectionItem collection index)
  let state := state.openStream task newStream task.stream actions
  let state :=
    { state with
      taskStreams :=
        match state.taskStreams.lookup task with
        | some listed =>
            if listed = streams then state.taskStreams.insert task (streams ++ [newStream])
            else state.taskStreams
        | none => state.taskStreams }
  scheduler.queueTasks state ⟨⟨task.ref, newStream⟩, index * interval.getD 0⟩ []

/-- The loop of `_handle_scatter` from its head: the next item, or the end. -/
def scatterNext (state : State) (task : Task) (stmt : ActionStatement)
    (collection : StoredObject Json) (size : Nat) (streams : List StreamID) : Segment :=
  if streams.length < size then
    let interval := ((scatterArgs stmt).toOption.bind ScatterArgs.interval)
    .suspend (scheduler.scatterItem state task interval collection streams)
      (.scatterLoop collection size
        (streams ++ [StreamID.new task.ref streams.length task.stream]))
  else
    .finish { state with openStreams := state.openStreams.insert task (streams.length : Int) }

/-- `_handle_scatter`, with the collection that the activity returned. -/
def beginScatter (state : State) (task : Task) (stmt : ActionStatement)
    (collection : StoredObject Json) : Segment :=
  let state := { state with taskStreams := state.taskStreams.insert task [] }
  match collectionSize collection with
  | none => .raise state (.other "TypeError"
      "Expected CollectionObject or InlineObject with list data") false
  | some 0 =>
      .finish (scheduler.handleScatterSkipStream
        { state with openStreams := state.openStreams.insert task 0 } task)
  | some size =>
      scheduler.scatterNext (state.record (.scattered task size)) task stmt collection size []

/-- `_get_parent_stream_id_safe`. -/
def parentStream (state : State) (stream : StreamID) : Except Exn StreamID :=
  match state.streamHierarchy.lookup stream with
  | none => .error (.keyError stream.text)
  | some none => .error (.other "RuntimeError"
      "Invalid state: Gather encountered in skip stream with no parent stream")
  | some (some parent) => .ok parent

/-- The stored items that `_handle_gather_result` passes on: unset slots are
dropped, and what is no stored object is validated as one. -/
def storedItems : List GatherSlot → Except Exn (List (StoredObject Json))
  | [] => .ok []
  | .unset :: rest => storedItems rest
  | .stored object :: rest => do
      let items ← storedItems rest
      .ok (object :: items)
  | .raw value :: rest =>
      match value, scheduler.validateStored value with
      | .str text, validated =>
          if text = gatherUnset then storedItems rest
          else
            match validated with
            | none => .error (.validationError "StoredObject")
            | some object => do
                let items ← storedItems rest
                .ok (object :: items)
      | _, none => .error (.validationError "StoredObject")
      | _, some object => do
          let items ← storedItems rest
          .ok (object :: items)

/-- The entry of a gather ref in the `ACTIONS` of a stream. -/
def gatherEntry (state : State) (gather : Task) : Option TaskResult :=
  (state.streams.lookup gather.stream).bind fun context => context.actions.lookup gather.ref

/-- `_handle_gather_result`, up to `finalize_gather_activity`. -/
def handleGatherResult (state : State) (task : Task) (parent : StreamID) : Segment :=
  let gather : Task := ⟨task.ref, parent⟩
  let state :=
    if (gatherEntry state gather).isSome then state
    else state.writeAction task parent task.ref (.fromResult (.slots []))
  match gatherEntry state gather with
  | none => .raise state (.keyError task.ref) false
  | some result =>
      match result.getData with
      | .error exc => .raise state exc false
      | .ok data =>
          match data.slots? with
          | none => .raise state (.other "TypeError" "object is not iterable") false
          | some slots =>
              match scheduler.storedItems slots with
              | .error exc => .raise state exc false
              | .ok items =>
                  .suspend (state.record (.finalizing gather items))
                    (.gatherFinalize parent result items)

/-- The initialization and the store `get_data()[stream_idx] = slot` of a
gather; `size` is read from `task_streams`, a `defaultdict`. -/
def collect (state : State) (task : Task) (parent : StreamID) (scatter : Task) (index : Nat)
    (slot : GatherSlot) : Except (State × Exn) State :=
  let gather : Task := ⟨task.ref, parent⟩
  let state :=
    if (gatherEntry state gather).isSome then state
    else
      let listed := (state.taskStreams.lookup scatter).getD []
      let state :=
        { state with
          taskStreams :=
            if (state.taskStreams.lookup scatter).isSome then state.taskStreams
            else state.taskStreams.insert scatter [] }
      state.writeAction task parent task.ref
        (.fromResult (.slots (listed.map fun _ => .unset)))
  match gatherEntry state gather with
  | none => .error (state, .keyError task.ref)
  | some result =>
      match result.storeAt index slot with
      | .error exc => .error (state, exc)
      | .ok result =>
          .ok ((state.record (.collected task slot)).writeAction task parent task.ref result)

/-- `_handle_gather_skip_stream`, after `open_streams` was decremented to
`remaining`. -/
def handleGatherSkipStream (state : State) (task : Task) (stmt : ActionStatement)
    (parent : StreamID) (scatter : Task) (index : Nat) (remaining : Int) : Segment :=
  match state.streams.lookup parent with
  | none => .raise state (.keyError parent.text) false
  | some _ =>
      let stored :=
        match state.streamExceptions.lookup task.stream with
        | some info => collect state task parent scatter index
            (.stored (.inline info.details.dump))
        | none => .ok state
      match stored with
      | .error (state, exc) => .raise state exc false
      | .ok state =>
          if remaining = 0 then
            match gatherArgs stmt with
            | .error exc => .raise state exc false
            | .ok _ => scheduler.handleGatherResult state task parent
          else .finish state

/-- `self.open_streams[parent_scatter] -= 1`. -/
def closeStream (state : State) (scatter : Task) : Except Exn (State × Int) :=
  match state.openStreams.lookup scatter with
  | none => .error (.keyError scatter.ref)
  | some opened =>
      .ok ({ state with openStreams := state.openStreams.insert scatter (opened - 1) },
        opened - 1)

/-- `_handle_gather`, up to its first await. -/
def handleGather (state : State) (task : DelayedTask) (stmt : ActionStatement)
    (isSkipping : Bool) : Segment :=
  match task.task.stream with
  | .root =>
      if isSkipping then
        .raise state (.other "RuntimeError"
          "We are skipping but we should be in a skip stream") false
      else
        .raise state (.other "RuntimeError"
          "Found gather in root stream but not skipping. User has probably made a mistake") false
  | .child _ scatterRef .skip =>
      match parentStream state task.task.stream with
      | .error exc => .raise state exc false
      | .ok parent =>
          if (state.openStreams.lookup ⟨scatterRef, parent⟩).isSome then
            match state.streams.lookup parent with
            | none => .raise state (.keyError parent.text) false
            | some _ =>
                .suspend (state.record (.finalizing ⟨task.task.ref, parent⟩ []))
                  (.gatherEmpty parent)
          else .finish (scheduler.queueSkipped state task)
  | .child _ scatterRef (.item index) =>
      match parentStream state task.task.stream with
      | .error exc => .raise state exc false
      | .ok parent =>
          if isSkipping then
            match closeStream state ⟨scatterRef, parent⟩ with
            | .error exc => .raise state exc false
            | .ok (state, remaining) =>
                scheduler.handleGatherSkipStream state task.task stmt parent
                  ⟨scatterRef, parent⟩ index remaining
          else
            match gatherArgs stmt with
            | .error exc => .raise state exc false
            | .ok _ =>
                match state.streams.lookup task.task.stream with
                | none => .raise state (.keyError task.task.stream.text) false
                | some _ => .suspend state (.gatherItem parent)

/-- `_handle_gather`, with the item that the activity returned. -/
def storeGatherItem (state : State) (task : Task) (parent : StreamID)
    (item : StoredObject Json) : Segment :=
  match task.stream with
  | .child _ scatterRef (.item index) =>
      match closeStream state ⟨scatterRef, parent⟩ with
      | .error exc => .raise state exc false
      | .ok (state, remaining) =>
          match state.streams.lookup parent with
          | none => .raise state (.keyError parent.text) false
          | some _ =>
              match collect state task parent ⟨scatterRef, parent⟩ index (.stored item) with
              | .error (state, exc) => .raise state exc false
              | .ok state =>
                  if remaining = 0 then scheduler.handleGatherResult state task parent
                  else .finish state
  | _ => .raise state (.application "Invalid gather state" none) false

/-- `_handle_gather_result`, with the result of `finalize_gather_activity`. -/
def finishGatherResult (state : State) (task : Task) (stmt : ActionStatement)
    (parent : StreamID) (taskResult : TaskResult) (result : StoredObject Datum)
    (errors : List ActionErrorInfo) : Segment :=
  let strategy := ((gatherArgs stmt).toOption.map GatherArgs.errorStrategy).getD .partition
  if strategy = .raise ∧ errors ≠ [] then
    let message := "Gather '" ++ task.ref ++ "' encountered " ++ toString errors.length ++
      " error(s)"
    let details : ActionErrorInfo := .mk task.ref message "ApplicationError" 1 parent errors
    let exc : Exn := .application message
      (some (.childWorkflow (some details) (some message)))
    .raise
      { state with taskExceptions := state.taskExceptions.insert task.ref ⟨exc, details⟩ }
      exc false
  else
    let updated : TaskResult := { taskResult with result := result }
    let updated :=
      if errors = [] then updated
      else updated.withError (.arr (ActionErrorInfo.dumpAll errors))
    let gather : Task := ⟨task.ref, parent⟩
    .suspend
      (((state.writeAction gather parent task.ref updated).record (.gathered gather)).record
        (.executing gather))
      (.gatherExec parent)

/-- `_handle_gather_result`, after the gather action was emitted. -/
def finishGather (state : State) (task : DelayedTask) (parent : StreamID) : Segment :=
  .finish (scheduler.queueTasks state ⟨⟨task.task.ref, parent⟩, 0⟩ [])

/-- `_handle_gather` of an empty collection, with the finalized result. -/
def finishEmptyGather (state : State) (task : DelayedTask) (parent : StreamID)
    (result : StoredObject Datum) : Segment :=
  let gather : Task := ⟨task.task.ref, parent⟩
  .finish (scheduler.queueTasks
    ((state.writeAction gather parent task.task.ref { result := result }).record
      (.gathered gather)) ⟨gather, 0⟩ [])

end DSLScheduler

/-! ## The state that a gather leaves -/

/-- The changes that a gather makes before it waits again: it stores in the context of `parent`
and closes its stream. -/
inductive Gathers (task : Task) (parent : StreamID) (state : State) : State → Prop
  | refl : Gathers task parent state state
  | close {after : State} (scatter : Task) (count : Int)
      (hGathers : Gathers task parent state after) :
      Gathers task parent state
        { after with openStreams := after.openStreams.insert scatter count }
  /-- reading `task_streams`, a `defaultdict` -/
  | list {after : State} {scatter : Task} (hNone : after.taskStreams.lookup scatter = none)
      (hGathers : Gathers task parent state after) :
      Gathers task parent state
        { after with taskStreams := after.taskStreams.insert scatter [] }
  | write {after : State} (result : TaskResult) (hGathers : Gathers task parent state after) :
      Gathers task parent state (after.writeAction task parent task.ref result)
  | collected {after : State} (slot : GatherSlot) (hGathers : Gathers task parent state after) :
      Gathers task parent state (after.record (.collected task slot))
  | finalizing {after : State} (items : List (StoredObject Json))
      (hGathers : Gathers task parent state after) :
      Gathers task parent state (after.record (.finalizing ⟨task.ref, parent⟩ items))

/-- A gather that has closed its stream fails, ends, or finalizes. -/
inductive Segment.Gathers (task : Task) (parent : StreamID) (state : State) : Segment → Prop
  | raise {after : State} (exc : Exn) (hGathers : Tracecat.Gathers task parent state after) :
      Gathers task parent state (.raise after exc false)
  | finish {after : State} (hGathers : Tracecat.Gathers task parent state after) :
      Gathers task parent state (.finish after)
  | finalize {after : State} (result : TaskResult) (items : List (StoredObject Json))
      (hGathers : Tracecat.Gathers task parent state after) :
      Gathers task parent state (.suspend after (.gatherFinalize parent result items))

namespace DSLScheduler

variable {scheduler : DSLScheduler} {start state : State} {task : Task} {stmt : ActionStatement}
  {parent : StreamID}

theorem gathers_handleGatherResult (hBefore : Gathers task parent start state) :
    (scheduler.handleGatherResult state task parent).Gathers task parent start := by
  have hInit : Gathers task parent start
      (if (gatherEntry state ⟨task.ref, parent⟩).isSome then state
        else state.writeAction task parent task.ref (.fromResult (.slots []))) := by
    split
    · exact hBefore
    · exact hBefore.write _
  unfold handleGatherResult
  simp only
  split
  · exact .raise _ hInit
  · split
    · exact .raise _ hInit
    · split
      · exact .raise _ hInit
      · split
        · exact .raise _ hInit
        · exact .finalize _ _ (hInit.finalizing _)

theorem gathers_collect {scatter : Task} {index : Nat} {slot : GatherSlot}
    (hBefore : Gathers task parent start state) :
    (∀ after, collect state task parent scatter index slot = .ok after →
      Gathers task parent start after) ∧
    ∀ after exc, collect state task parent scatter index slot = .error (after, exc) →
      Gathers task parent start after := by
  have hInit : Gathers task parent start
      (if (gatherEntry state ⟨task.ref, parent⟩).isSome then state
        else ({ state with
            taskStreams :=
              if (state.taskStreams.lookup scatter).isSome then state.taskStreams
              else state.taskStreams.insert scatter [] } : State).writeAction task parent
          task.ref (.fromResult (.slots (((state.taskStreams.lookup scatter).getD []).map
            fun _ => .unset)))) := by
    split
    · exact hBefore
    · refine .write _ ?_
      cases hListed : state.taskStreams.lookup scatter with
      | some listed => exact hBefore
      | none => exact hBefore.list hListed
  unfold collect
  simp only
  split
  · refine ⟨fun after hOk => (by cases hOk), fun after exc hError => ?_⟩
    cases hError
    exact hInit
  · split
    · refine ⟨fun after hOk => (by cases hOk), fun after exc hError => ?_⟩
      cases hError
      exact hInit
    · refine ⟨fun after hOk => ?_, fun after exc hError => (by cases hError)⟩
      cases hOk
      exact (hInit.collected _).write _

theorem gathers_closeStream {scatter : Task} {after : State} {remaining : Int}
    (hClosed : closeStream state scatter = .ok (after, remaining)) :
    Gathers task parent state after := by
  unfold closeStream at hClosed
  split at hClosed <;> cases hClosed
  exact .close _ _ .refl

theorem gathers_handleGatherSkipStream {scatter : Task} {index : Nat} {remaining : Int}
    (hBefore : Gathers task parent start state) :
    (scheduler.handleGatherSkipStream state task stmt parent scatter index remaining).Gathers task
      parent start := by
  unfold handleGatherSkipStream
  split
  · exact .raise _ hBefore
  · simp only
    split
    · rename_i after exc hFailed
      split at hFailed
      · exact .raise _ ((gathers_collect hBefore).2 after exc hFailed)
      · cases hFailed
    · rename_i after hStored
      have hAfter : Gathers task parent start after := by
        split at hStored
        · exact (gathers_collect hBefore).1 after hStored
        · cases hStored
          exact hBefore
      split
      · split
        · exact .raise _ hAfter
        · exact gathers_handleGatherResult hAfter
      · exact .finish hAfter

theorem gathers_storeGatherItem (item : StoredObject Json) :
    (scheduler.storeGatherItem state task parent item).Gathers task parent state := by
  unfold storeGatherItem
  split
  · split
    · exact .raise _ .refl
    · rename_i after remaining hClosed
      have hAfter : Gathers task parent state after := gathers_closeStream hClosed
      split
      · exact .raise _ hAfter
      · split
        · exact .raise _ ((gathers_collect hAfter).2 _ _ ‹_›)
        · rename_i stored hStored
          have hDone := (gathers_collect hAfter).1 stored hStored
          split
          · exact gathers_handleGatherResult hDone
          · exact .finish hDone
  · exact .raise _ .refl

/-- What `_handle_gather` does up to its first await. -/
inductive BeginsGather (scheduler : DSLScheduler) (state : State) (task : DelayedTask) :
    Segment → Prop
  | raise (exc : Exn) : BeginsGather scheduler state task (.raise state exc false)
  | skip : BeginsGather scheduler state task (.finish (scheduler.queueSkipped state task))
  | empty {parent : StreamID} (hParent : parentStream state task.task.stream = .ok parent) :
      BeginsGather scheduler state task
        (.suspend (state.record (.finalizing ⟨task.task.ref, parent⟩ [])) (.gatherEmpty parent))
  | item {parent : StreamID} (hParent : parentStream state task.task.stream = .ok parent) :
      BeginsGather scheduler state task (.suspend state (.gatherItem parent))
  | close {parent : StreamID} {segment : Segment}
      (hParent : parentStream state task.task.stream = .ok parent)
      (hGathers : segment.Gathers task.task parent state) :
      BeginsGather scheduler state task segment

theorem beginsGather (task : DelayedTask) (isSkipping : Bool) :
    BeginsGather scheduler state task (scheduler.handleGather state task stmt isSkipping) := by
  unfold handleGather
  split
  · split <;> exact .raise _
  · split
    · exact .raise _
    · split
      · split
        · exact .raise _
        · exact .empty ‹_›
      · exact .skip
  · split
    · exact .raise _
    · split
      · split
        · exact .raise _
        · exact .close ‹_› (gathers_handleGatherSkipStream (gathers_closeStream ‹_›))
      · split
        · exact .raise _
        · split
          · exact .raise _
          · exact .item ‹_›

end DSLScheduler

end Tracecat
