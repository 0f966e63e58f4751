import Tracecat.Dsl.ChildLoop
import Tracecat.Lib.Assoc

/-!
# Compact events of a workflow history

`WorkflowExecutionEventCompact` (`workflow/executions/schemas.py`) and the helpers of
`workflow/executions/common.py` and `service.py` that fill it in: which events of a
Temporal history begin an entry, and what a later event changes in the entry that it
refers to.
-/

namespace Tracecat
namespace CompactHistory

/-! ## Values -/

/-- A value in a payload; a `model` is a pydantic model by its fields, and `other` is any
other value without parts. -/
inductive Value
  | none
  | bool (value : Bool)
  | int (value : Int)
  | str (text : String)
  | other (text : String)
  | list (items : List Value)
  | tuple (items : List Value)
  | dict (entries : List (String × Value))
  | model (fields : List (String × Value))

/-- `isinstance(value, int)`: a `bool` is one. -/
def Value.int? : Value → Option Int
  | .int value => some value
  | .bool value => some (if value then 1 else 0)
  | _ => Option.none

def Value.bool? : Value → Option Bool
  | .bool value => some value
  | _ => Option.none

/-- `_unwrap_loop_control_result`; the source goes at most four envelopes deep. -/
def unwrapLoopControlResult : Nat → Value → Value
  | depth + 1, .dict entries =>
      match entries.lookup "result" with
      | some result => unwrapLoopControlResult depth result
      | Option.none =>
          match entries.lookup "data" with
          | some data => unwrapLoopControlResult depth data
          | Option.none => .dict entries
  | _, value => value

/-- `_extract_while_metadata`: the iteration and the decision of a do-while loop. -/
def extractWhileMetadata (actionName : String) (actionResult : Value) :
    Option Int × Option Bool :=
  match unwrapLoopControlResult 4 actionResult with
  | .dict payload =>
      if actionName = "core.loop.start" then
        ((payload.lookup "iteration").bind Value.int?, Option.none)
      else if actionName = "core.loop.end" then
        (Option.none, (payload.lookup "continue").bind Value.bool?)
      else (Option.none, Option.none)
  | _ => (Option.none, Option.none)

/-- `REDACTED_ACTION_RESULT`. -/
def redactedActionResult : String := "[REDACTED]"

mutual

/-- `_redact_leaf_values`; a model is redacted as the dict that it dumps to. -/
def redactLeafValues : Value → Value
  | .model fields => .dict (redactEntries fields)
  | .dict entries => .dict (redactEntries entries)
  | .list items => .list (redactItems items)
  | .tuple items => .tuple (redactItems items)
  | .none => .str redactedActionResult
  | .bool _ => .str redactedActionResult
  | .int _ => .str redactedActionResult
  | .str _ => .str redactedActionResult
  | .other _ => .str redactedActionResult

def redactItems : List Value → List Value
  | [] => []
  | item :: items => redactLeafValues item :: redactItems items

def redactEntries : List (String × Value) → List (String × Value)
  | [] => []
  | (key, child) :: entries => (key, redactLeafValues child) :: redactEntries entries

end

/-- `_sanitize_action_result`. -/
def sanitizeActionResult (maskOutput : Bool) (actionResult : Value) : Value :=
  if maskOutput then redactLeafValues actionResult else actionResult

/-! ## Events -/

/-- `WorkflowExecutionEventStatus`. -/
inductive EventStatus
  | scheduled
  | started
  | completed
  | failed
  | canceled
  | timedOut
  | detached
  | unknown
  deriving DecidableEq, Repr

/-- `WorkflowEventType`, the values of `HISTORY_TO_WF_EVENT_TYPE` that a compact event
can get. -/
inductive EventType
  | activityTaskScheduled
  | activityTaskStarted
  | activityTaskCompleted
  | activityTaskFailed
  | activityTaskTimedOut
  | activityTaskCanceled
  | startChildWorkflowExecutionInitiated
  | childWorkflowExecutionStarted
  | childWorkflowExecutionCompleted
  | childWorkflowExecutionFailed
  | childWorkflowExecutionTimedOut
  | childWorkflowExecutionCanceled
  | workflowExecutionStarted
  | workflowExecutionCompleted
  | workflowExecutionFailed
  | workflowExecutionUpdateAccepted
  | workflowExecutionUpdateCompleted
  deriving DecidableEq, Repr

/-- `to_status`. -/
def EventType.toStatus : EventType → EventStatus
  | .activityTaskScheduled => .scheduled
  | .startChildWorkflowExecutionInitiated => .scheduled
  | .workflowExecutionUpdateAccepted => .scheduled
  | .activityTaskStarted => .started
  | .childWorkflowExecutionStarted => .started
  | .activityTaskCompleted => .completed
  | .childWorkflowExecutionCompleted => .completed
  | .workflowExecutionUpdateCompleted => .completed
  | .activityTaskFailed => .failed
  | .childWorkflowExecutionFailed => .failed
  | .activityTaskCanceled => .canceled
  | .childWorkflowExecutionCanceled => .canceled
  | .activityTaskTimedOut => .timedOut
  | .childWorkflowExecutionTimedOut => .timedOut
  | .workflowExecutionStarted => .unknown
  | .workflowExecutionCompleted => .unknown
  | .workflowExecutionFailed => .unknown

/-- `EventFailure`, as `from_history_event` reads the failure of an event. -/
structure EventFailure where
  message : String
  rootCauseMessage : Option String := none
  deriving DecidableEq, Repr

/-- The result payload of an event, as the validator of stored objects takes it: inline
data, a handle to stored data, or a value that is no stored object. -/
inductive ResultPayload
  | inline (data : Value)
  | handle (fields : List (String × Value))
  | raw (value : Value)

/-- `get_result`, with `unwrap_action_result`: a handle is shown as it is. -/
def getResult : ResultPayload → Value
  | .inline data => data
  | .handle fields => .model fields
  | .raw value => value

/-- The fields of an `ActionStatement` that an entry shows. -/
structure StatementFields where
  action : String
  ref : Ref
  args : Value
  maskOutput : Bool := false

/-- The first input of a scheduled activity, by the schema of the activity. -/
inductive ActivityInput
  | unreadable (sentinel : Value)
  | runAction (task : Option StatementFields) (streamId : StreamID) (sessionId : Option String)
  | scatter (task : Option StatementFields) (streamId : Option StreamID)
  /-- The input does not parse. -/
  | invalid

/-- `ChildWorkflowMemo`. -/
structure ChildWorkflowMemo where
  actionRef : Ref
  loopIndex : Option Nat := none
  waitStrategy : WaitStrategy := .wait
  streamId : StreamID := rootStream
  maskOutput : Bool := false

/-- `AgentActionMemo`, without the title. -/
structure AgentActionMemo where
  actionRef : Ref
  loopIndex : Option Nat := none
  streamId : StreamID := rootStream
  maskOutput : Bool := false

/-- The child workflow that is initiated: its memo and what its entry shows of its input,
the placeholder when that cannot be read. -/
inductive ChildStart
  | dslWorkflow (memo : ChildWorkflowMemo) (input : Value)
  | durableAgentWorkflow (memo : AgentActionMemo) (input : Value) (sessionId : Option String)

/-- The input of an accepted update. -/
inductive UpdateInput
  | unreadable (sentinel : Value)
  | interaction (actionRef : Ref) (input : Value)

/-- The attributes of an event; `other` stands for the events that the listing skips, such
as timers and workflow tasks. -/
inductive Attributes
  | activityTaskScheduled (activityId activityType : String) (input : ActivityInput)
  | activityTaskStarted (scheduledEventId : Nat)
  | activityTaskCompleted (scheduledEventId : Nat) (result : ResultPayload)
  | activityTaskFailed (scheduledEventId : Nat) (failure : EventFailure)
  | activityTaskTimedOut (scheduledEventId : Nat)
  | activityTaskCanceled (scheduledEventId : Nat)
  | startChildWorkflowExecutionInitiated (workflowId : String) (abandon : Bool)
      (child : ChildStart)
  | childWorkflowExecutionStarted (initiatedEventId : Nat)
  | childWorkflowExecutionCompleted (initiatedEventId : Nat) (result : ResultPayload)
  | childWorkflowExecutionFailed (initiatedEventId : Nat) (failure : EventFailure)
  | childWorkflowExecutionTimedOut (initiatedEventId : Nat)
  | childWorkflowExecutionCanceled (initiatedEventId : Nat)
  | workflowExecutionStarted (triggerInputs : Value)
  | workflowExecutionCompleted (result : ResultPayload)
  | workflowExecutionFailed (failure : EventFailure)
  | workflowExecutionUpdateAccepted (input : UpdateInput)
  | workflowExecutionUpdateCompleted (acceptedEventId : Nat) (result : ResultPayload)
  | other

/-- `HistoryEvent`. -/
structure HistoryEvent where
  eventId : Nat
  eventTime : Nat
  attributes : Attributes

/-- `WorkflowExecutionEventCompact`, with the private `_mask_output`. -/
structure CompactEvent where
  sourceEventId : Nat
  scheduleTime : Nat
  startTime : Option Nat := none
  closeTime : Option Nat := none
  currEventType : EventType
  status : EventStatus
  actionName : String
  actionRef : Ref
  actionInput : Value := .none
  actionResult : Value := .none
  actionError : Option EventFailure := none
  streamId : StreamID := rootStream
  childWfExecId : Option String := none
  childWfCount : Nat := 0
  loopIndex : Option Nat := none
  whileIteration : Option Int := none
  whileContinue : Option Bool := none
  childWfWaitStrategy : Option WaitStrategy := none
  sessionId : Option String := none
  maskOutput : Bool := false

/-- `Task(ref=event.action_ref, stream_id=event.stream_id)`. -/
def CompactEvent.task (event : CompactEvent) : Task where
  ref := event.actionRef
  stream := event.streamId

/-! ## Source events -/

/-- `ACTION_ACTIVITIES`. -/
def actionActivities : List String :=
  ["execute_action_activity", "noop_gather_action_activity", "noop_loop_start_activity",
    "noop_loop_end_activity", "handle_scatter_input_activity"]

/-- `from_scheduled_activity`. -/
def fromScheduledActivity (eventId eventTime : Nat) (activityId activityType : String)
    (input : ActivityInput) : Option CompactEvent :=
  match input with
  | .unreadable sentinel => some {
      sourceEventId := eventId, scheduleTime := eventTime,
      currEventType := .activityTaskScheduled, status := .scheduled,
      actionName := activityType, actionRef := activityId, actionInput := sentinel }
  | .scatter (some task) streamId =>
      if activityType = "handle_scatter_input_activity" then some {
        sourceEventId := eventId, scheduleTime := eventTime,
        currEventType := .activityTaskScheduled, status := .scheduled,
        actionName := task.action, actionRef := task.ref, actionInput := task.args,
        streamId := streamId.getD rootStream, maskOutput := task.maskOutput }
      else none
  | .runAction (some task) streamId sessionId =>
      -- Other activities carry no action; a scatter input has a schema of its own.
      if activityType ∈ actionActivities ∧ activityType ≠ "handle_scatter_input_activity" then
        some {
          sourceEventId := eventId, scheduleTime := eventTime,
          currEventType := .activityTaskScheduled, status := .scheduled,
          actionName := task.action, actionRef := task.ref, actionInput := task.args,
          streamId := streamId, sessionId := sessionId, maskOutput := task.maskOutput }
      else none
  | .scatter none _ => none
  | .runAction none _ _ => none
  | .invalid => none

/-- `from_initiated_child_workflow`. -/
def fromInitiatedChildWorkflow (eventId eventTime : Nat) (workflowId : String) (abandon : Bool) :
    ChildStart → CompactEvent
  | .dslWorkflow memo input => {
      sourceEventId := eventId, scheduleTime := eventTime,
      currEventType := .startChildWorkflowExecutionInitiated,
      status := if abandon ∧ memo.waitStrategy = .detach then .detached else .scheduled,
      actionName := "core.workflow.execute", actionRef := memo.actionRef, actionInput := input,
      childWfExecId := workflowId, loopIndex := memo.loopIndex,
      childWfWaitStrategy := memo.waitStrategy, streamId := memo.streamId,
      maskOutput := memo.maskOutput }
  | .durableAgentWorkflow memo input sessionId => {
      sourceEventId := eventId, scheduleTime := eventTime,
      currEventType := .startChildWorkflowExecutionInitiated, status := .scheduled,
      actionName := "ai.agent", actionRef := memo.actionRef, actionInput := input,
      loopIndex := memo.loopIndex, streamId := memo.streamId, sessionId := sessionId,
      maskOutput := memo.maskOutput }

/-- `from_workflow_update_accepted`. -/
def fromWorkflowUpdateAccepted (eventId eventTime : Nat) : UpdateInput → CompactEvent
  | .unreadable sentinel => {
      sourceEventId := eventId, scheduleTime := eventTime,
      currEventType := .workflowExecutionUpdateAccepted, status := .scheduled,
      actionName := "core.interact.response", actionRef := "core.interact.response",
      actionInput := sentinel }
  | .interaction actionRef input => {
      sourceEventId := eventId, scheduleTime := eventTime,
      currEventType := .workflowExecutionUpdateAccepted, status := .scheduled,
      actionName := actionRef, actionRef := actionRef, actionInput := input }

/-- `WF_TRIGGER_REF`. -/
def wfTriggerRef : Ref := "__workflow_trigger__"

/-- `WF_FAILURE_REF`. -/
def wfFailureRef : Ref := "__workflow_failure__"

/-- `WF_COMPLETED_REF`. -/
def wfCompletedRef : Ref := "__workflow_completed__"

/-- The entry that an event begins: `from_source_event`, or the entry for the start or the
end of the workflow itself. -/
def sourceOf (event : HistoryEvent) : Option CompactEvent :=
  match event.attributes with
  | .activityTaskScheduled activityId activityType input =>
      fromScheduledActivity event.eventId event.eventTime activityId activityType input
  | .startChildWorkflowExecutionInitiated workflowId abandon child =>
      some (fromInitiatedChildWorkflow event.eventId event.eventTime workflowId abandon child)
  | .workflowExecutionUpdateAccepted input =>
      some (fromWorkflowUpdateAccepted event.eventId event.eventTime input)
  | .workflowExecutionStarted triggerInputs => some {
      sourceEventId := event.eventId, scheduleTime := event.eventTime,
      startTime := event.eventTime, closeTime := event.eventTime,
      currEventType := .workflowExecutionStarted, status := .completed,
      actionName := wfTriggerRef, actionRef := wfTriggerRef, actionInput := triggerInputs }
  | .workflowExecutionFailed failure => some {
      sourceEventId := event.eventId, scheduleTime := event.eventTime,
      startTime := event.eventTime, closeTime := event.eventTime,
      currEventType := .workflowExecutionFailed, status := .failed,
      actionName := wfFailureRef, actionRef := wfFailureRef, actionError := failure }
  | .workflowExecutionCompleted result => some {
      sourceEventId := event.eventId, scheduleTime := event.eventTime,
      startTime := event.eventTime, closeTime := event.eventTime,
      currEventType := .workflowExecutionCompleted, status := .completed,
      actionName := wfCompletedRef, actionRef := wfCompletedRef,
      actionResult := getResult result }
  | _ => none

/-! ## Later events -/

/-- `get_source_event_id`, with the entry of `HISTORY_TO_WF_EVENT_TYPE`: the source event
that a later event refers to, and its type. -/
def followUp? : Attributes → Option (Nat × EventType)
  | .activityTaskStarted scheduledEventId => some (scheduledEventId, .activityTaskStarted)
  | .activityTaskCompleted scheduledEventId _ => some (scheduledEventId, .activityTaskCompleted)
  | .activityTaskFailed scheduledEventId _ => some (scheduledEventId, .activityTaskFailed)
  | .activityTaskTimedOut scheduledEventId => some (scheduledEventId, .activityTaskTimedOut)
  | .activityTaskCanceled scheduledEventId => some (scheduledEventId, .activityTaskCanceled)
  | .childWorkflowExecutionStarted initiatedEventId =>
      some (initiatedEventId, .childWorkflowExecutionStarted)
  | .childWorkflowExecutionCanceled initiatedEventId =>
      some (initiatedEventId, .childWorkflowExecutionCanceled)
  | .childWorkflowExecutionCompleted initiatedEventId _ =>
      some (initiatedEventId, .childWorkflowExecutionCompleted)
  | .childWorkflowExecutionFailed initiatedEventId _ =>
      some (initiatedEventId, .childWorkflowExecutionFailed)
  | .childWorkflowExecutionTimedOut initiatedEventId =>
      some (initiatedEventId, .childWorkflowExecutionTimedOut)
  | .workflowExecutionUpdateCompleted acceptedEventId _ =>
      some (acceptedEventId, .workflowExecutionUpdateCompleted)
  | _ => none

/-- `is_start_event`, of an event that refers to a source event. -/
def EventType.isStart (type : EventType) : Bool :=
  type = .activityTaskStarted || type = .childWorkflowExecutionStarted

/-- The result of a close event: `is_close_event` and `get_result`. -/
def closeResult? : Attributes → Option Value
  | .activityTaskCompleted _ result => some (getResult result)
  | .childWorkflowExecutionCompleted _ result => some (getResult result)
  | .workflowExecutionUpdateCompleted _ result => some (getResult result)
  | _ => none

/-- The failure of an error event: `is_error_event` and `from_history_event`. -/
def errorOf? : Attributes → Option EventFailure
  | .activityTaskFailed _ failure => some failure
  | .childWorkflowExecutionFailed _ failure => some failure
  | _ => none

namespace CompactEvent

/-- A detached child keeps its status. -/
def withType (source : CompactEvent) (type : EventType) : CompactEvent :=
  { source with
    currEventType := type
    status := if source.status = .detached then source.status else type.toStatus }

def withStart (source : CompactEvent) (type : EventType) (time : Nat) : CompactEvent :=
  if type.isStart then { source with startTime := time } else source

def withClose (source : CompactEvent) (time : Nat) : Option Value → CompactEvent
  | some rawResult =>
      { source with
        closeTime := time
        actionResult := sanitizeActionResult source.maskOutput rawResult
        whileIteration := (extractWhileMetadata source.actionName rawResult).1
        whileContinue := (extractWhileMetadata source.actionName rawResult).2 }
  | none => source

def withError (source : CompactEvent) : Option EventFailure → CompactEvent
  | some failure => { source with actionError := failure }
  | none => source

/-- What an event of the type changes in the entry of its source event. -/
def follow (source : CompactEvent) (type : EventType) (event : HistoryEvent) : CompactEvent :=
  (((source.withType type).withStart type event.eventTime).withClose event.eventTime
    (closeResult? event.attributes)).withError (errorOf? event.attributes)

end CompactEvent

end CompactHistory
end Tracecat
