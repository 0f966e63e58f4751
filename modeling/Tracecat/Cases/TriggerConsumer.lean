import Mathlib.Data.List.Basic
import Tracecat.Cases.Events
import Tracecat.Lib.LockTable

/-!
# The case trigger consumer

`CaseTriggerConsumer` (`cases/triggers/consumer.py`).  Any number of consumers
read one Redis stream through a consumer group.  A consumer that handles a
message is the await at which it is suspended; a step takes it from there to the
next await, or to the end of the message.
-/

namespace Tracecat
namespace CaseTriggers

abbrev EventId : Type := Nat

abbrev WorkflowId : Type := Nat

/-- The event and the workflow that a `done` key or a `lock` key names. -/
abbrev Key : Type := EventId × WorkflowId

/-- The position of a message in the stream. -/
abbrev MessageId : Type := Nat

abbrev ConsumerId : Type := Nat

/-! ## Messages -/

/-- The fields of a message that names a workflow.  A `wf_exec_id` is generated
for one event, so the event stands for it. -/
structure ExplicitWorkflow where
  workflowId : WorkflowId
  hasExecId : Bool := true
  deriving DecidableEq, Repr

/-- What is published for an event; its type may be unknown. -/
structure Published where
  eventType : Option CaseEventType
  explicit : Option ExplicitWorkflow := none
  deriving DecidableEq, Repr

/-- A message of the stream; it may lack a field or have an invalid id. -/
structure Message where
  event : EventId
  wellFormed : Bool := true
  deriving DecidableEq, Repr

/-! ## The database -/

structure CaseTrigger where
  workflowId : WorkflowId
  online : Bool
  eventTypes : List CaseEventType
  tagFilters : List String
  deriving DecidableEq, Repr

/-- A workflow definition: whether it has the version of its workflow, has a
content, and the content is valid. -/
structure WorkflowDefinition where
  isCurrent : Bool := true
  hasContent : Bool := true
  isValid : Bool := true
  deriving DecidableEq, Repr

/-- What a consumer can read in the database at some time. -/
structure Database where
  /-- the event and its case are there -/
  hasCase : Bool := true
  /-- the event has a `wf_exec_id` -/
  workflowOriginated : Bool := false
  tags : List String := []
  /-- the organization has the entitlement for case add-ons -/
  entitled : Bool := true
  triggers : List CaseTrigger
  definition : WorkflowId → Option WorkflowDefinition

/-- `matching_event_types`. -/
def matchingEventTypes : CaseEventType → List CaseEventType
  | .caseClosed => [.caseClosed, .statusChanged]
  | .caseReopened => [.caseReopened, .statusChanged]
  | eventType => [eventType]

/-- `_load_triggers`. -/
def loadTriggers (db : Database) : Option CaseEventType → List CaseTrigger
  | none => []
  | some eventType =>
      db.triggers.filter fun trigger =>
        trigger.online && (matchingEventTypes eventType).any (trigger.eventTypes.contains ·)

/-- The workflows of the triggers that the loop does not skip. -/
def matchingTriggers (db : Database) (published : Published) (caseTagRefs : List String) :
    List WorkflowId :=
  ((loadTriggers db published.eventType).filter fun trigger =>
    (published.explicit.map (·.workflowId) ≠ some trigger.workflowId) &&
      (trigger.tagFilters.isEmpty || trigger.tagFilters.any (caseTagRefs.contains ·))).map
    (·.workflowId)

/-- `_dispatch_workflow` starts the workflow, and does not disable the trigger. -/
def Database.dispatchable (db : Database) (workflow : WorkflowId) : Bool :=
  (db.definition workflow).any fun definition =>
    definition.isCurrent && definition.hasContent && definition.isValid

/-! ## Consumers -/

/-- A workflow that a message asks for, by its `workflow_id` or through a
configured trigger. -/
structure Item where
  workflow : WorkflowId
  explicit : Bool
  deriving DecidableEq, Repr

/-- How a `try` block was left before its `finally`. -/
inductive Exit
  | returned
  | raised
  | cancelled
  deriving DecidableEq, Repr

/-- The await at which a consumer is suspended. -/
inductive Await
  /-- the reads of the event, the case and the role -/
  | loading
  /-- `exists` of the done key -/
  | checking (item : Item)
  /-- `set_if_not_exists` of the lock key -/
  | locking (item : Item)
  /-- the reads of the definition, and the flush of a disabled trigger -/
  | dispatching (item : Item)
  /-- `create_workflow_execution_wait_for_start` -/
  | starting (workflow : WorkflowId)
  /-- the status of the comment and the audit event of an explicit workflow -/
  | recording (workflow : WorkflowId) (failed : Bool)
  /-- the commit in `_process_explicit_workflow` -/
  | committing (workflow : WorkflowId)
  /-- `set` of the done key -/
  | closing (item : Item)
  /-- `delete` of the lock key -/
  | unlocking (item : Item) (exit : Exit)
  /-- the entitlement and `_load_triggers` -/
  | listing
  /-- the last commit -/
  | finishing
  /-- `xack` -/
  | acking
  deriving DecidableEq, Repr

/-- What the consumers have done. -/
inductive Entry
  | dispatched (key : Key)
  /-- a failed dispatch was recorded -/
  | failed (key : Key)
  /-- the trigger was disabled -/
  | disabled (key : Key)
  /-- a lock key was deleted, while a consumer held the lock or none did -/
  | deleted (consumer : ConsumerId) (key : Key) (holder : Option ConsumerId)
  /-- a message was acked that asks for the workflows -/
  | acked (event : EventId) (workflows : List WorkflowId)
  deriving DecidableEq, Repr

/-- The handling of a message. -/
structure Handler where
  message : MessageId
  event : EventId
  caseTagRefs : List String := []
  shouldAck : Bool := true
  /-- the workflows that the message was found to ask for -/
  matched : List WorkflowId := []
  /-- the triggers that the loop has still to go through -/
  todo : List WorkflowId := []
  /-- the writes of the open transaction -/
  writes : List Entry := []
  /-- the triggers disabled by the open transaction whose done key is written -/
  closed : List WorkflowId := []
  await : Await := .loading
  deriving DecidableEq, Repr

/-- A consumer: the messages that it has received, and the one that it handles. -/
structure Consumer where
  batch : List MessageId := []
  handler : Option Handler := none
  deriving DecidableEq, Repr

namespace Await

/-- The lock that the consumer has taken and not given back. -/
def lock? : Await → Option WorkflowId
  | dispatching item | closing item | unlocking item _ => some item.workflow
  | starting workflow | recording workflow _ | committing workflow => some workflow
  | _ => none

end Await

namespace Handler

variable (handler : Handler)

/-- The consumer holds the lock. -/
def holds (key : Key) : Bool :=
  handler.event = key.1 && handler.await.lock? = some key.2

/-- The loop goes on to the next trigger. -/
def nextTrigger : Handler :=
  match handler.todo with
  | [] => { handler with await := .finishing }
  | workflow :: todo => { handler with todo := todo, await := .checking ⟨workflow, false⟩ }

def after (item : Item) : Handler :=
  if item.explicit then { handler with await := .listing } else handler.nextTrigger

end Handler

/-! ## The state -/

/-- The Redis keys, Temporal, the consumers, and the log, newest entry first. -/
structure DeliveryState where
  stream : List Message := []
  /-- the number of messages that were delivered to the group -/
  delivered : Nat := 0
  /-- the messages that were delivered and not acked -/
  pending : List MessageId := []
  done : List Key := []
  locks : LockTable Key ConsumerId := LockTable.empty
  /-- the events whose `wf_exec_id` was used for an execution -/
  executions : List EventId := []
  consumers : List Consumer
  log : List Entry := []

/-- How an awaited operation ends: it returns, with what the database has at the
time; its reply is lost, and the client tries again; it raises an exception; the
consumer is cancelled; or the consumer stops. -/
inductive Outcome
  | returns (db : Database)
  | lost
  | raises
  | cancels
  | stops

inductive DeliveryEvent
  /-- `xadd` -/
  | publish (message : Message)
  /-- `xreadgroup` by an idle consumer -/
  | read (consumer : ConsumerId) (count : Nat)
  /-- `xclaim` by an idle consumer of messages that have been idle -/
  | claim (consumer : ConsumerId) (messages : List MessageId)
  /-- the consumer goes on -/
  | proceed (consumer : ConsumerId) (outcome : Outcome)
  | lockExpires (key : Key)
  | doneExpires (key : Key)

namespace DeliveryState

variable (published : EventId → Published) (state : DeliveryState)

/-- The start of `_handle_message`. -/
def handle (message : MessageId) : Handler :=
  match state.stream[message]? with
  | some { event := event, wellFormed := true } => { message := message, event := event }
  | some { event := event, wellFormed := false } =>
      { message := message, event := event, await := .acking }
  | none => { message := message, event := 0, await := .acking }

/-- A consumer takes the next message of its batch. -/
def take : List MessageId → Consumer
  | [] => {}
  | message :: batch => { batch := batch, handler := some (state.handle message) }

def put (consumer : ConsumerId) (next : Consumer) : DeliveryState :=
  { state with consumers := state.consumers.set consumer next }

/-- The consumer that holds the lock of a key, if its lock key is there. -/
def holder (key : Key) : Option ConsumerId :=
  (state.locks key).filter fun owner =>
    (state.consumers[owner]?).any fun consumer =>
      consumer.handler.any fun handler => handler.holds key

/-! ## Steps of a consumer -/

/-- What the awaited operation does outside of the consumer, and to its
transaction. -/
def effect (consumer : ConsumerId) (handler : Handler) : DeliveryState × Handler :=
  match handler.await with
  | .locking item =>
      ({ state with
          locks :=
            if state.locks (handler.event, item.workflow) = none then
              state.locks.take consumer (handler.event, item.workflow)
            else state.locks }, handler)
  | .starting workflow =>
      -- a second execution with the id is rejected
      if handler.event ∈ state.executions then (state, handler)
      else
        ({ state with
            executions := handler.event :: state.executions
            log := .dispatched (handler.event, workflow) :: state.log }, handler)
  | .committing _ | .finishing =>
      ({ state with log := handler.writes ++ state.log },
        { handler with writes := [], closed := [] })
  | .closing item =>
      ({ state with done := (handler.event, item.workflow) :: state.done },
        if .disabled (handler.event, item.workflow) ∈ handler.writes then
          { handler with closed := item.workflow :: handler.closed }
        else handler)
  | .unlocking item _ =>
      ({ state with
          locks := Function.update state.locks (handler.event, item.workflow) none
          log := .deleted consumer (handler.event, item.workflow)
            (state.holder (handler.event, item.workflow)) :: state.log }, handler)
  | .acking =>
      ({ state with
          pending := state.pending.erase handler.message
          log := .acked handler.event handler.matched :: state.log }, handler)
  | _ => (state, handler)

/-- The consumer goes on with the message. -/
def resume (consumer : ConsumerId) (batch : List MessageId) (handler : Handler) :
    DeliveryState :=
  state.put consumer { batch := batch, handler := some handler }

def finish (consumer : ConsumerId) (batch : List MessageId) : DeliveryState :=
  state.put consumer (state.take batch)

/-- The consumer is gone; one that is started in its place is idle. -/
def stop (consumer : ConsumerId) : DeliveryState :=
  state.put consumer {}

/-- The operation has returned.  `acquired` says that it has set the lock key. -/
def advance (consumer : ConsumerId) (batch : List MessageId) (handler : Handler)
    (acquired : Bool) (db : Database) : DeliveryState :=
  match handler.await with
  | .loading =>
      if !db.hasCase || db.workflowOriginated then
        state.resume consumer batch { handler with await := .acking }
      else
        match (published handler.event).explicit with
        | some explicit =>
            state.resume consumer batch
              { handler with
                caseTagRefs := db.tags
                matched := [explicit.workflowId]
                await := .checking ⟨explicit.workflowId, true⟩ }
        | none =>
            state.resume consumer batch { handler with caseTagRefs := db.tags, await := .listing }
  | .checking item =>
      if (handler.event, item.workflow) ∈ state.done then
        state.resume consumer batch (handler.after item)
      else state.resume consumer batch { handler with await := .locking item }
  | .locking item =>
      if acquired then state.resume consumer batch { handler with await := .dispatching item }
      else state.resume consumer batch ({ handler with shouldAck := false }.after item)
  | .dispatching ⟨workflow, true⟩ =>
      let definition := (db.definition workflow).filter (·.hasContent)
      if ((published handler.event).explicit.all fun explicit => !explicit.hasExecId) ||
          definition.isNone then
        state.resume consumer batch { handler with await := .recording workflow true }
      else if definition.all (·.isValid) then
        state.resume consumer batch { handler with await := .starting workflow }
      else
        state.resume consumer batch { handler with await := .unlocking ⟨workflow, true⟩ .raised }
  | .dispatching ⟨workflow, false⟩ =>
      if db.dispatchable workflow then
        { state with log := .dispatched (handler.event, workflow) :: state.log }.resume
          consumer batch { handler with await := .closing ⟨workflow, false⟩ }
      else
        state.resume consumer batch
          { handler with
            writes := .disabled (handler.event, workflow) :: handler.writes
            await := .closing ⟨workflow, false⟩ }
  | .starting workflow =>
      state.resume consumer batch { handler with await := .recording workflow false }
  | .recording workflow failed =>
      state.resume consumer batch
        { handler with
          writes :=
            if failed then .failed (handler.event, workflow) :: handler.writes
            else handler.writes
          await := .committing workflow }
  | .committing workflow =>
      state.resume consumer batch { handler with await := .closing ⟨workflow, true⟩ }
  | .closing item =>
      state.resume consumer batch { handler with await := .unlocking item .returned }
  | .unlocking item .returned => state.resume consumer batch (handler.after item)
  | .unlocking _ .raised => state.finish consumer batch
  | .unlocking _ .cancelled => state.stop consumer
  | .listing =>
      if db.entitled then
        let triggers := matchingTriggers db (published handler.event) handler.caseTagRefs
        state.resume consumer batch
          { handler with matched := handler.matched ++ triggers, todo := triggers }.nextTrigger
      else state.resume consumer batch { handler with await := .finishing }
  | .finishing =>
      if handler.shouldAck then
        state.resume consumer batch { handler with await := .acking }
      else state.finish consumer batch
  | .acking => state.finish consumer batch

def raise (consumer : ConsumerId) (batch : List MessageId) (handler : Handler) :
    DeliveryState :=
  match handler.await with
  | .dispatching ⟨workflow, false⟩ | .closing ⟨workflow, false⟩ =>
      state.resume consumer batch
        { handler with shouldAck := false, await := .unlocking ⟨workflow, false⟩ .returned }
  | .starting workflow =>
      state.resume consumer batch { handler with await := .recording workflow true }
  | .dispatching ⟨workflow, true⟩ | .closing ⟨workflow, true⟩ | .recording workflow _
  | .committing workflow =>
      state.resume consumer batch { handler with await := .unlocking ⟨workflow, true⟩ .raised }
  | .acking => state.stop consumer
  | _ => state.finish consumer batch

/-- `CancelledError` is raised at the await. -/
def cancel (consumer : ConsumerId) (batch : List MessageId) (handler : Handler) :
    DeliveryState :=
  match handler.await with
  | .dispatching item | .closing item =>
      state.resume consumer batch { handler with await := .unlocking item .cancelled }
  | .starting workflow | .recording workflow _ | .committing workflow =>
      state.resume consumer batch { handler with await := .unlocking ⟨workflow, true⟩ .cancelled }
  | _ => state.stop consumer

/-- The operation sets the lock key. -/
def acquires (handler : Handler) : Bool :=
  match handler.await with
  | .locking item => (state.locks (handler.event, item.workflow)).isNone
  | _ => false

def proceed (consumer : ConsumerId) (batch : List MessageId) (handler : Handler) :
    Outcome → DeliveryState
  | .returns db =>
      let (next, updated) := state.effect consumer handler
      next.advance published consumer batch updated (state.acquires handler) db
  | .lost =>
      let (next, updated) := state.effect consumer handler
      next.resume consumer batch updated
  | .raises => state.raise consumer batch handler
  | .cancels => state.cancel consumer batch handler
  | .stops => state.stop consumer

/-! ## Runs -/

def step : DeliveryEvent → Option DeliveryState
  | .publish message => some { state with stream := state.stream ++ [message] }
  | .read consumer count =>
      if state.consumers[consumer]? = some {} then
        let batch := List.range' state.delivered (min count (state.stream.length - state.delivered))
        some
          ({ state with
              delivered := state.delivered + batch.length
              pending := state.pending ++ batch }.put consumer (state.take batch))
      else none
  | .claim consumer messages =>
      if state.consumers[consumer]? = some {} then
        some (state.put consumer
          (state.take (messages.filter (state.pending.contains ·))))
      else none
  | .proceed consumer outcome =>
      state.consumers[consumer]?.bind fun current =>
        current.handler.map fun handler =>
          state.proceed published consumer current.batch handler outcome
  | .lockExpires key => some { state with locks := Function.update state.locks key none }
  | .doneExpires key => some { state with done := state.done.filter (· ≠ key) }

def started (count : Nat) : DeliveryState where
  consumers := List.replicate count {}

end DeliveryState

end CaseTriggers
end Tracecat
