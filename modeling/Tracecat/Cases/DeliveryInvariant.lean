import Mathlib.Data.List.Count
import Tracecat.Cases.TriggerConsumer

/-!
# Invariant of case-event delivery

What is true of every consumer that handles a message, and of the keys and the
log.  A step is the effect of an operation and then a new await of one consumer;
the first is covered operation by operation, the second by one lemma.
-/

namespace Tracecat
namespace CaseTriggers

/-- A dispatch was made, was recorded as failed, or the trigger was disabled. -/
def Settled (log : List Entry) (key : Key) : Prop :=
  .dispatched key ∈ log ∨ .failed key ∈ log ∨ .disabled key ∈ log

theorem Settled.mono {log later : List Entry} {key : Key} (hSettled : Settled log key)
    (hLog : ∀ entry ∈ log, entry ∈ later) : Settled later key := by
  rcases hSettled with hMem | hMem | hMem
  · exact Or.inl (hLog _ hMem)
  · exact Or.inr (Or.inl (hLog _ hMem))
  · exact Or.inr (Or.inr (hLog _ hMem))

/-- A message was acked only with all of its workflows settled before. -/
def AcksSettled : List Entry → Prop
  | [] => True
  | .acked event workflows :: log =>
      (∀ workflow ∈ workflows, Settled log (event, workflow)) ∧ AcksSettled log
  | _ :: log => AcksSettled log

theorem AcksSettled.append {log : List Entry} (hLog : AcksSettled log) (later : List Entry)
    (hLater : ∀ event workflows, .acked event workflows ∉ later) : AcksSettled (later ++ log) := by
  induction later with
  | nil => exact hLog
  | cons entry later ih =>
      have hRest := ih fun event workflows hMem =>
        hLater event workflows (List.mem_cons_of_mem _ hMem)
      cases entry with
      | acked event workflows => exact absurd List.mem_cons_self (hLater event workflows)
      | dispatched key => exact hRest
      | failed key => exact hRest
      | disabled key => exact hRest
      | deleted consumer key holder => exact hRest

theorem AcksSettled.split {later earlier : List Entry} {event : EventId}
    {workflows : List WorkflowId}
    (hLog : AcksSettled (later ++ .acked event workflows :: earlier)) :
    ∀ workflow ∈ workflows, Settled earlier (event, workflow) := by
  induction later with
  | nil => exact hLog.1
  | cons entry later ih =>
      cases entry with
      | acked other others => exact ih hLog.2
      | dispatched key => exact ih hLog
      | failed key => exact ih hLog
      | disabled key => exact ih hLog
      | deleted consumer key holder => exact ih hLog

/-! ## A consumer that handles a message -/

def Await.item? : Await → Option Item
  | checking item | locking item | dispatching item | closing item | unlocking item _ => some item
  | starting workflow | recording workflow _ | committing workflow => some ⟨workflow, true⟩
  | _ => none

/-- The workflow that the event asks for by its id. -/
def Published.explicitId (published : Published) : Option WorkflowId :=
  published.explicit.map (·.workflowId)

/-- The event asks for the workflow of the item in the way of the item. -/
def Item.Fits (published : Published) (item : Item) : Prop :=
  item.explicit = true ↔ published.explicitId = some item.workflow

/-- What holds at the await of the consumer. -/
def Handler.AwaitSound (published : Published) (done : List Key) (log : List Entry)
    (handler : Handler) : Prop :=
  match handler.await with
  | .loading =>
      handler.matched = [] ∧ handler.shouldAck = true ∧ handler.todo = [] ∧ handler.closed = []
  | .checking item | .locking item =>
      item.Fits published ∧ (item.explicit = true → handler.todo = [] ∧ handler.closed = [])
  | .dispatching item =>
      item.Fits published ∧ (item.explicit = true → handler.todo = [] ∧ handler.closed = []) ∧
        (item.explicit = false → (handler.event, item.workflow) ∉ done)
  | .starting workflow => published.explicitId = some workflow ∧ handler.todo = []
  | .recording workflow failed =>
      published.explicitId = some workflow ∧ handler.todo = [] ∧
        (failed = false → Settled log (handler.event, workflow))
  | .committing workflow =>
      published.explicitId = some workflow ∧ handler.todo = [] ∧
        (Settled log (handler.event, workflow) ∨
          .failed (handler.event, workflow) ∈ handler.writes)
  | .closing item =>
      item.Fits published ∧ (item.explicit = true → handler.todo = []) ∧
        (Settled log (handler.event, item.workflow) ∨
          .disabled (handler.event, item.workflow) ∈ handler.writes)
  | .unlocking item exit =>
      item.Fits published ∧ (item.explicit = true → handler.todo = []) ∧
        (exit = .returned → handler.shouldAck = true → (handler.event, item.workflow) ∈ done) ∧
        (exit ≠ .returned → handler.closed = [])
  | .listing | .finishing => handler.todo = []
  | .acking => handler.todo = [] ∧ handler.closed = [] ∧ handler.shouldAck = true

/-- What is true of every consumer that handles a message. -/
structure Handler.Sound (published : Published) (done : List Key) (log : List Entry)
    (handler : Handler) : Prop where
  /-- the loop does not come to the explicit workflow -/
  todo : ∀ workflow ∈ handler.todo, published.explicitId ≠ some workflow
  writes : ∀ entry ∈ handler.writes, ∃ key, entry = .failed key ∨ entry = .disabled key
  closed : ∀ workflow ∈ handler.closed, .disabled (handler.event, workflow) ∈ handler.writes
  /-- a workflow that is left behind is done -/
  progress : handler.shouldAck = true → ∀ workflow ∈ handler.matched,
    (handler.event, workflow) ∈ done ∨ workflow ∈ handler.todo ∨
      handler.await.item?.map (·.workflow) = some workflow
  await : handler.AwaitSound published done log

namespace Handler

variable {published : Published} {done later : List Key} {log log' : List Entry}
  {handler : Handler}

/-- A trigger's workflow is dispatched while its done key is not there. -/
theorem Sound.fresh (hSound : handler.Sound published done log) {item : Item}
    (hAwait : handler.await = .dispatching item) (hTrigger : item.explicit = false) :
    (handler.event, item.workflow) ∉ done := by
  have hFacts := hSound.await
  unfold AwaitSound at hFacts
  rw [hAwait] at hFacts
  exact hFacts.2.2 hTrigger

/-- More done keys and a longer log harm no consumer that is not about to
dispatch one of the new keys. -/
theorem Sound.mono (hSound : handler.Sound published done log)
    (hDone : ∀ key ∈ done, key ∈ later) (hLog : ∀ entry ∈ log, entry ∈ log')
    (hFresh : ∀ item, handler.await = .dispatching item → item.explicit = false →
      (handler.event, item.workflow) ∉ later) :
    handler.Sound published later log' where
  todo := hSound.todo
  writes := hSound.writes
  closed := hSound.closed
  progress hAck workflow hMem := by
    rcases hSound.progress hAck workflow hMem with hOld | hOld
    · exact Or.inl (hDone _ hOld)
    · exact Or.inr hOld
  await := by
    have hAwait := hSound.await
    unfold AwaitSound at hAwait ⊢
    cases hCase : handler.await with
    | loading => rwa [hCase] at hAwait
    | checking item => rwa [hCase] at hAwait
    | locking item => rwa [hCase] at hAwait
    | dispatching item =>
        rw [hCase] at hAwait
        exact ⟨hAwait.1, hAwait.2.1, hFresh item hCase⟩
    | starting workflow => rwa [hCase] at hAwait
    | recording workflow failed =>
        rw [hCase] at hAwait
        exact ⟨hAwait.1, hAwait.2.1, fun hFailed => (hAwait.2.2 hFailed).mono hLog⟩
    | committing workflow =>
        rw [hCase] at hAwait
        exact ⟨hAwait.1, hAwait.2.1, hAwait.2.2.imp_left (·.mono hLog)⟩
    | closing item =>
        rw [hCase] at hAwait
        exact ⟨hAwait.1, hAwait.2.1, hAwait.2.2.imp_left (·.mono hLog)⟩
    | unlocking item exit =>
        rw [hCase] at hAwait
        exact ⟨hAwait.1, hAwait.2.1, fun hExit hAck => hDone _ (hAwait.2.2.1 hExit hAck),
          hAwait.2.2.2⟩
    | listing => rwa [hCase] at hAwait
    | finishing => rwa [hCase] at hAwait
    | acking => rwa [hCase] at hAwait

/-- Only the await changes, and no item is left behind that is not done. -/
theorem Sound.to (hSound : handler.Sound published done log) (await : Await)
    (hItem : ∀ workflow, handler.await.item?.map (·.workflow) = some workflow →
      await.item?.map (·.workflow) = some workflow ∨ (handler.event, workflow) ∈ done)
    (hAwait : { handler with await := await }.AwaitSound published done log) :
    { handler with await := await }.Sound published done log where
  todo := hSound.todo
  writes := hSound.writes
  closed := hSound.closed
  progress hAck workflow hMem := by
    rcases hSound.progress hAck workflow hMem with hDone | hLater | hCurrent
    · exact Or.inl hDone
    · exact Or.inr (Or.inl hLater)
    · rcases hItem workflow hCurrent with hSame | hDone
      · exact Or.inr (Or.inr hSame)
      · exact Or.inl hDone
  await := hAwait

/-- The loop comes to the next trigger with everything before it done. -/
theorem sound_nextTrigger
    (hTodo : ∀ workflow ∈ handler.todo, published.explicitId ≠ some workflow)
    (hWrites : ∀ entry ∈ handler.writes, ∃ key, entry = .failed key ∨ entry = .disabled key)
    (hClosed : ∀ workflow ∈ handler.closed, .disabled (handler.event, workflow) ∈ handler.writes)
    (hProgress : handler.shouldAck = true → ∀ workflow ∈ handler.matched,
      (handler.event, workflow) ∈ done ∨ workflow ∈ handler.todo) :
    handler.nextTrigger.Sound published done log := by
  unfold nextTrigger
  split
  next hNone =>
    exact
      { todo := hTodo
        writes := hWrites
        closed := hClosed
        progress := fun hAck workflow hMem => (hProgress hAck workflow hMem).imp_right Or.inl
        await := hNone }
  next workflow todo hSome =>
    refine
      { todo := fun other hOther => hTodo other (hSome ▸ List.mem_cons_of_mem _ hOther)
        writes := hWrites
        closed := hClosed
        progress := fun hAck other hMem => ?_
        await := ⟨?_, Bool.noConfusion⟩ }
    · rcases hProgress hAck other hMem with hOld | hOld
      · exact Or.inl hOld
      · rw [hSome] at hOld
        rcases List.mem_cons.mp hOld with rfl | hLater
        · exact Or.inr (Or.inr rfl)
        · exact Or.inr (Or.inl hLater)
    · exact ⟨Bool.noConfusion, fun hExplicit =>
        absurd hExplicit (hTodo workflow (hSome ▸ List.mem_cons_self))⟩

/-- What follows an item that is done, or that leaves the message unacked. -/
theorem Sound.after (hSound : handler.Sound published done log) {item : Item}
    (hItem : handler.await.item? = some item) (hTodo : item.explicit = true → handler.todo = [])
    {shouldAck : Bool} (hAck : shouldAck = true → handler.shouldAck = true ∧
      (handler.event, item.workflow) ∈ done) :
    ({ handler with shouldAck := shouldAck }.after item).Sound published done log := by
  have hProgress : shouldAck = true → ∀ workflow ∈ handler.matched,
      (handler.event, workflow) ∈ done ∨ workflow ∈ handler.todo := by
    intro hTrue workflow hMem
    obtain ⟨hOld, hDone⟩ := hAck hTrue
    rcases hSound.progress hOld workflow hMem with hKey | hLater | hCurrent
    · exact Or.inl hKey
    · exact Or.inr hLater
    · rw [hItem] at hCurrent
      exact Or.inl (Option.some.inj hCurrent ▸ hDone)
  unfold Handler.after
  split
  next hExplicit =>
    exact
      { todo := hSound.todo
        writes := hSound.writes
        closed := hSound.closed
        progress := fun hTrue workflow hMem => (hProgress hTrue workflow hMem).imp_right Or.inl
        await := hTodo hExplicit }
  next => exact sound_nextTrigger hSound.todo hSound.writes hSound.closed hProgress

end Handler

/-! ## The state -/

namespace DeliveryState

variable (published : EventId → Published) (state : DeliveryState)

def handler? (consumer : ConsumerId) : Option Handler :=
  (state.consumers[consumer]?).bind (·.handler)

structure Sound : Prop where
  handlers : ∀ consumer handler, state.handler? consumer = some handler →
    handler.Sound (published handler.event) state.done state.log
  /-- a lock is held by one consumer at most -/
  unique : ∀ consumer other handler another key, state.handler? consumer = some handler →
    state.handler? other = some another → handler.holds key = true → another.holds key = true →
    consumer = other
  done : ∀ key ∈ state.done, Settled state.log key ∨
    ∃ consumer handler, state.handler? consumer = some handler ∧ handler.event = key.1 ∧
      key.2 ∈ handler.closed
  /-- between the dispatch of a trigger's workflow and its done key the consumer
  is about to write the key -/
  closing : ∀ key, (published key.1).explicitId ≠ some key.2 → .dispatched key ∈ state.log →
    key ∈ state.done ∨ ∃ consumer handler, state.handler? consumer = some handler ∧
      handler.event = key.1 ∧ handler.await = .closing ⟨key.2, false⟩
  /-- an explicit workflow is dispatched with the execution id of its event -/
  executed : ∀ key, (published key.1).explicitId = some key.2 →
    (.dispatched key ∈ state.log ↔ key.1 ∈ state.executions)
  once : ∀ key, state.log.count (.dispatched key) ≤ 1
  deleted : ∀ consumer key holder, .deleted consumer key holder ∈ state.log →
    holder = none ∨ holder = some consumer
  acked : AcksSettled state.log

variable {published state} {consumer other : ConsumerId} {handler updated : Handler}
  {next : Consumer}

theorem handler?_lt (hHandler : state.handler? consumer = some handler) :
    consumer < state.consumers.length := by
  obtain ⟨current, hCurrent, -⟩ := Option.bind_eq_some_iff.mp hHandler
  exact (List.getElem?_eq_some_iff.mp hCurrent).1

theorem handler?_put (hConsumer : consumer < state.consumers.length) :
    (state.put consumer next).handler? other =
      if other = consumer then next.handler else state.handler? other := by
  unfold handler? put
  by_cases hOther : other = consumer
  · subst hOther
    simp [hConsumer]
  · simp [hOther, List.getElem?_set_ne (Ne.symm hOther)]

@[simp] theorem put_put (first second : Consumer) :
    (state.put consumer first).put consumer second = state.put consumer second := by
  simp [put]

/-- A consumer goes on to another await, to another message, or stops. -/
theorem Sound.replace (hSound : state.Sound published)
    (hHandler : state.handler? consumer = some handler)
    (hNext : ∀ updated, next.handler = some updated →
      updated.Sound (published updated.event) state.done state.log)
    (hHolds : ∀ updated key, next.handler = some updated → updated.holds key = true →
      handler.holds key = true ∨ ∀ other another, other ≠ consumer →
        state.handler? other = some another → another.holds key = false)
    (hClosed : ∀ workflow ∈ handler.closed, Settled state.log (handler.event, workflow) ∨
      ∃ updated, next.handler = some updated ∧ updated.event = handler.event ∧
        workflow ∈ updated.closed)
    (hClosing : ∀ workflow, handler.await = .closing ⟨workflow, false⟩ →
      (published handler.event).explicitId ≠ some workflow →
      .dispatched (handler.event, workflow) ∈ state.log →
      (handler.event, workflow) ∈ state.done ∨ ∃ updated, next.handler = some updated ∧
        updated.event = handler.event ∧ updated.await = handler.await) :
    (state.put consumer next).Sound published := by
  have hLt := handler?_lt hHandler
  have hOne : ∀ other updated another key, other ≠ consumer → next.handler = some updated →
      state.handler? other = some another → updated.holds key = true →
      another.holds key = true → False := by
    intro other updated another key hOther hUpdated hAnother hFirst hSecond
    rcases hHolds updated key hUpdated hFirst with hOld | hNone
    · exact hOther (hSound.unique _ _ _ _ key hAnother hHandler hSecond hOld)
    · exact Bool.noConfusion ((hNone other another hOther hAnother).symm.trans hSecond)
  refine
    { hSound with
      handlers := fun other another hAnother => ?_
      unique := fun first second one two key hOne' hTwo hFirst hSecond => ?_
      done := fun key hKey => ?_
      closing := fun key hTrigger hLog => ?_ }
  · rw [handler?_put hLt] at hAnother
    split at hAnother
    · exact hNext another hAnother
    · exact hSound.handlers other another hAnother
  · rw [handler?_put hLt] at hOne' hTwo
    split at hOne' <;> split at hTwo
    next hEq hEq' => exact hEq.trans hEq'.symm
    next hEq hNe => exact absurd (hOne second one two key hNe hOne' hTwo hFirst hSecond) id
    next hNe hEq => exact absurd (hOne first two one key hNe hTwo hOne' hSecond hFirst) id
    next hNe hNe' => exact hSound.unique first second one two key hOne' hTwo hFirst hSecond
  · rcases hSound.done key hKey with hSettled | ⟨other, another, hAnother, hEvent, hMem⟩
    · exact Or.inl hSettled
    by_cases hOther : other = consumer
    · subst hOther
      rw [hHandler] at hAnother
      cases hAnother
      rcases hClosed key.2 hMem with hSettled | ⟨updated, hUpdated, hSame, hKept⟩
      · rw [hEvent] at hSettled
        exact Or.inl hSettled
      · refine Or.inr ⟨other, updated, ?_, hSame.trans hEvent, hKept⟩
        rw [handler?_put hLt, if_pos rfl, hUpdated]
    · refine Or.inr ⟨other, another, ?_, hEvent, hMem⟩
      rw [handler?_put hLt, if_neg hOther, hAnother]
  · rcases hSound.closing key hTrigger hLog with hDone | ⟨other, another, hAnother, hEvent, hAwait⟩
    · exact Or.inl hDone
    · by_cases hOther : other = consumer
      · subst hOther
        rw [hHandler] at hAnother
        cases hAnother
        obtain ⟨event, workflow⟩ := key
        cases hEvent
        refine (hClosing workflow hAwait hTrigger hLog).imp_right ?_
        rintro ⟨updated, hUpdated, hSame, hStays⟩
        refine ⟨other, updated, ?_, hSame, hStays.trans hAwait⟩
        rw [handler?_put hLt, if_pos rfl, hUpdated]
      · refine Or.inr ⟨other, another, ?_, hEvent, hAwait⟩
        rw [handler?_put hLt, if_neg hOther, hAnother]

theorem Sound.keep (hSound : state.Sound published)
    (hHandler : state.handler? consumer = some handler) (batch : List MessageId)
    (hEvent : updated.event = handler.event) (hAwait : updated.await = handler.await)
    (hUpdated : updated.Sound (published handler.event) state.done state.log)
    (hClosed : ∀ workflow ∈ handler.closed, Settled state.log (handler.event, workflow) ∨
      workflow ∈ updated.closed) :
    (state.resume consumer batch updated).Sound published := by
  refine hSound.replace hHandler (fun other hOther => ?_) (fun other key hOther hHolds => ?_)
    (fun workflow hMem => ?_) fun workflow _ _ _ => Or.inr ⟨updated, rfl, hEvent, hAwait⟩
  · cases hOther
    exact hEvent ▸ hUpdated
  · cases hOther
    unfold Handler.holds at hHolds ⊢
    rw [hEvent, hAwait] at hHolds
    exact Or.inl hHolds
  · exact (hClosed workflow hMem).imp_right fun hKept => ⟨updated, rfl, hEvent, hKept⟩

theorem Sound.go (hSound : state.Sound published)
    (hHandler : state.handler? consumer = some handler) (batch : List MessageId)
    (hEvent : updated.event = handler.event) (hClosed : updated.closed = handler.closed)
    (hLock : ∀ workflow, updated.await.lock? = some workflow →
      handler.await.lock? = some workflow)
    (hUpdated : updated.Sound (published handler.event) state.done state.log)
    (hClosing : ∀ workflow, handler.await = .closing ⟨workflow, false⟩ →
      .dispatched (handler.event, workflow) ∈ state.log →
        (handler.event, workflow) ∈ state.done) :
    (state.resume consumer batch updated).Sound published := by
  refine hSound.replace hHandler (fun other hOther => ?_) (fun other key hOther hHolds => ?_)
    (fun workflow hMem => Or.inr ⟨updated, rfl, hEvent, hClosed ▸ hMem⟩)
    fun workflow hAwait _ hLog => Or.inl (hClosing workflow hAwait hLog)
  · cases hOther
    exact hEvent ▸ hUpdated
  · cases hOther
    simp only [Handler.holds, hEvent, Bool.and_eq_true, decide_eq_true_eq] at hHolds ⊢
    exact Or.inl ⟨hHolds.1, hLock key.2 hHolds.2⟩

theorem sound_handle (message : MessageId) (published : Published) (done : List Key)
    (log : List Entry) : (state.handle message).Sound published done log := by
  unfold handle
  split <;> exact
    { todo := fun _ hMem => absurd hMem List.not_mem_nil
      writes := fun _ hMem => absurd hMem List.not_mem_nil
      closed := fun _ hMem => absurd hMem List.not_mem_nil
      progress := fun _ _ hMem => absurd hMem List.not_mem_nil
      await := by simp [Handler.AwaitSound] }

variable (hSound : state.Sound published)
include hSound

theorem Sound.leave (hHandler : state.handler? consumer = some handler)
    (hNext : next = {} ∨ ∃ batch, next = state.take batch) (hClosed : handler.closed = [])
    (hClosing : ∀ workflow, handler.await = .closing ⟨workflow, false⟩ →
      .dispatched (handler.event, workflow) ∈ state.log →
      (handler.event, workflow) ∈ state.done) :
    (state.put consumer next).Sound published := by
  have hStart : ∀ updated, next.handler = some updated →
      ∃ message, updated = state.handle message := by
    intro updated hUpdated
    rcases hNext with rfl | ⟨batch, rfl⟩
    · cases hUpdated
    · cases batch with
      | nil => cases hUpdated
      | cons message batch =>
          cases hUpdated
          exact ⟨message, rfl⟩
  refine hSound.replace hHandler (fun updated hUpdated => ?_)
    (fun updated key hUpdated hHolds => ?_) (fun workflow hMem => ?_)
    fun workflow hAwait _ hLog => Or.inl (hClosing workflow hAwait hLog)
  · obtain ⟨message, rfl⟩ := hStart updated hUpdated
    exact sound_handle message _ _ _
  · obtain ⟨message, rfl⟩ := hStart updated hUpdated
    have hNone : (state.handle message).await.lock? = none := by
      unfold handle
      split <;> rfl
    simp [Handler.holds, hNone] at hHolds
  · rw [hClosed] at hMem
    cases hMem

/-! ## Effects -/

/-- A done key is written by the consumer that has the key settled, or disabled
in its transaction. -/
theorem Sound.close (hHandler : state.handler? consumer = some handler) {item : Item}
    (hAwait : handler.await = .closing item)
    (hKey : Settled state.log (handler.event, item.workflow) ∨ item.workflow ∈ handler.closed) :
    ({ state with done := (handler.event, item.workflow) :: state.done } :
      DeliveryState).Sound published where
  handlers other another hAnother := by
    change state.handler? other = some another at hAnother
    refine (hSound.handlers other another hAnother).mono
      (fun key hOld => List.mem_cons_of_mem _ hOld) (fun entry hEntry => hEntry)
      fun target hTarget hTrigger hMem => ?_
    rcases List.mem_cons.mp hMem with hSame | hOld
    · -- a consumer that dispatches the key would hold its lock too
      obtain ⟨hEvent, hWorkflow⟩ := Prod.mk.inj hSame
      have hOther := hSound.unique other consumer another handler
        (handler.event, item.workflow) hAnother hHandler
        (by simp [Handler.holds, hTarget, Await.lock?, hEvent, hWorkflow])
        (by simp [Handler.holds, hAwait, Await.lock?])
      subst hOther
      rw [hHandler] at hAnother
      cases hAnother
      rw [hAwait] at hTarget
      cases hTarget
    · exact (hSound.handlers other another hAnother).fresh hTarget hTrigger hOld
  unique := hSound.unique
  done key hMem := by
    rcases List.mem_cons.mp hMem with rfl | hOld
    · exact hKey.imp_right fun hClosed => ⟨consumer, handler, hHandler, rfl, hClosed⟩
    · exact hSound.done key hOld
  closing key hTrigger hLog := (hSound.closing key hTrigger hLog).imp_left (List.mem_cons_of_mem _)
  executed := hSound.executed
  once := hSound.once
  deleted := hSound.deleted
  acked := hSound.acked

theorem Sound.record (entries : List Entry) (hDispatched : ∀ key, .dispatched key ∉ entries)
    (hDeleted : ∀ consumer key holder, .deleted consumer key holder ∈ entries →
      holder = none ∨ holder = some consumer) (hAcked : AcksSettled (entries ++ state.log)) :
    ({ state with log := entries ++ state.log } : DeliveryState).Sound published := by
  have hOld (key : Key) : .dispatched key ∈ entries ++ state.log ↔ .dispatched key ∈ state.log := by
    rw [List.mem_append, or_iff_right (hDispatched key)]
  exact
    { handlers := fun other another hAnother =>
        (hSound.handlers other another hAnother).mono (fun _ hKey => hKey)
          (fun entry hEntry => List.mem_append_right entries hEntry)
          fun _ hAwait hTrigger =>
            (hSound.handlers other another hAnother).fresh hAwait hTrigger
      unique := hSound.unique
      done := fun key hKey => (hSound.done key hKey).imp_left
        (·.mono fun entry hEntry => List.mem_append_right entries hEntry)
      closing := fun key hTrigger hLog => hSound.closing key hTrigger ((hOld key).mp hLog)
      executed := fun key hExplicit => (hOld key).trans (hSound.executed key hExplicit)
      once := fun key => by
        show List.count _ (entries ++ state.log) ≤ 1
        rw [List.count_append, List.count_eq_zero.mpr (hDispatched key), Nat.zero_add]
        exact hSound.once key
      deleted := fun other key holder hMem => by
        rcases List.mem_append.mp hMem with hNew | hBefore
        · exact hDeleted other key holder hNew
        · exact hSound.deleted other key holder hBefore
      acked := hAcked }

theorem Sound.start {event : EventId} {workflow : WorkflowId}
    (hExplicit : (published event).explicitId = some workflow) (hNew : event ∉ state.executions) :
    ({ state with
        executions := event :: state.executions
        log := .dispatched (event, workflow) :: state.log } : DeliveryState).Sound published where
  handlers other another hAnother :=
    (hSound.handlers other another hAnother).mono (fun _ hKey => hKey)
      (fun entry hEntry => List.mem_cons_of_mem _ hEntry)
      fun _ hAwait hTrigger => (hSound.handlers other another hAnother).fresh hAwait hTrigger
  unique := hSound.unique
  done key hKey := (hSound.done key hKey).imp_left
    (·.mono fun entry hEntry => List.mem_cons_of_mem _ hEntry)
  closing key hTrigger hLog := by
    rcases List.mem_cons.mp hLog with hSame | hOld
    · cases hSame
      exact absurd hExplicit hTrigger
    · exact hSound.closing key hTrigger hOld
  executed key hKey := by
    have hOld := hSound.executed key hKey
    show _ ∈ _ :: state.log ↔ _ ∈ _ :: state.executions
    rw [List.mem_cons, List.mem_cons, hOld]
    refine or_congr_left ⟨fun hSame => ?_, fun hSame => ?_⟩
    · exact congrArg Prod.fst (Entry.dispatched.inj hSame)
    · rw [hSame, hExplicit] at hKey
      exact congrArg Entry.dispatched (Prod.ext hSame (Option.some.inj hKey).symm)
  once key := by
    show List.count _ (_ :: state.log) ≤ 1
    rw [List.count_cons]
    split
    next hSame =>
      have hKey : (event, workflow) = key := by simpa using hSame
      have hNone : .dispatched key ∉ state.log := by
        rw [← hKey, hSound.executed (event, workflow) hExplicit]
        exact hNew
      rw [List.count_eq_zero.mpr hNone]
    next => exact hSound.once key
  deleted other key holder hMem := by
    rcases List.mem_cons.mp hMem with hSame | hOld
    · cases hSame
    · exact hSound.deleted other key holder hOld
  acked := hSound.acked

theorem Sound.dispatch (hHandler : state.handler? consumer = some handler) {workflow : WorkflowId}
    (hAwait : handler.await = .dispatching ⟨workflow, false⟩) (batch : List MessageId) :
    (({ state with log := .dispatched (handler.event, workflow) :: state.log } :
        DeliveryState).resume consumer batch
          { handler with await := .closing ⟨workflow, false⟩ }).Sound published := by
  have hLt := handler?_lt hHandler
  have hOld := hSound.handlers consumer handler hHandler
  have hFresh := hOld.fresh hAwait rfl
  have hFacts := hOld.await
  unfold Handler.AwaitSound at hFacts
  rw [hAwait] at hFacts
  have hFits := hFacts.1
  have hTrigger : (published handler.event).explicitId ≠ some workflow := fun hExplicit =>
    Bool.noConfusion (hFits.mpr hExplicit)
  have hHolds : handler.holds (handler.event, workflow) = true := by
    simp [Handler.holds, hAwait, Await.lock?]
  -- an earlier dispatch left a done key, or a consumer with the same lock
  have hFirst : .dispatched (handler.event, workflow) ∉ state.log := by
    intro hLog
    rcases hSound.closing _ hTrigger hLog with hDone | ⟨other, another, hAnother, hEvent, hCloses⟩
    · exact hFresh hDone
    · have hOther := hSound.unique other consumer another handler (handler.event, workflow)
        hAnother hHandler (by simp [Handler.holds, hCloses, Await.lock?, hEvent]) hHolds
      subst hOther
      rw [hHandler] at hAnother
      cases hAnother
      rw [hAwait] at hCloses
      cases hCloses
  let logged : DeliveryState :=
    { state with log := .dispatched (handler.event, workflow) :: state.log }
  let updated : Handler := { handler with await := .closing ⟨workflow, false⟩ }
  have hThere : consumer < logged.consumers.length := hLt
  have hPut (other : ConsumerId) : (logged.resume consumer batch updated).handler? other =
      if other = consumer then some updated else state.handler? other :=
    handler?_put hThere
  have hBefore {other : ConsumerId} {another : Handler}
      (hAnother : (logged.resume consumer batch updated).handler? other = some another) :
      ∃ earlier, state.handler? other = some earlier ∧ another.event = earlier.event ∧
        another.await.lock? = earlier.await.lock? ∧ (other = consumer → another = updated) ∧
        (other ≠ consumer → another = earlier) := by
    rw [hPut] at hAnother
    split at hAnother
    next hSame =>
      cases hAnother
      exact ⟨handler, hSame ▸ hHandler, rfl, by simp [updated, hAwait, Await.lock?],
        fun _ => rfl, fun hNe => absurd hSame hNe⟩
    next hNe => exact ⟨another, hAnother, rfl, rfl, fun hSame => absurd hSame hNe, fun _ => rfl⟩
  refine
    { handlers := fun other another hAnother => ?_
      unique := fun first second one two key hOne hTwo hFirstHolds hSecondHolds => ?_
      done := fun key hKey => ?_
      closing := fun key hKey hLog => ?_
      executed := fun key hKey => ?_
      once := fun key => ?_
      deleted := fun other key holder hMem => ?_
      acked := hSound.acked }
  · rw [hPut] at hAnother
    split at hAnother
    next =>
      cases hAnother
      exact
        { todo := hOld.todo
          writes := hOld.writes
          closed := hOld.closed
          progress := fun hAck other hMem => by
            have hPlace := hOld.progress hAck other hMem
            rw [hAwait] at hPlace
            exact hPlace
          await := ⟨hFits, Bool.noConfusion, Or.inl (Or.inl List.mem_cons_self)⟩ }
    next =>
      exact (hSound.handlers other another hAnother).mono (fun _ hKey => hKey)
        (fun entry hEntry => List.mem_cons_of_mem _ hEntry)
        fun _ hItem hNot => (hSound.handlers other another hAnother).fresh hItem hNot
  · obtain ⟨one', hOne', hEvent, hLock, -⟩ := hBefore hOne
    obtain ⟨two', hTwo', hEvent', hLock', -⟩ := hBefore hTwo
    unfold Handler.holds at hFirstHolds hSecondHolds
    rw [hEvent, hLock] at hFirstHolds
    rw [hEvent', hLock'] at hSecondHolds
    exact hSound.unique first second one' two' key hOne' hTwo' hFirstHolds hSecondHolds
  · rcases hSound.done key hKey with hSettled | ⟨other, another, hAnother, hEvent, hMem⟩
    · exact Or.inl (hSettled.mono fun entry hEntry => List.mem_cons_of_mem _ hEntry)
    · refine Or.inr ⟨other, if other = consumer then updated else another, ?_, ?_, ?_⟩
      · rw [hPut]
        split
        · rfl
        · exact hAnother
      all_goals
        by_cases hSame : other = consumer
        · subst hSame
          rw [hHandler] at hAnother
          cases hAnother
          simpa using by assumption
        · simpa [hSame] using by assumption
  · by_cases hSame : key = (handler.event, workflow)
    · subst hSame
      exact Or.inr ⟨consumer, updated, by rw [hPut, if_pos rfl], rfl, rfl⟩
    · rcases List.mem_cons.mp hLog with hNew | hLater
      · exact absurd (Entry.dispatched.inj hNew) hSame
      · refine (hSound.closing key hKey hLater).imp_right ?_
        rintro ⟨other, another, hAnother, hEvent, hCloses⟩
        refine ⟨other, another, ?_, hEvent, hCloses⟩
        rw [hPut, if_neg, hAnother]
        intro hOther
        subst hOther
        rw [hHandler] at hAnother
        cases hAnother
        rw [hAwait] at hCloses
        cases hCloses
  · refine Iff.trans ?_ (hSound.executed key hKey)
    refine ⟨fun hLog => ?_, List.mem_cons_of_mem _⟩
    rcases List.mem_cons.mp hLog with hNew | hLater
    · cases hNew
      exact absurd hKey hTrigger
    · exact hLater
  · show List.count _ (_ :: state.log) ≤ 1
    rw [List.count_cons]
    split
    next hSame =>
      have hKey : (handler.event, workflow) = key := by simpa using hSame
      rw [← hKey, List.count_eq_zero.mpr hFirst]
    next => exact hSound.once key
  · rcases List.mem_cons.mp hMem with hNew | hLater
    · cases hNew
    · exact hSound.deleted other key holder hLater

end DeliveryState

end CaseTriggers
end Tracecat
