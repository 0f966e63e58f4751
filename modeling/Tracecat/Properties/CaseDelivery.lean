import Tracecat.Lib.Runs
import Tracecat.Cases.DeliveryInvariant

/-!
# Case-event delivery

Every workflow that an event asks for is dispatched at most once and settled
before its message is acked, as long as nobody takes a lock on a stale check or
from a consumer that still works under it, and no consumer is interrupted
between a dispatch or a disabled trigger and what makes it known.
-/

namespace Tracecat
namespace CaseTriggers

/-- The contract of the consumers. -/
structure DeliveryContract (state : DeliveryState) : Prop where
  once : ∀ key, state.log.count (.dispatched key) ≤ 1
  /-- a consumer deletes no lock that another one holds -/
  deleted : ∀ consumer key holder, .deleted consumer key holder ∈ state.log →
    holder = none ∨ holder = some consumer
  /-- the workflows of an acked message were settled before -/
  acked : ∀ later earlier event workflows,
    state.log = later ++ .acked event workflows :: earlier →
    ∀ workflow ∈ workflows, Settled earlier (event, workflow)

/-! ## Hazards -/

/-- The exception is caught, and the consumer goes on with the message. -/
def Handler.catches (handler : Handler) : Bool :=
  match handler.await with
  | .dispatching item | .closing item => !item.explicit
  | .starting _ => true
  | _ => false

namespace DeliveryState

variable (state : DeliveryState)

/-- What the other consumers handle. -/
def others (consumer : ConsumerId) : List Handler :=
  (state.consumers.eraseIdx consumer).filterMap (·.handler)

/-- The consumer takes the lock of a trigger whose done key was written since its
check, or a lock under which another consumer still works. -/
def takesOver (consumer : ConsumerId) (handler : Handler) : Bool :=
  match handler.await with
  | .locking item =>
      state.acquires handler &&
        (!item.explicit && state.done.contains (handler.event, item.workflow) ||
          (state.others consumer).any (·.holds (handler.event, item.workflow)))
  | _ => false

/-- The consumer acks on the strength of a trigger that another one has disabled
in a transaction that is still open. -/
def acksEarly (consumer : ConsumerId) (handler : Handler) : Bool :=
  handler.await = .acking && (state.others consumer).any fun other =>
    other.event = handler.event && other.closed.any (handler.matched.contains ·)

/-- The workflow of a trigger is dispatched, and its done key is not written. -/
def leavesOpen (handler : Handler) : Bool :=
  match handler.await with
  | .closing item =>
      !item.explicit && state.log.contains (.dispatched (handler.event, item.workflow)) &&
        !state.done.contains (handler.event, item.workflow)
  | _ => false

/-- The step breaks the contract, or sets a trap for a later one. -/
def hazardAt (consumer : ConsumerId) (handler : Handler) : Outcome → Bool
  | .returns _ => state.takesOver consumer handler || state.acksEarly consumer handler
  | .lost => state.acksEarly consumer handler
  | .raises => state.leavesOpen handler || !handler.catches && !handler.closed.isEmpty
  | .cancels | .stops => state.leavesOpen handler || !handler.closed.isEmpty

/-- A hazard: a step as above, or the expiry of a done key. -/
def hazard : DeliveryEvent → Bool
  | .proceed consumer outcome =>
      (state.handler? consumer).any fun handler => state.hazardAt consumer handler outcome
  | .doneExpires _ => true
  | _ => false

end DeliveryState

/-- A step that is no hazard. -/
def SafeDeliveryStep (published : EventId → Published) (state : DeliveryState)
    (event : DeliveryEvent) (next : DeliveryState) : Prop :=
  state.hazard event = false ∧ state.step published event = some next

namespace DeliveryState

variable {published : EventId → Published} {state : DeliveryState} {consumer : ConsumerId}
  {handler : Handler}

theorem mem_others {other : ConsumerId} {another : Handler}
    (hAnother : state.handler? other = some another) (hOther : other ≠ consumer) :
    another ∈ state.others consumer := by
  obtain ⟨current, hCurrent, hHandler⟩ := Option.bind_eq_some_iff.mp hAnother
  refine List.mem_filterMap.mpr ⟨current, ?_, hHandler⟩
  rw [List.mem_eraseIdx_iff_getElem?]
  exact ⟨other, hOther, hCurrent⟩

/-- Only the consumer itself can hold the lock that it deletes. -/
theorem Sound.holder (hSound : state.Sound published)
    (hHandler : state.handler? consumer = some handler) {key : Key}
    (hHolds : handler.holds key = true) :
    state.holder key = none ∨ state.holder key = some consumer := by
  cases hHolder : state.holder key with
  | none => exact Or.inl rfl
  | some owner =>
      right
      unfold DeliveryState.holder at hHolder
      obtain ⟨-, hOwner⟩ := Option.filter_eq_some_iff.mp hHolder
      obtain ⟨current, hCurrent, hAny⟩ := (Option.any_eq_true _ _).mp hOwner
      obtain ⟨another, hAnother, hAlso⟩ := (Option.any_eq_true _ _).mp hAny
      have hOther : state.handler? owner = some another := by
        unfold handler?
        rw [hCurrent, Option.bind_some, hAnother]
      exact congrArg some (hSound.unique owner consumer another handler key hOther hHandler hAlso
        hHolds)

/-! ## Effects -/

/-- What the effect of an operation has brought about. -/
def Performed (state : DeliveryState) (handler : Handler) : Prop :=
  match handler.await with
  | .starting _ => handler.event ∈ state.executions
  | .committing workflow => Settled state.log (handler.event, workflow)
  | .closing item => (handler.event, item.workflow) ∈ state.done
  | .finishing => handler.closed = []
  | _ => True

theorem effect_commit
    (hAwait : handler.await = .finishing ∨ ∃ workflow, handler.await = .committing workflow) :
    state.effect consumer handler = ({ state with log := handler.writes ++ state.log },
      { handler with writes := [], closed := [] }) := by
  cases handler
  rcases hAwait with hAwait | ⟨workflow, hAwait⟩ <;> cases hAwait <;> rfl

theorem Sound.commit (hSound : state.Sound published)
    (hHandler : state.handler? consumer = some handler) (batch : List MessageId)
    (hAwait : handler.await = .finishing ∨ ∃ workflow, handler.await = .committing workflow) :
    ((state.effect consumer handler).1.resume consumer batch
      (state.effect consumer handler).2).Sound published := by
  rw [effect_commit hAwait]
  have hOld := hSound.handlers consumer handler hHandler
  have hNone (entry : Entry) (hEntry : entry ∈ handler.writes)
      (hCase : ∀ key, entry ≠ .failed key ∧ entry ≠ .disabled key) : False := by
    obtain ⟨key, hFailed | hDisabled⟩ := hOld.writes entry hEntry
    · exact (hCase key).1 hFailed
    · exact (hCase key).2 hDisabled
  have hLogged := hSound.record handler.writes
    (fun key hMem => hNone _ hMem fun _ => ⟨nofun, nofun⟩)
    (fun other key holder hMem => (hNone _ hMem fun _ => ⟨nofun, nofun⟩).elim)
    (hSound.acked.append _ fun event workflows hMem => hNone _ hMem fun _ => ⟨nofun, nofun⟩)
  have hNow := hLogged.handlers consumer handler hHandler
  have hWritten {entry : Entry} (hMem : entry ∈ handler.writes) :
      entry ∈ handler.writes ++ state.log := List.mem_append_left _ hMem
  refine hLogged.keep hHandler batch rfl rfl
    { todo := hOld.todo
      writes := fun _ hMem => absurd hMem List.not_mem_nil
      closed := fun _ hMem => absurd hMem List.not_mem_nil
      progress := hNow.progress
      await := ?_ }
    fun workflow hMem => Or.inl (Or.inr (Or.inr (hWritten (hOld.closed workflow hMem))))
  have hFacts := hNow.await
  unfold Handler.AwaitSound at hFacts ⊢
  rcases hAwait with hAwait | ⟨workflow, hAwait⟩
  · rw [hAwait] at hFacts ⊢
    exact hFacts
  · rw [hAwait] at hFacts ⊢
    obtain ⟨hExplicit, hTodo, hSettled | hFailed⟩ := hFacts
    · exact ⟨hExplicit, hTodo, Or.inl hSettled⟩
    · exact ⟨hExplicit, hTodo, Or.inl (Or.inr (Or.inl (hWritten hFailed)))⟩

theorem Sound.setDone (hSound : state.Sound published)
    (hHandler : state.handler? consumer = some handler) (batch : List MessageId) {item : Item}
    (hAwait : handler.await = .closing item) :
    ((state.effect consumer handler).1.resume consumer batch
      (state.effect consumer handler).2).Sound published := by
  have hOld := hSound.handlers consumer handler hHandler
  have hFacts := hOld.await
  unfold Handler.AwaitSound at hFacts
  rw [hAwait] at hFacts
  let updated : Handler :=
    if .disabled (handler.event, item.workflow) ∈ handler.writes then
      { handler with closed := item.workflow :: handler.closed }
    else handler
  have hEffect : state.effect consumer handler =
      ({ state with done := (handler.event, item.workflow) :: state.done }, updated) := by
    cases handler
    cases hAwait
    rfl
  rw [hEffect]
  -- the trigger joins the disabled ones first, and then its key is written
  have hUpdated : updated.event = handler.event ∧ updated.await = handler.await ∧
      (∀ workflow ∈ handler.closed, workflow ∈ updated.closed) ∧
      updated.Sound (published handler.event) state.done state.log ∧
      (Settled state.log (handler.event, item.workflow) ∨ item.workflow ∈ updated.closed) := by
    by_cases hDisabled : .disabled (handler.event, item.workflow) ∈ handler.writes
    · have hSplit : updated = { handler with closed := item.workflow :: handler.closed } :=
        if_pos hDisabled
      rw [hSplit]
      refine ⟨rfl, rfl, fun _ hMem => List.mem_cons_of_mem _ hMem, ?_, Or.inr List.mem_cons_self⟩
      exact
        { todo := hOld.todo
          writes := hOld.writes
          closed := fun workflow hMem => by
            rcases List.mem_cons.mp hMem with rfl | hLater
            · exact hDisabled
            · exact hOld.closed workflow hLater
          progress := hOld.progress
          await := by
            unfold Handler.AwaitSound
            rw [show handler.await = _ from hAwait]
            exact hFacts }
    · have hSplit : updated = handler := if_neg hDisabled
      rw [hSplit]
      exact ⟨rfl, rfl, fun _ hMem => hMem, hOld, Or.inl (hFacts.2.2.resolve_right hDisabled)⟩
  obtain ⟨hEvent, hSame, hMore, hNew, hKey⟩ := hUpdated
  have hKept := hSound.keep hHandler batch hEvent hSame hNew fun workflow hMem =>
    Or.inr (hMore workflow hMem)
  have hThere : (state.resume consumer batch updated).handler? consumer = some updated := by
    unfold DeliveryState.resume
    rw [handler?_put (handler?_lt hHandler), if_pos rfl]
  have hClosed := hKept.close hThere (hSame.trans hAwait) (hEvent.symm ▸ hKey)
  rw [hEvent] at hClosed
  exact hClosed

theorem Sound.ack (hSound : state.Sound published)
    (hHandler : state.handler? consumer = some handler) (hAwait : handler.await = .acking)
    (hEarly : state.acksEarly consumer handler = false) :
    ({ state with log := .acked handler.event handler.matched :: state.log } :
      DeliveryState).Sound published := by
  have hOld := hSound.handlers consumer handler hHandler
  have hFacts := hOld.await
  unfold Handler.AwaitSound at hFacts
  rw [hAwait] at hFacts
  obtain ⟨hTodo, hClosed, hAck⟩ := hFacts
  refine hSound.record [.acked handler.event handler.matched] (by simp) (by simp)
    ⟨fun workflow hMem => ?_, hSound.acked⟩
  have hDone : (handler.event, workflow) ∈ state.done := by
    rcases hOld.progress hAck workflow hMem with hDone | hLater | hCurrent
    · exact hDone
    · rw [hTodo] at hLater
      cases hLater
    · rw [hAwait] at hCurrent
      cases hCurrent
  rcases hSound.done _ hDone with hSettled | ⟨other, another, hAnother, hEvent, hOpen⟩
  · exact hSettled
  · -- the key rests on a transaction that is open
    by_cases hOther : other = consumer
    · subst hOther
      rw [hHandler] at hAnother
      cases hAnother
      rw [hClosed] at hOpen
      cases hOpen
    · have hTrue : state.acksEarly consumer handler = true := by
        unfold acksEarly
        simp only [hAwait, decide_true, Bool.true_and, List.any_eq_true, Bool.and_eq_true,
          decide_eq_true_eq, List.contains_iff_mem]
        exact ⟨another, mem_others hAnother hOther, hEvent, workflow, hOpen, hMem⟩
      rw [hEarly] at hTrue
      cases hTrue

theorem Sound.effect (hSound : state.Sound published)
    (hHandler : state.handler? consumer = some handler) (batch : List MessageId)
    (hEarly : state.acksEarly consumer handler = false) :
    ((state.effect consumer handler).1.resume consumer batch
      (state.effect consumer handler).2).Sound published := by
  have hOld := hSound.handlers consumer handler hHandler
  -- the consumer is as before, in a state that is sound
  have hSame (next : DeliveryState) (hNext : next.Sound published)
      (hThere : next.handler? consumer = some handler) :
      (next.resume consumer batch handler).Sound published :=
    hNext.keep hThere batch rfl rfl (hNext.handlers consumer handler hThere)
      fun _ hMem => Or.inr hMem
  cases hAwait : handler.await with
  | locking item =>
      unfold DeliveryState.effect
      rw [hAwait]
      exact hSame _ { hSound with } hHandler
  | starting workflow =>
      unfold DeliveryState.effect
      rw [hAwait]
      have hFacts := hOld.await
      unfold Handler.AwaitSound at hFacts
      rw [hAwait] at hFacts
      by_cases hKnown : handler.event ∈ state.executions
      · simp only [hKnown, if_true]
        exact hSame _ hSound hHandler
      · simp only [hKnown, if_false]
        exact hSame _ (hSound.start hFacts.1 hKnown) hHandler
  | committing workflow => exact hSound.commit hHandler batch (Or.inr ⟨workflow, hAwait⟩)
  | finishing => exact hSound.commit hHandler batch (Or.inl hAwait)
  | closing item => exact hSound.setDone hHandler batch hAwait
  | unlocking item exit =>
      unfold DeliveryState.effect
      rw [hAwait]
      have hHolds : handler.holds (handler.event, item.workflow) = true := by
        simp [Handler.holds, hAwait, Await.lock?]
      have hLogged := hSound.record
        [.deleted consumer (handler.event, item.workflow)
          (state.holder (handler.event, item.workflow))] (by simp)
        (fun other key holder hMem => by
          cases List.mem_singleton.mp hMem
          exact hSound.holder hHandler hHolds)
        hSound.acked
      exact hSame _ { hLogged with } hHandler
  | acking =>
      unfold DeliveryState.effect
      rw [hAwait]
      exact hSame _ { hSound.ack hHandler hAwait hEarly with } hHandler
  | loading => simpa [DeliveryState.effect, hAwait] using hSame _ hSound hHandler
  | checking item => simpa [DeliveryState.effect, hAwait] using hSame _ hSound hHandler
  | dispatching item => simpa [DeliveryState.effect, hAwait] using hSame _ hSound hHandler
  | recording workflow failed => simpa [DeliveryState.effect, hAwait] using hSame _ hSound hHandler
  | listing => simpa [DeliveryState.effect, hAwait] using hSame _ hSound hHandler

theorem effect_event : (state.effect consumer handler).2.event = handler.event := by
  unfold DeliveryState.effect
  split <;> first | rfl | (split <;> rfl)

theorem effect_await : (state.effect consumer handler).2.await = handler.await := by
  unfold DeliveryState.effect
  split <;> first | rfl | (split <;> rfl)

theorem effect_consumers : (state.effect consumer handler).1.consumers = state.consumers := by
  unfold DeliveryState.effect
  split <;> first | rfl | (split <;> rfl)

theorem Sound.performed (hSound : state.Sound published)
    (hHandler : state.handler? consumer = some handler) :
    (state.effect consumer handler).1.Performed (state.effect consumer handler).2 := by
  unfold Performed
  rw [effect_await, effect_event]
  cases hAwait : handler.await with
  | starting workflow =>
      unfold DeliveryState.effect
      rw [hAwait]
      by_cases hKnown : handler.event ∈ state.executions
      · simp [hKnown]
      · simp [hKnown]
  | committing workflow =>
      have hFacts := (hSound.handlers consumer handler hHandler).await
      unfold Handler.AwaitSound at hFacts
      rw [hAwait] at hFacts
      rw [effect_commit (Or.inr ⟨workflow, hAwait⟩)]
      rcases hFacts.2.2 with hSettled | hFailed
      · exact hSettled.mono fun entry hEntry => List.mem_append_right _ hEntry
      · exact Or.inr (Or.inl (List.mem_append_left _ hFailed))
  | closing item =>
      unfold DeliveryState.effect
      rw [hAwait]
      exact List.mem_cons_self
  | finishing =>
      rw [effect_commit (Or.inl hAwait)]
  | loading => trivial
  | checking item => trivial
  | locking item => trivial
  | dispatching item => trivial
  | recording workflow failed => trivial
  | unlocking item exit => trivial
  | listing => trivial
  | acking => trivial

/-! ## Awaits -/

theorem after_event (item : Item) : (handler.after item).event = handler.event := by
  unfold Handler.after Handler.nextTrigger
  split
  · rfl
  · split <;> rfl

theorem after_closed (item : Item) : (handler.after item).closed = handler.closed := by
  unfold Handler.after Handler.nextTrigger
  split
  · rfl
  · split <;> rfl

theorem after_lock (item : Item) : (handler.after item).await.lock? = none := by
  unfold Handler.after Handler.nextTrigger
  split
  · rfl
  · split <;> rfl

theorem Sound.next (hSound : state.Sound published)
    (hHandler : state.handler? consumer = some handler) (batch : List MessageId) {item : Item}
    (hItem : handler.await.item? = some item) (hTodo : item.explicit = true → handler.todo = [])
    {shouldAck : Bool} (hAck : shouldAck = true → handler.shouldAck = true ∧
      (handler.event, item.workflow) ∈ state.done)
    (hClosing : ∀ workflow, handler.await ≠ .closing ⟨workflow, false⟩) :
    (state.resume consumer batch ({ handler with shouldAck := shouldAck }.after item)).Sound
      published :=
  hSound.go hHandler batch (after_event item) (after_closed item)
    (fun workflow hLock => by
      rw [after_lock] at hLock
      cases hLock)
    ((hSound.handlers consumer handler hHandler).after hItem hTodo hAck)
    fun workflow hAwait _ => absurd hAwait (hClosing workflow)

theorem Sound.advance (hSound : state.Sound published)
    (hHandler : state.handler? consumer = some handler) (batch : List MessageId)
    (hPerformed : state.Performed handler) (acquired : Bool)
    (hFree : acquired = true → ∀ item, handler.await = .locking item →
      (item.explicit = false → (handler.event, item.workflow) ∉ state.done) ∧
        ∀ other another, other ≠ consumer → state.handler? other = some another →
          another.holds (handler.event, item.workflow) = false) (db : Database) :
    (state.advance published consumer batch handler acquired db).Sound published := by
  have hOld := hSound.handlers consumer handler hHandler
  have hFacts := hOld.await
  unfold Handler.AwaitSound at hFacts
  unfold Performed at hPerformed
  cases hAwait : handler.await with
  | loading =>
      rw [hAwait] at hFacts
      obtain ⟨hMatched, hAck, hTodo, hClosed⟩ := hFacts
      have hNone : handler.await.item? = none := by rw [hAwait]; rfl
      simp only [DeliveryState.advance, hAwait]
      split
      · refine hSound.go hHandler batch rfl rfl (by simp [Await.lock?]) ?_ (by simp [hAwait])
        exact hOld.to .acking (by simp [hNone]) ⟨hTodo, hClosed, hAck⟩
      · split
        next explicit hExplicit =>
          have hId : (published handler.event).explicitId = some explicit.workflowId := by
            unfold Published.explicitId
            rw [hExplicit]
            rfl
          refine hSound.go hHandler batch rfl rfl (by simp [Await.lock?]) ?_ (by simp [hAwait])
          exact
            { todo := hOld.todo
              writes := hOld.writes
              closed := hOld.closed
              progress := fun _ workflow hMem =>
                Or.inr (Or.inr (congrArg some (List.mem_singleton.mp hMem).symm))
              await := ⟨⟨fun _ => hId, fun _ => rfl⟩, fun _ => ⟨hTodo, hClosed⟩⟩ }
        next hExplicit =>
          refine hSound.go hHandler batch rfl rfl (by simp [Await.lock?]) ?_ (by simp [hAwait])
          exact
            { todo := hOld.todo
              writes := hOld.writes
              closed := hOld.closed
              progress := fun _ workflow hMem => by
                change workflow ∈ handler.matched at hMem
                rw [hMatched] at hMem
                cases hMem
              await := hTodo }
  | checking item =>
      rw [hAwait] at hFacts
      simp only [DeliveryState.advance, hAwait]
      split
      next hDone =>
        exact hSound.next hHandler batch (by rw [hAwait]; rfl)
          (fun hExplicit => (hFacts.2 hExplicit).1) (fun hAck => ⟨hAck, hDone⟩) (by simp [hAwait])
      next =>
        refine hSound.go hHandler batch rfl rfl (by simp [Await.lock?]) ?_ (by simp [hAwait])
        exact hOld.to (.locking item) (fun workflow hItem => Or.inl (by rwa [hAwait] at hItem)) hFacts
  | locking item =>
      rw [hAwait] at hFacts
      simp only [DeliveryState.advance, hAwait]
      split
      next hAcquired =>
        obtain ⟨hFresh, hAlone⟩ := hFree hAcquired item hAwait
        refine hSound.replace hHandler (fun updated hUpdated => ?_)
          (fun updated key hUpdated hHolds => ?_)
          (fun workflow hMem => Or.inr ⟨_, rfl, rfl, hMem⟩) (by simp [hAwait])
        · cases hUpdated
          exact hOld.to (.dispatching item)
            (fun workflow hItem => Or.inl (by rwa [hAwait] at hItem)) ⟨hFacts.1, hFacts.2, hFresh⟩
        · cases hUpdated
          have hKey : (handler.event, item.workflow) = key := by
            simpa [Handler.holds, Await.lock?, Prod.ext_iff] using hHolds
          exact Or.inr (hKey ▸ hAlone)
      next =>
        exact hSound.next hHandler batch (by rw [hAwait]; rfl)
          (fun hExplicit => (hFacts.2 hExplicit).1) (fun hAck => by cases hAck) (by simp [hAwait])
  | dispatching item =>
      rw [hAwait] at hFacts
      obtain ⟨hFits, hExplicit, -⟩ := hFacts
      have hItem (await : Await) (hSame : await.item? = some item) (workflow : WorkflowId)
          (hCurrent : handler.await.item?.map (·.workflow) = some workflow) :
          await.item?.map (·.workflow) = some workflow ∨
            (handler.event, workflow) ∈ state.done := by
        rw [hAwait] at hCurrent
        rw [hSame]
        exact Or.inl hCurrent
      have hLock (await : Await) (hSame : await.lock? = some item.workflow)
          (workflow : WorkflowId) (hHolds : await.lock? = some workflow) :
          handler.await.lock? = some workflow := by
        rw [hSame] at hHolds
        rw [hAwait]
        exact hHolds
      obtain ⟨workflow, explicit⟩ := item
      cases explicit with
      | true =>
          obtain ⟨hTodo, hClosed⟩ := hExplicit rfl
          simp only [DeliveryState.advance, hAwait]
          split
          · refine hSound.go hHandler batch rfl rfl (hLock _ rfl) ?_ (by simp [hAwait])
            exact hOld.to _ (hItem _ rfl) ⟨hFits.mp rfl, hTodo, Bool.noConfusion⟩
          · split
            · refine hSound.go hHandler batch rfl rfl (hLock _ rfl) ?_ (by simp [hAwait])
              exact hOld.to _ (hItem _ rfl) ⟨hFits.mp rfl, hTodo⟩
            · refine hSound.go hHandler batch rfl rfl (hLock _ rfl) ?_ (by simp [hAwait])
              exact hOld.to _ (hItem _ rfl)
                ⟨hFits, fun _ => hTodo, (fun hExit => by cases hExit), fun _ => hClosed⟩
      | false =>
          simp only [DeliveryState.advance, hAwait]
          split
          · exact hSound.dispatch hHandler hAwait batch
          · refine hSound.go hHandler batch rfl rfl (hLock _ rfl) ?_ (by simp [hAwait])
            exact
              { todo := hOld.todo
                writes := fun entry hMem => by
                  rcases List.mem_cons.mp hMem with rfl | hLater
                  · exact ⟨_, Or.inr rfl⟩
                  · exact hOld.writes entry hLater
                closed := fun other hMem => List.mem_cons_of_mem _ (hOld.closed other hMem)
                progress := fun hAck other hMem => by
                  have hPlace := hOld.progress hAck other hMem
                  rw [hAwait] at hPlace
                  exact hPlace
                await := ⟨hFits, Bool.noConfusion, Or.inr List.mem_cons_self⟩ }
  | starting workflow =>
      rw [hAwait] at hFacts hPerformed
      simp only [DeliveryState.advance, hAwait]
      refine hSound.go hHandler batch rfl rfl (by simp [hAwait, Await.lock?]) ?_ (by simp [hAwait])
      exact hOld.to _ (fun other hItem => Or.inl (by rwa [hAwait] at hItem))
        ⟨hFacts.1, hFacts.2, fun _ => Or.inl ((hSound.executed (_, workflow) hFacts.1).mpr hPerformed)⟩
  | recording workflow failed =>
      rw [hAwait] at hFacts
      obtain ⟨hExplicit, hTodo, hSettled⟩ := hFacts
      simp only [DeliveryState.advance, hAwait]
      refine hSound.go hHandler batch rfl rfl (by simp [hAwait, Await.lock?]) ?_ (by simp [hAwait])
      have hKept (entry : Entry) (hMem : entry ∈ handler.writes) :
          entry ∈ if failed then .failed (handler.event, workflow) :: handler.writes
            else handler.writes := by
        cases failed
        · exact hMem
        · exact List.mem_cons_of_mem _ hMem
      exact
        { todo := hOld.todo
          writes := fun entry hMem => by
            cases failed with
            | false => exact hOld.writes entry hMem
            | true =>
                rcases List.mem_cons.mp hMem with rfl | hLater
                · exact ⟨_, Or.inl rfl⟩
                · exact hOld.writes entry hLater
          closed := fun other hMem => hKept _ (hOld.closed other hMem)
          progress := fun hAck other hMem => by
            have hPlace := hOld.progress hAck other hMem
            rw [hAwait] at hPlace
            exact hPlace
          await := by
            cases failed with
            | false => exact ⟨hExplicit, hTodo, Or.inl (hSettled rfl)⟩
            | true => exact ⟨hExplicit, hTodo, Or.inr List.mem_cons_self⟩ }
  | committing workflow =>
      rw [hAwait] at hFacts hPerformed
      obtain ⟨hExplicit, hTodo, -⟩ := hFacts
      simp only [DeliveryState.advance, hAwait]
      refine hSound.go hHandler batch rfl rfl (by simp [hAwait, Await.lock?]) ?_ (by simp [hAwait])
      exact hOld.to _ (fun other hItem => Or.inl (by rwa [hAwait] at hItem))
        ⟨⟨fun _ => hExplicit, fun _ => rfl⟩, fun _ => hTodo, Or.inl hPerformed⟩
  | closing item =>
      rw [hAwait] at hFacts hPerformed
      obtain ⟨hFits, hTodo, -⟩ := hFacts
      simp only [DeliveryState.advance, hAwait]
      refine hSound.go hHandler batch rfl rfl (by simp [hAwait, Await.lock?]) ?_
        fun workflow hSame _ => ?_
      · exact hOld.to _ (fun other hItem => Or.inl (by rwa [hAwait] at hItem))
          ⟨hFits, hTodo, fun _ _ => hPerformed, fun hExit => absurd rfl hExit⟩
      · rw [hAwait] at hSame
        cases hSame
        exact hPerformed
  | unlocking item exit =>
      rw [hAwait] at hFacts
      obtain ⟨-, hTodo, hDone, hClosed⟩ := hFacts
      cases exit with
      | returned =>
          simp only [DeliveryState.advance, hAwait]
          exact hSound.next hHandler batch (by rw [hAwait]; rfl) hTodo
            (fun hAck => ⟨hAck, hDone rfl hAck⟩) (by simp [hAwait])
      | raised =>
          simp only [DeliveryState.advance, hAwait]
          exact hSound.leave hHandler (Or.inr ⟨batch, rfl⟩)
            (hClosed fun hExit => by cases hExit) (by simp [hAwait])
      | cancelled =>
          simp only [DeliveryState.advance, hAwait]
          exact hSound.leave hHandler (Or.inl rfl)
            (hClosed fun hExit => by cases hExit) (by simp [hAwait])
  | listing =>
      rw [hAwait] at hFacts
      have hDone (hAck : handler.shouldAck = true) (workflow : WorkflowId)
          (hMem : workflow ∈ handler.matched) : (handler.event, workflow) ∈ state.done := by
        rcases hOld.progress hAck workflow hMem with hDone | hLater | hCurrent
        · exact hDone
        · rw [hFacts] at hLater
          cases hLater
        · rw [hAwait] at hCurrent
          cases hCurrent
      simp only [DeliveryState.advance, hAwait]
      split
      · refine hSound.go hHandler batch ?_ ?_ ?_ ?_ (by simp [hAwait])
        · unfold Handler.nextTrigger
          split <;> rfl
        · unfold Handler.nextTrigger
          split <;> rfl
        · unfold Handler.nextTrigger
          split <;> simp [Await.lock?]
        · refine Handler.sound_nextTrigger (fun workflow hMem => ?_) hOld.writes hOld.closed
            fun hAck workflow hMem => ?_
          · obtain ⟨trigger, hTrigger, rfl⟩ := List.mem_map.mp hMem
            have hSkipped := (List.mem_filter.mp hTrigger).2
            rw [Bool.and_eq_true] at hSkipped
            exact of_decide_eq_true hSkipped.1
          · rcases List.mem_append.mp hMem with hEarlier | hTrigger
            · exact Or.inl (hDone hAck workflow hEarlier)
            · exact Or.inr hTrigger
      · refine hSound.go hHandler batch rfl rfl (by simp [Await.lock?]) ?_ (by simp [hAwait])
        exact hOld.to .finishing (by simp [hAwait, Await.item?]) hFacts
  | finishing =>
      rw [hAwait] at hFacts hPerformed
      simp only [DeliveryState.advance, hAwait]
      split
      next hAck =>
        refine hSound.go hHandler batch rfl rfl (by simp [Await.lock?]) ?_ (by simp [hAwait])
        exact hOld.to .acking (by simp [hAwait, Await.item?]) ⟨hFacts, hPerformed, hAck⟩
      next => exact hSound.leave hHandler (Or.inr ⟨batch, rfl⟩) hPerformed (by simp [hAwait])
  | acking =>
      rw [hAwait] at hFacts
      simp only [DeliveryState.advance, hAwait]
      exact hSound.leave hHandler (Or.inr ⟨batch, rfl⟩) hFacts.2.1 (by simp [hAwait])

theorem closing_of_not_leavesOpen (hOpen : state.leavesOpen handler = false)
    (workflow : WorkflowId) (hAwait : handler.await = .closing ⟨workflow, false⟩)
    (hLog : .dispatched (handler.event, workflow) ∈ state.log) :
    (handler.event, workflow) ∈ state.done := by
  unfold leavesOpen at hOpen
  rw [hAwait] at hOpen
  simpa [hLog] using hOpen

/-- A consumer gives up an item: the `finally` comes next. -/
theorem Sound.giveUp (hSound : state.Sound published)
    (hHandler : state.handler? consumer = some handler) (batch : List MessageId) {item : Item}
    (hItem : handler.await.item? = some item) (hLock : handler.await.lock? = some item.workflow)
    (hTodo : item.explicit = true → handler.todo = []) (hFits : item.Fits (published handler.event))
    (hOpen : state.leavesOpen handler = false) {exit : Exit} {shouldAck : Bool}
    (hAck : shouldAck = true → exit ≠ .returned ∧ handler.shouldAck = true)
    (hClosed : exit ≠ .returned → handler.closed = []) :
    (state.resume consumer batch
      { handler with shouldAck := shouldAck, await := .unlocking item exit }).Sound published := by
  have hOld := hSound.handlers consumer handler hHandler
  refine hSound.go hHandler batch rfl rfl (fun workflow hHolds => hLock.trans hHolds) ?_
    (closing_of_not_leavesOpen hOpen)
  exact
    { todo := hOld.todo
      writes := hOld.writes
      closed := hOld.closed
      progress := fun hTrue workflow hMem => by
        have hPlace := hOld.progress (hAck hTrue).2 workflow hMem
        rw [hItem] at hPlace
        exact hPlace
      await := ⟨hFits, hTodo, fun hExit hTrue => absurd hExit (hAck hTrue).1, hClosed⟩ }

theorem Sound.item (hSound : state.Sound published)
    (hHandler : state.handler? consumer = some handler) {item : Item}
    (hItem : handler.await.item? = some item) :
    item.Fits (published handler.event) ∧ (item.explicit = true → handler.todo = []) := by
  have hFacts := (hSound.handlers consumer handler hHandler).await
  unfold Handler.AwaitSound at hFacts
  cases hAwait : handler.await <;> rw [hAwait] at hFacts hItem <;> cases hItem
  case checking => exact ⟨hFacts.1, fun hExplicit => (hFacts.2 hExplicit).1⟩
  case locking => exact ⟨hFacts.1, fun hExplicit => (hFacts.2 hExplicit).1⟩
  case dispatching => exact ⟨hFacts.1, fun hExplicit => (hFacts.2.1 hExplicit).1⟩
  case starting => exact ⟨⟨fun _ => hFacts.1, fun _ => rfl⟩, fun _ => hFacts.2⟩
  case recording => exact ⟨⟨fun _ => hFacts.1, fun _ => rfl⟩, fun _ => hFacts.2.1⟩
  case committing => exact ⟨⟨fun _ => hFacts.1, fun _ => rfl⟩, fun _ => hFacts.2.1⟩
  case closing => exact ⟨hFacts.1, hFacts.2.1⟩
  case unlocking => exact ⟨hFacts.1, hFacts.2.1⟩

theorem Sound.raise (hSound : state.Sound published)
    (hHandler : state.handler? consumer = some handler) (batch : List MessageId)
    (hOpen : state.leavesOpen handler = false)
    (hClosed : handler.catches = false → handler.closed = []) :
    (state.raise consumer batch handler).Sound published := by
  have hOld := hSound.handlers consumer handler hHandler
  have hFacts := hOld.await
  unfold Handler.AwaitSound at hFacts
  have hGiveUp (item : Item) (hItem : handler.await.item? = some item)
      (hLock : handler.await.lock? = some item.workflow) (exit : Exit) (shouldAck : Bool)
      (hAck : shouldAck = true → exit ≠ .returned ∧ handler.shouldAck = true)
      (hExit : exit ≠ .returned → handler.closed = []) :=
    hSound.giveUp hHandler batch hItem hLock (hSound.item hHandler hItem).2
      (hSound.item hHandler hItem).1 hOpen hAck hExit
  cases hAwait : handler.await with
  | dispatching item | closing item =>
      obtain ⟨workflow, explicit⟩ := item
      cases explicit with
      | true =>
          simp only [DeliveryState.raise, hAwait]
          exact hGiveUp ⟨workflow, true⟩ (by rw [hAwait]; rfl) (by rw [hAwait]; rfl) .raised _
            (fun hAck => ⟨nofun, hAck⟩) fun _ => hClosed (by simp [Handler.catches, hAwait])
      | false =>
          simp only [DeliveryState.raise, hAwait]
          exact hGiveUp ⟨workflow, false⟩ (by rw [hAwait]; rfl) (by rw [hAwait]; rfl) .returned _
            nofun fun hExit => absurd rfl hExit
  | starting workflow =>
      rw [hAwait] at hFacts
      simp only [DeliveryState.raise, hAwait]
      refine hSound.go hHandler batch rfl rfl (by simp [hAwait, Await.lock?]) ?_ (by simp [hAwait])
      exact hOld.to _ (fun other hItem => Or.inl (by rwa [hAwait] at hItem))
        ⟨hFacts.1, hFacts.2, Bool.noConfusion⟩
  | recording workflow failed =>
      simp only [DeliveryState.raise, hAwait]
      exact hGiveUp ⟨workflow, true⟩ (by rw [hAwait]; rfl) (by rw [hAwait]; rfl) .raised _
        (fun hAck => ⟨nofun, hAck⟩) fun _ => hClosed (by simp [Handler.catches, hAwait])
  | committing workflow =>
      simp only [DeliveryState.raise, hAwait]
      exact hGiveUp ⟨workflow, true⟩ (by rw [hAwait]; rfl) (by rw [hAwait]; rfl) .raised _
        (fun hAck => ⟨nofun, hAck⟩) fun _ => hClosed (by simp [Handler.catches, hAwait])
  | acking =>
      simp only [DeliveryState.raise, hAwait]
      exact hSound.leave hHandler (Or.inl rfl) (hClosed (by simp [Handler.catches, hAwait]))
        (closing_of_not_leavesOpen hOpen)
  | _ =>
      simp only [DeliveryState.raise, hAwait]
      exact hSound.leave hHandler (Or.inr ⟨batch, rfl⟩)
        (hClosed (by simp [Handler.catches, hAwait])) (closing_of_not_leavesOpen hOpen)

theorem Sound.cancel (hSound : state.Sound published)
    (hHandler : state.handler? consumer = some handler) (batch : List MessageId)
    (hOpen : state.leavesOpen handler = false) (hClosed : handler.closed = []) :
    (state.cancel consumer batch handler).Sound published := by
  have hGiveUp (item : Item) (hItem : handler.await.item? = some item)
      (hLock : handler.await.lock? = some item.workflow) :=
    hSound.giveUp hHandler batch hItem hLock (hSound.item hHandler hItem).2
      (hSound.item hHandler hItem).1 hOpen
      (fun hAck => ⟨(nofun : Exit.cancelled ≠ .returned), hAck⟩) fun _ => hClosed
  cases hAwait : handler.await with
  | dispatching item | closing item =>
      simp only [DeliveryState.cancel, hAwait]
      exact hGiveUp item (by rw [hAwait]; rfl) (by rw [hAwait]; rfl)
  | starting workflow | recording workflow _ | committing workflow =>
      simp only [DeliveryState.cancel, hAwait]
      exact hGiveUp ⟨workflow, true⟩ (by rw [hAwait]; rfl) (by rw [hAwait]; rfl)
  | _ =>
      simp only [DeliveryState.cancel, hAwait]
      exact hSound.leave hHandler (Or.inl rfl) hClosed (closing_of_not_leavesOpen hOpen)

theorem advance_resume (batch : List MessageId) (updated : Handler) (acquired : Bool)
    (db : Database) :
    (state.resume consumer batch updated).advance published consumer batch handler acquired db =
      state.advance published consumer batch handler acquired db := by
  have hResume (other : Handler) : (state.resume consumer batch updated).resume consumer batch
      other = state.resume consumer batch other := put_put _ _
  have hFinish : (state.resume consumer batch updated).finish consumer batch =
      state.finish consumer batch := by
    cases batch <;> exact put_put _ _
  have hStop : (state.resume consumer batch updated).stop consumer = state.stop consumer :=
    put_put _ _
  unfold DeliveryState.advance
  cases handler.await with
  | dispatching item =>
      obtain ⟨workflow, explicit⟩ := item
      cases explicit
      · simp only [hResume]
        split
        · simp [DeliveryState.resume, put]
        · rfl
      · simp only [hResume]
  | unlocking item exit => cases exit <;> simp only [hResume, hFinish, hStop]
  | _ => simp only [hResume, hFinish] <;> rfl

theorem Sound.proceed (hSound : state.Sound published)
    (hHandler : state.handler? consumer = some handler) (batch : List MessageId)
    (outcome : Outcome) (hSafe : state.hazardAt consumer handler outcome = false) :
    (state.proceed published consumer batch handler outcome).Sound published := by
  cases outcome with
  | returns db =>
      obtain ⟨hTakes, hEarly⟩ := (Bool.or_eq_false_iff).mp hSafe
      have hEffect := hSound.effect hHandler batch hEarly
      have hLt := handler?_lt hHandler
      have hPut (other : ConsumerId) :
          ((state.effect consumer handler).1.resume consumer batch
            (state.effect consumer handler).2).handler? other =
            if other = consumer then some (state.effect consumer handler).2
            else state.handler? other := by
        have hConsumers : (state.effect consumer handler).1.consumers = state.consumers :=
          effect_consumers
        have hHandlers : (state.effect consumer handler).1.handler? other =
            state.handler? other := by
          unfold handler?
          rw [hConsumers]
        unfold DeliveryState.resume
        rw [handler?_put (hConsumers.symm ▸ hLt), hHandlers]
      have hAdvance := hEffect.advance (by rw [hPut, if_pos rfl]) batch
        (hSound.performed hHandler) (state.acquires handler) ?_ db
      · rw [advance_resume] at hAdvance
        exact hAdvance
      · intro hAcquires item hAwait
        rw [effect_await] at hAwait
        rw [effect_event]
        simp only [takesOver, hAwait, hAcquires, Bool.true_and, Bool.or_eq_false_iff] at hTakes
        obtain ⟨hStale, hAlone⟩ := hTakes
        refine ⟨fun hTrigger => ?_, fun other another hOther hAnother => ?_⟩
        · have hDone : (state.effect consumer handler).1.done = state.done := by
            cases handler
            cases hAwait
            rfl
          show (handler.event, item.workflow) ∉ (state.effect consumer handler).1.done
          rw [hDone]
          simpa [hTrigger] using hStale
        · rw [hPut, if_neg hOther] at hAnother
          have hNone := List.any_eq_false.mp hAlone another (mem_others hAnother hOther)
          simpa using hNone
  | lost => exact hSound.effect hHandler batch hSafe
  | raises =>
      obtain ⟨hOpen, hClosed⟩ := (Bool.or_eq_false_iff).mp hSafe
      exact hSound.raise hHandler batch hOpen fun hCatches => by simpa [hCatches] using hClosed
  | cancels =>
      obtain ⟨hOpen, hClosed⟩ := (Bool.or_eq_false_iff).mp hSafe
      exact hSound.cancel hHandler batch hOpen (by simpa using hClosed)
  | stops =>
      obtain ⟨hOpen, hClosed⟩ := (Bool.or_eq_false_iff).mp hSafe
      exact hSound.leave hHandler (Or.inl rfl) (by simpa using hClosed)
        (closing_of_not_leavesOpen hOpen)

theorem Sound.receive (hSound : state.Sound published)
    (hIdle : state.consumers[consumer]? = some {}) (batch : List MessageId) :
    (state.put consumer (state.take batch)).Sound published := by
  have hLt : consumer < state.consumers.length := (List.getElem?_eq_some_iff.mp hIdle).1
  have hNone : state.handler? consumer = none := by
    unfold handler?
    rw [hIdle]
    rfl
  have hStart {updated : Handler} (hUpdated : (state.take batch).handler = some updated) :
      ∃ message, updated = state.handle message := by
    cases batch with
    | nil => cases hUpdated
    | cons message batch =>
        cases hUpdated
        exact ⟨message, rfl⟩
  have hFree {updated : Handler} (hUpdated : (state.take batch).handler = some updated)
      (key : Key) : updated.holds key = false := by
    obtain ⟨message, rfl⟩ := hStart hUpdated
    have hLock : (state.handle message).await.lock? = none := by
      unfold handle
      split <;> rfl
    simp [Handler.holds, hLock]
  have hKept {other : ConsumerId} {another : Handler}
      (hAnother : state.handler? other = some another) :
      (state.put consumer (state.take batch)).handler? other = some another := by
    rw [handler?_put hLt, if_neg, hAnother]
    rintro rfl
    rw [hNone] at hAnother
    cases hAnother
  refine
    { hSound with
      handlers := fun other another hAnother => ?_
      unique := fun first second one two key hOne hTwo hFirst hSecond => ?_
      done := fun key hKey => (hSound.done key hKey).imp_right
        fun hOpen => by
          obtain ⟨other, another, hAnother, hOpen⟩ := hOpen
          exact ⟨other, another, hKept hAnother, hOpen⟩
      closing := fun key hTrigger hLog => (hSound.closing key hTrigger hLog).imp_right
        fun hAt => by
          obtain ⟨other, another, hAnother, hAt⟩ := hAt
          exact ⟨other, another, hKept hAnother, hAt⟩ }
  · rw [handler?_put hLt] at hAnother
    split at hAnother
    · obtain ⟨message, rfl⟩ := hStart hAnother
      exact sound_handle message _ _ _
    · exact hSound.handlers other another hAnother
  · rw [handler?_put hLt] at hOne hTwo
    split at hOne
    · rw [hFree hOne key] at hFirst
      cases hFirst
    · split at hTwo
      · rw [hFree hTwo key] at hSecond
        cases hSecond
      · exact hSound.unique first second one two key hOne hTwo hFirst hSecond

theorem Sound.step {event : DeliveryEvent} {next : DeliveryState} (hSound : state.Sound published)
    (hStep : SafeDeliveryStep published state event next) : next.Sound published := by
  obtain ⟨hSafe, hTaken⟩ := hStep
  cases event with
  | publish message =>
      cases hTaken
      exact { hSound with }
  | read consumer count =>
      obtain ⟨hIdle, hNext⟩ := Option.ite_none_right_eq_some.mp hTaken
      cases hNext
      exact { hSound.receive hIdle _ with }
  | claim consumer messages =>
      obtain ⟨hIdle, hNext⟩ := Option.ite_none_right_eq_some.mp hTaken
      cases hNext
      exact hSound.receive hIdle _
  | proceed consumer outcome =>
      obtain ⟨current, hCurrent, hTaken⟩ := Option.bind_eq_some_iff.mp hTaken
      obtain ⟨handler, hHandles, rfl⟩ := Option.map_eq_some_iff.mp hTaken
      have hHandler : state.handler? consumer = some handler := by
        unfold handler?
        rw [hCurrent, Option.bind_some, hHandles]
      refine hSound.proceed hHandler current.batch outcome ?_
      simpa [hazard, hHandler] using hSafe
  | lockExpires key =>
      cases hTaken
      exact { hSound with }
  | doneExpires key => cases hSafe

theorem sound_started (published : EventId → Published) (count : Nat) :
    (DeliveryState.started count).Sound published := by
  have hIdle (consumer : ConsumerId) : (DeliveryState.started count).handler? consumer = none := by
    unfold handler? DeliveryState.started
    simp only [List.getElem?_replicate]
    split <;> rfl
  exact
    { handlers := fun consumer handler hHandler => by
        rw [hIdle] at hHandler
        cases hHandler
      unique := fun consumer other handler another key hHandler => by
        rw [hIdle] at hHandler
        cases hHandler
      done := fun key hKey => absurd hKey List.not_mem_nil
      closing := fun key _ hLog => absurd hLog List.not_mem_nil
      executed := fun key _ =>
        ⟨fun hLog => absurd hLog List.not_mem_nil, fun hKey => absurd hKey List.not_mem_nil⟩
      once := fun _ => Nat.zero_le _
      deleted := fun consumer key holder hLog => absurd hLog List.not_mem_nil
      acked := trivial }

theorem Sound.contract (hSound : state.Sound published) : DeliveryContract state where
  once := hSound.once
  deleted := hSound.deleted
  acked later earlier event workflows hLog := by
    have hAcked := hSound.acked
    rw [hLog] at hAcked
    exact hAcked.split

end DeliveryState

/-! ## Runs -/

/-- The contract holds along every run without a hazard. -/
theorem delivery_contract_of_safe_run (published : EventId → Published) (count : Nat)
    (events : List DeliveryEvent) (state : DeliveryState)
    (hRun : Run (SafeDeliveryStep published) (DeliveryState.started count) events state) :
    DeliveryContract state :=
  (hRun.invariant (fun _ => DeliveryState.Sound published)
    (DeliveryState.sound_started published count)
    fun _ hSound hStep => hSound.step hStep).contract

def caseCreated : EventId → Published := fun _ => { eventType := some .caseCreated }

/-- Workflow 3 is triggered by created cases, and has a valid definition. -/
def oneTrigger : Database where
  triggers := [⟨3, true, [.caseCreated], []⟩]
  definition := fun _ => some {}

/-- A consumer takes the lock while another one has it, gives the message up, and
the first dispatches the workflow and acks. -/
def contendedLock : List DeliveryEvent :=
  [.publish { event := 0 }, .read 0 1] ++ List.replicate 4 (.proceed 0 (.returns oneTrigger)) ++
    [.claim 1 [0]] ++ List.replicate 5 (.proceed 1 (.returns oneTrigger)) ++
    List.replicate 5 (.proceed 0 (.returns oneTrigger))

theorem contendedLock_contract : ∃ state, DeliveryContract state ∧
    state.log = [.acked 0 [3], .deleted 0 (0, 3) (some 0), .dispatched (0, 3)] := by
  let take (state : DeliveryState) (event : DeliveryEvent) : Option DeliveryState :=
    if state.hazard event then none else state.step caseCreated event
  have hTake : ∀ event ∈ contendedLock, ∀ state next, take state event = some next →
      SafeDeliveryStep caseCreated state event next := by
    intro event _ state next hTaken
    obtain ⟨hSafe, hStep⟩ := Option.ite_none_left_eq_some.mp hTaken
    exact ⟨Bool.not_eq_true _ ▸ hSafe, hStep⟩
  have hEnd : (contendedLock.foldlM take (DeliveryState.started 2)).map DeliveryState.log =
      some [.acked 0 [3], .deleted 0 (0, 3) (some 0), .dispatched (0, 3)] := by
    decide
  obtain ⟨state, hFold, hLog⟩ := Option.map_eq_some_iff.mp hEnd
  exact ⟨state, delivery_contract_of_safe_run caseCreated 2 _ state (Run.of_foldlM hTake hFold),
    hLog⟩

/-- Two consumers find no done key.  The first takes the lock, dispatches, writes
the done key and deletes the lock; then the second takes the lock and dispatches
too. -/
theorem stale_check_dispatches_twice :
    ¬ ∀ published count events state,
      Run (fun state event next => (∀ key, event ≠ .doneExpires key) ∧
          DeliveryState.step published state event = some next)
        (DeliveryState.started count) events state → DeliveryContract state := by
  intro hAll
  let events : List DeliveryEvent :=
    [.publish { event := 0 }, .read 0 1] ++ List.replicate 3 (.proceed 0 (.returns oneTrigger)) ++
      [.claim 1 [0]] ++ List.replicate 3 (.proceed 1 (.returns oneTrigger)) ++
      List.replicate 4 (.proceed 0 (.returns oneTrigger)) ++
      List.replicate 2 (.proceed 1 (.returns oneTrigger))
  have hEnd : (events.foldlM (DeliveryState.step caseCreated) (DeliveryState.started 2)).map
      (fun state => state.log.count (.dispatched (0, 3))) = some 2 := by
    decide
  obtain ⟨state, hFold, hCount⟩ := Option.map_eq_some_iff.mp hEnd
  have hNever : ∀ event ∈ events, ∀ key, event ≠ .doneExpires key := by
    intro event hMem key hSame
    subst hSame
    simp [events] at hMem
  have hContract := hAll caseCreated 2 _ state
    (Run.of_foldlM (fun event hMem _ _ hTaken => ⟨hNever event hMem, hTaken⟩) hFold)
  have hOnce := hContract.once (0, 3)
  omega

end CaseTriggers
end Tracecat
