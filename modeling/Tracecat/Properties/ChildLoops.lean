import Mathlib.Data.Nat.Find
import Tracecat.Dsl.ChildLoop
import Tracecat.Dsl.SubflowPreparation

/-!
# Child workflow loops as the sequential map

Whatever the strategy, the batch size, the dispatch window and the order in which
the children end, a loop dispatches its indices in their order, every child with
the arguments of its index, and collects their outcomes by index.
-/

namespace Tracecat

variable {Digest : Type}

section

variable (plan : ChildLoopPlan) (oracle : ChildOracle Digest) (args : Nat → ChildRunArgs Digest)
  (count : Nat)

def childOutcome (index : Nat) : Except ChildException (StoredHandle Tree Digest) :=
  oracle.resolve plan.waitStrategy (oracle.dispatch (index, args index))

def batchEnd (index : Nat) : Nat :=
  min count ((index / plan.logicalBatchSize count + 1) * plan.logicalBatchSize count)

/-- What the loop has done in a phase; `sent` are the children so far. -/
def PhaseInv (batchStart : Nat) (sent : List (Nat × ChildRunArgs Digest)) :
    ChildLoopPhase Digest → Prop
  | .nextBatch => sent = span (fun index => (index, args index)) 0 batchStart
  | .preparing offset dispatchBatch launched =>
      batchStart < count ∧ offset ≤ currentBatchSize plan count batchStart ∧
        offset = launched.length + dispatchBatch.length ∧
        launched = span (fun index => oracle.dispatch (index, args index)) batchStart
          launched.length ∧
        dispatchBatch = span (fun index => (index, args index)) (batchStart + launched.length)
          dispatchBatch.length ∧
        sent = span (fun index => (index, args index)) 0 (batchStart + launched.length)
  | .flushing offset dispatchBatch slots launched =>
      batchStart < count ∧ offset ≤ currentBatchSize plan count batchStart ∧
        offset = launched.length + dispatchBatch.length ∧ dispatchBatch ≠ [] ∧
        launched = span (fun index => oracle.dispatch (index, args index)) batchStart
          launched.length ∧
        dispatchBatch = span (fun index => (index, args index)) (batchStart + launched.length)
          dispatchBatch.length ∧
        sent = span (fun index => (index, args index)) 0 (batchStart + offset) ∧
        SlotsOf (fun slot => oracle.dispatch (batchStart + launched.length + slot,
          args (batchStart + launched.length + slot))) dispatchBatch.length slots
  | .gathering launched slots =>
      batchStart < count ∧ launched.length = currentBatchSize plan count batchStart ∧
        launched = span (fun index => oracle.dispatch (index, args index)) batchStart
          launched.length ∧
        sent = span (fun index => (index, args index)) 0 (batchStart + launched.length) ∧
        SlotsOf (fun slot => childOutcome plan oracle args (batchStart + slot)) launched.length
          slots
  | .finished => batchStart = count ∧ sent = span (fun index => (index, args index)) 0 count
  | .raised error =>
      error = .runtimeError "One or more child workflows failed" ∧ plan.failStrategy = .all ∧
        ∃ first, first < count ∧ (childOutcome plan oracle args first).isOk = false ∧
          (∀ index, index < first → (childOutcome plan oracle args index).isOk) ∧
          sent = span (fun index => (index, args index)) 0 (batchEnd plan count first)

/-- A bound on the steps that are left: a child costs ten at most, and what it
still costs gets less in every phase of its batch. -/
def stepsLeft (batchStart : Nat) : ChildLoopPhase Digest → Nat
  | .nextBatch => 10 * (count - batchStart) + 1
  | .preparing offset dispatchBatch launched =>
      10 * (count - (batchStart + currentBatchSize plan count batchStart)) + 3 +
        6 * (currentBatchSize plan count batchStart - offset) + 5 * dispatchBatch.length +
        2 * launched.length
  | .flushing offset dispatchBatch slots launched =>
      10 * (count - (batchStart + currentBatchSize plan count batchStart)) + 3 +
        6 * (currentBatchSize plan count batchStart - offset) + 3 * dispatchBatch.length +
        slots.countP Option.isNone + 2 * launched.length
  | .gathering _ slots =>
      10 * (count - (batchStart + currentBatchSize plan count batchStart)) + 2 +
        slots.countP Option.isNone
  | .finished => 0
  | .raised _ => 0

/-- What a run of the loop has done. -/
structure ChildLoopInv (events : List (ChildLoopEvent Digest)) (state : ChildLoopState Digest) :
    Prop where
  bound : state.batchStart ≤ count
  aligned : plan.logicalBatchSize count ∣ state.batchStart ∨ state.batchStart = count
  results : state.allResults =
    (span (childOutcome plan oracle args) 0 state.batchStart).map resultEntry
  passed : plan.failStrategy = .all → ∀ index, index < state.batchStart →
    (childOutcome plan oracle args index).isOk
  phase : PhaseInv plan oracle args count state.batchStart (dispatchedChildren events) state.phase
  steps : events.length + stepsLeft plan count state.batchStart state.phase ≤ 10 * count + 1

end

variable {plan : ChildLoopPlan} {oracle : ChildOracle Digest}
  {prepared : PreparedSubflowResult Digest} {args : Nat → ChildRunArgs Digest} {count : Nat}
  {events : List (ChildLoopEvent Digest)} {event : ChildLoopEvent Digest}
  {state next : ChildLoopState Digest}

theorem logicalBatchSize_pos : 0 < plan.logicalBatchSize count := by
  unfold ChildLoopPlan.logicalBatchSize
  omega

@[simp] theorem dispatchedChildren_cons :
    dispatchedChildren (event :: events) = dispatchedChildren events ++ event.children := by
  simp [dispatchedChildren]

theorem currentBatchSize_pos (plan : ChildLoopPlan) {batchStart : Nat} (hStart : batchStart < count) :
    0 < currentBatchSize plan count batchStart := by
  have hSize : 0 < plan.logicalBatchSize count := logicalBatchSize_pos
  rw [currentBatchSize]
  omega

theorem currentBatchSize_le (plan : ChildLoopPlan) {batchStart : Nat} (hStart : batchStart ≤ count) :
    batchStart + currentBatchSize plan count batchStart ≤ count := by
  rw [currentBatchSize]
  omega

/-- A batch ends at a multiple of the batch size or at the end of the loop. -/
theorem batchEnd_eq {batchStart index : Nat} (hStart : batchStart < count)
    (hAligned : plan.logicalBatchSize count ∣ batchStart ∨ batchStart = count)
    (hLow : batchStart ≤ index)
    (hHigh : index < batchStart + currentBatchSize plan count batchStart) :
    batchEnd plan count index = batchStart + currentBatchSize plan count batchStart := by
  have hSize : 0 < plan.logicalBatchSize count := logicalBatchSize_pos
  rw [batchEnd]
  rw [currentBatchSize] at hHigh ⊢
  generalize plan.logicalBatchSize count = size at *
  rcases hAligned with ⟨batches, rfl⟩ | rfl
  · have hDiv : index / size = batches := by
      apply Nat.div_eq_of_lt_le
      · rw [Nat.mul_comm]
        exact hLow
      · rw [Nat.add_mul, Nat.one_mul, Nat.mul_comm]
        omega
    rw [hDiv, Nat.add_mul, Nat.one_mul, Nat.mul_comm]
    omega
  · exact absurd hStart (Nat.lt_irrefl _)

namespace ChildLoopInv

theorem start : ChildLoopInv plan oracle args count [] {} where
  bound := Nat.zero_le _
  aligned := Or.inl (Nat.dvd_zero _)
  results := rfl
  passed _ index hIndex := absurd hIndex (Nat.not_lt_zero index)
  phase := rfl
  steps := by simp [stepsLeft]

theorem stay (hInv : ChildLoopInv plan oracle args count events state)
    {phase : ChildLoopPhase Digest}
    (hPhase : PhaseInv plan oracle args count state.batchStart
      (dispatchedChildren events ++ event.children) phase)
    (hLess : stepsLeft plan count state.batchStart phase <
      stepsLeft plan count state.batchStart state.phase) :
    ChildLoopInv plan oracle args count (event :: events) { state with phase := phase } where
  bound := hInv.bound
  aligned := hInv.aligned
  results := hInv.results
  passed := hInv.passed
  phase := by
    rw [dispatchedChildren_cons]
    exact hPhase
  steps := by
    have hSteps := hInv.steps
    rw [List.length_cons]
    simp only
    omega

theorem nextBatch (hInv : ChildLoopInv plan oracle args count events state)
    (hPhase : state.phase = .nextBatch) {slot : Nat}
    (hStep : childLoopStep plan oracle prepared count slot state = some (event, next)) :
    ChildLoopInv plan oracle args count (event :: events) next := by
  have hSent := hInv.phase
  rw [hPhase, PhaseInv] at hSent
  rw [childLoopStep, hPhase] at hStep
  simp only at hStep
  split_ifs at hStep with hMore
  · cases hStep
    apply hInv.stay
    · exact ⟨hMore, Nat.zero_le _, rfl, rfl, rfl, by simpa [ChildLoopEvent.children] using hSent⟩
    · have hSize := currentBatchSize_pos plan hMore
      have hEnd := currentBatchSize_le plan hInv.bound
      rw [hPhase]
      simp only [stepsLeft, List.length_nil]
      omega
  · cases hStep
    have hEnd : state.batchStart = count := Nat.le_antisymm hInv.bound (Nat.le_of_not_lt hMore)
    apply hInv.stay
    · refine ⟨hEnd, ?_⟩
      rw [← hEnd]
      simpa [ChildLoopEvent.children] using hSent
    · rw [hPhase]
      simp [stepsLeft]

theorem preparing (hArgs : ∀ index, index < count → buildRunArgs prepared index = .ok (args index))
    (hInv : ChildLoopInv plan oracle args count events state) {offset : Nat}
    {dispatchBatch : List (Nat × ChildRunArgs Digest)}
    {launched : List (Except ChildException (ChildHandle Digest))}
    (hPhase : state.phase = .preparing offset dispatchBatch launched) {slot : Nat}
    (hStep : childLoopStep plan oracle prepared count slot state = some (event, next)) :
    ChildLoopInv plan oracle args count (event :: events) next := by
  have hNow := hInv.phase
  rw [hPhase] at hNow
  obtain ⟨hStart, hOffset, hLength, hLaunched, hBatch, hSent⟩ := hNow
  rw [childLoopStep, hPhase] at hStep
  simp only at hStep
  split_ifs at hStep with hMore hNonempty
  · have hIndex : state.batchStart + offset < count := by
      have hLe := currentBatchSize_le plan hInv.bound
      omega
    rw [hArgs _ hIndex] at hStep
    simp only at hStep
    -- the batch with the next child
    have hGrown : dispatchBatch ++ [(state.batchStart + offset, args (state.batchStart + offset))] =
        span (fun index => (index, args index)) (state.batchStart + launched.length)
          (dispatchBatch.length + 1) := by
      rw [← span_concat, ← hBatch, hLength, Nat.add_assoc]
    split_ifs at hStep with hWindow
    · cases hStep
      refine hInv.stay ⟨hStart, hMore, ?_, ?_, hLaunched, ?_, ?_, ?_⟩ ?_
      · rw [List.length_append, List.length_singleton, hLength, Nat.add_assoc]
      · simp
      · rw [List.length_append, List.length_singleton, hGrown]
      · rw [ChildLoopEvent.children, hSent, hGrown]
        have hAppend := span_append (fun index => (index, args index)) 0
          (state.batchStart + launched.length) (dispatchBatch.length + 1)
        rw [Nat.zero_add] at hAppend
        rw [hAppend, hLength]
        congr 1
        omega
      · exact SlotsOf.empty _
      · rw [hPhase]
        simp only [stepsLeft, countP_isNone_map_none, List.length_append, List.length_singleton]
        omega
    · cases hStep
      refine hInv.stay ⟨hStart, hMore, ?_, hLaunched, ?_, ?_⟩ ?_
      · rw [List.length_append, List.length_singleton, hLength, Nat.add_assoc]
      · rw [List.length_append, List.length_singleton, hGrown]
      · simpa [ChildLoopEvent.children] using hSent
      · rw [hPhase]
        simp only [stepsLeft, List.length_append, List.length_singleton]
        omega
  · cases hStep
    refine hInv.stay ⟨hStart, hOffset, hLength, hNonempty, hLaunched, hBatch, ?_,
      SlotsOf.empty _⟩ ?_
    · rw [ChildLoopEvent.children, hSent]
      have hAppend := span_append (fun index => (index, args index)) 0
        (state.batchStart + launched.length) dispatchBatch.length
      rw [Nat.zero_add, ← hBatch] at hAppend
      rw [hAppend, hLength, Nat.add_assoc]
    · have hPos := List.length_pos_of_ne_nil hNonempty
      rw [hPhase]
      simp only [stepsLeft, countP_isNone_map_none]
      omega
  · cases hStep
    have hEmpty : dispatchBatch.length = 0 := by
      rw [not_not.mp hNonempty, List.length_nil]
    have hFull : launched.length = currentBatchSize plan count state.batchStart := by omega
    refine hInv.stay ⟨hStart, hFull, hLaunched,
      by simpa [ChildLoopEvent.children] using hSent, ?_⟩ ?_
    · cases hWait : plan.waitStrategy with
      | wait => exact SlotsOf.empty launched
      | detach =>
          apply SlotsOf.full
          intro place handle hHandle
          rw [hLaunched] at hHandle
          rw [(getElem?_span hHandle).1, childOutcome, hWait]
    · rw [hPhase, startGathering]
      cases plan.waitStrategy with
      | wait =>
          simp only [stepsLeft, countP_isNone_map_none]
          omega
      | detach =>
          simp only [stepsLeft, countP_isNone_map_some]
          omega

/-- In a flush: a start ends, or all have. -/
theorem flushing (hInv : ChildLoopInv plan oracle args count events state) {offset : Nat}
    {dispatchBatch : List (Nat × ChildRunArgs Digest)}
    {slots : Slots (Except ChildException (ChildHandle Digest))}
    {launched : List (Except ChildException (ChildHandle Digest))}
    (hPhase : state.phase = .flushing offset dispatchBatch slots launched) {slot : Nat}
    (hStep : childLoopStep plan oracle prepared count slot state = some (event, next)) :
    ChildLoopInv plan oracle args count (event :: events) next := by
  have hNow := hInv.phase
  rw [hPhase] at hNow
  obtain ⟨hStart, hOffset, hLength, hNonempty, hLaunched, hBatch, hSent, hSlots⟩ := hNow
  rw [childLoopStep, hPhase] at hStep
  simp only at hStep
  split_ifs at hStep with hAll
  · cases hStep
    have hGathered : slots.reduceOption = span (fun index => oracle.dispatch (index, args index))
        (state.batchStart + launched.length) dispatchBatch.length := by
      rw [hSlots.complete hAll, span, span]
      simp only [Nat.zero_add]
    have hGrown : launched ++ slots.reduceOption =
        span (fun index => oracle.dispatch (index, args index)) state.batchStart offset := by
      rw [hGathered, hLength, ← span_append, ← hLaunched]
    have hGrownLength : (launched ++ slots.reduceOption).length = offset := by
      rw [hGrown, length_span]
    refine hInv.stay ⟨hStart, hOffset, ?_, ?_, rfl, ?_⟩ ?_
    · rw [hGrownLength, List.length_nil, Nat.add_zero]
    · rw [hGrownLength, hGrown]
    · rw [hGrownLength]
      simpa [ChildLoopEvent.children] using hSent
    · have hPos := List.length_pos_of_ne_nil hNonempty
      rw [hPhase]
      simp only [stepsLeft, hGrownLength, List.length_nil]
      omega
  · obtain ⟨settled, hSettle, hResult⟩ := Option.bind_eq_some_iff.mp hStep
    cases hResult
    refine hInv.stay ⟨hStart, hOffset, hLength, hNonempty, hLaunched, hBatch,
      by simpa [ChildLoopEvent.children] using hSent, hSlots.settle ?_ hSettle⟩ ?_
    · intro value hValue
      obtain ⟨child, hChild, rfl⟩ := Option.map_eq_some_iff.mp hValue
      rw [hBatch] at hChild
      rw [(getElem?_span hChild).1]
    · have hLess := countP_isNone_settle hSettle
      rw [hPhase]
      simp only [stepsLeft]
      omega

theorem batch_failed (hInv : ChildLoopInv plan oracle args count events state)
    (hStart : state.batchStart < count) (hAll : plan.failStrategy = .all)
    {offset : Nat} (hOffset : offset < currentBatchSize plan count state.batchStart)
    (hFailed : (childOutcome plan oracle args (state.batchStart + offset)).isOk = false) :
    ∃ first, first < count ∧ (childOutcome plan oracle args first).isOk = false ∧
      (∀ index, index < first → (childOutcome plan oracle args index).isOk) ∧
      batchEnd plan count first =
        state.batchStart + currentBatchSize plan count state.batchStart := by
  have hExists : ∃ index, (childOutcome plan oracle args index).isOk = false := ⟨_, hFailed⟩
  have hLow : state.batchStart ≤ Nat.find hExists := by
    by_contra hBefore
    have hOk := hInv.passed hAll _ (Nat.lt_of_not_le hBefore)
    rw [Nat.find_spec hExists] at hOk
    cases hOk
  have hLeast : Nat.find hExists ≤ state.batchStart + offset := Nat.find_min' hExists hFailed
  have hEnd := currentBatchSize_le plan hInv.bound
  refine ⟨Nat.find hExists, by omega, Nat.find_spec hExists, fun index hIndex => ?_,
    batchEnd_eq hStart hInv.aligned hLow (by omega)⟩
  have hOk := Nat.find_min hExists hIndex
  rwa [Bool.not_eq_false] at hOk

theorem gathering (hInv : ChildLoopInv plan oracle args count events state)
    {launched : List (Except ChildException (ChildHandle Digest))}
    {slots : Slots (Except ChildException (StoredHandle Tree Digest))}
    (hPhase : state.phase = .gathering launched slots) {slot : Nat}
    (hStep : childLoopStep plan oracle prepared count slot state = some (event, next)) :
    ChildLoopInv plan oracle args count (event :: events) next := by
  have hNow := hInv.phase
  rw [hPhase] at hNow
  obtain ⟨hStart, hFull, hLaunched, hSent, hSlots⟩ := hNow
  rw [childLoopStep, hPhase] at hStep
  simp only at hStep
  split_ifs at hStep with hAll
  · cases hStep
    have hGathered : slots.reduceOption = span (childOutcome plan oracle args) state.batchStart
        (currentBatchSize plan count state.batchStart) := by
      rw [hSlots.complete hAll, hFull, span, span]
      simp only [Nat.zero_add]
    rw [hFull] at hSent
    rw [finishBatch, hGathered]
    split_ifs with hFail
    · -- under `fail_strategy` all, this batch is the last one
      obtain ⟨hStrategy, hAny⟩ := hFail
      obtain ⟨result, hMem, hResult⟩ := List.any_eq_true.mp hAny
      obtain ⟨offset, hOffset, rfl⟩ := mem_span.mp hMem
      obtain ⟨first, hFirst, hFailed, hBefore, hEnd⟩ :=
        hInv.batch_failed hStart hStrategy hOffset (by simpa using hResult)
      refine hInv.stay ⟨rfl, hStrategy, first, hFirst, hFailed, hBefore, ?_⟩ ?_
      · rw [hEnd]
        simpa [ChildLoopEvent.children] using hSent
      · rw [hPhase]
        simp [stepsLeft]
    · have hEnd := currentBatchSize_le plan hInv.bound
      refine
        { bound := hEnd
          aligned := ?_
          results := ?_
          passed := ?_
          phase := ?_
          steps := ?_ }
      · rcases hInv.aligned with hDvd | hLast
        · by_cases hWhole : plan.logicalBatchSize count ≤ count - state.batchStart
          · rw [currentBatchSize, Nat.min_eq_left hWhole]
            exact Or.inl ((Nat.dvd_add_right hDvd).mpr (Nat.dvd_refl _))
          · rw [currentBatchSize, Nat.min_eq_right (Nat.le_of_not_le hWhole)]
            exact Or.inr (Nat.add_sub_cancel' hInv.bound)
        · exact absurd hStart (hLast ▸ Nat.lt_irrefl _)
      · have hAppend := span_append (childOutcome plan oracle args) 0 state.batchStart
          (currentBatchSize plan count state.batchStart)
        rw [Nat.zero_add] at hAppend
        rw [hInv.results, ← List.map_append, hAppend]
      · intro hStrategy index hIndex
        rcases Nat.lt_or_ge index state.batchStart with hBefore | hInside
        · exact hInv.passed hStrategy index hBefore
        · by_contra hNot
          apply hFail
          refine ⟨hStrategy, List.any_eq_true.mpr ⟨childOutcome plan oracle args index, ?_, ?_⟩⟩
          · have hOffset : index - state.batchStart <
                currentBatchSize plan count state.batchStart := by
              have hHigh : index < state.batchStart +
                currentBatchSize plan count state.batchStart := hIndex
              omega
            exact mem_span.mpr ⟨_, hOffset, by rw [Nat.add_sub_cancel' hInside]⟩
          · simpa using hNot
      · rw [dispatchedChildren_cons]
        simpa [PhaseInv, ChildLoopEvent.children] using hSent
      · have hSteps := hInv.steps
        rw [hPhase] at hSteps
        simp only [stepsLeft, List.length_cons] at hSteps ⊢
        omega
  · obtain ⟨settled, hSettle, hResult⟩ := Option.bind_eq_some_iff.mp hStep
    cases hResult
    refine hInv.stay ⟨hStart, hFull, hLaunched, by simpa [ChildLoopEvent.children] using hSent,
      hSlots.settle ?_ hSettle⟩ ?_
    · intro value hValue
      obtain ⟨handle, hHandle, rfl⟩ := Option.map_eq_some_iff.mp hValue
      rw [hLaunched] at hHandle
      rw [(getElem?_span hHandle).1, childOutcome]
    · have hLess := countP_isNone_settle hSettle
      rw [hPhase]
      simp only [stepsLeft]
      omega

theorem step (hArgs : ∀ index, index < count → buildRunArgs prepared index = .ok (args index))
    (hInv : ChildLoopInv plan oracle args count events state)
    (hStep : ChildLoopStep plan oracle prepared count state event next) :
    ChildLoopInv plan oracle args count (event :: events) next := by
  obtain ⟨slot, hStep⟩ := hStep
  cases hPhase : state.phase with
  | nextBatch => exact hInv.nextBatch hPhase hStep
  | preparing offset dispatchBatch launched => exact hInv.preparing hArgs hPhase hStep
  | flushing offset dispatchBatch slots launched => exact hInv.flushing hPhase hStep
  | gathering launched slots => exact hInv.gathering hPhase hStep
  | finished => simp [childLoopStep, hPhase] at hStep
  | raised error => simp [childLoopStep, hPhase] at hStep

theorem of_run (hArgs : ∀ index, index < count → buildRunArgs prepared index = .ok (args index))
    (hRun : Run (ChildLoopStep plan oracle prepared count) {} events state) :
    ChildLoopInv plan oracle args count events state :=
  hRun.invariant (ChildLoopInv plan oracle args count) start
    fun _ hInv hTaken => hInv.step hArgs hTaken

theorem sent_eq (hInv : ChildLoopInv plan oracle args count events state) :
    ∃ sent, sent ≤ count ∧
      dispatchedChildren events = span (fun index => (index, args index)) 0 sent := by
  have hPhase := hInv.phase
  have hEnd := currentBatchSize_le plan hInv.bound
  cases hCase : state.phase with
  | nextBatch =>
      rw [hCase] at hPhase
      exact ⟨_, hInv.bound, hPhase⟩
  | preparing offset dispatchBatch launched =>
      rw [hCase] at hPhase
      obtain ⟨_, hOffset, hLength, _, _, hSent⟩ := hPhase
      exact ⟨_, by omega, hSent⟩
  | flushing offset dispatchBatch slots launched =>
      rw [hCase] at hPhase
      obtain ⟨_, hOffset, _, _, _, _, hSent, _⟩ := hPhase
      exact ⟨_, by omega, hSent⟩
  | gathering launched slots =>
      rw [hCase] at hPhase
      obtain ⟨_, hFull, _, hSent, _⟩ := hPhase
      exact ⟨_, by omega, hSent⟩
  | finished =>
      rw [hCase] at hPhase
      exact ⟨count, Nat.le_refl _, hPhase.2⟩
  | raised error =>
      rw [hCase] at hPhase
      obtain ⟨_, _, first, _, _, _, hSent⟩ := hPhase
      exact ⟨_, Nat.min_le_left _ _, hSent⟩

theorem proceeds (hArgs : ∀ index, index < count → buildRunArgs prepared index = .ok (args index))
    (hInv : ChildLoopInv plan oracle args count events state) (hNot : ¬ state.Done) :
    ∃ event next, ChildLoopStep plan oracle prepared count state event next := by
  have hPhase := hInv.phase
  suffices hSome : ∃ slot, (childLoopStep plan oracle prepared count slot state).isSome by
    obtain ⟨slot, hSlot⟩ := hSome
    obtain ⟨⟨event, next⟩, hStep⟩ := Option.isSome_iff_exists.mp hSlot
    exact ⟨event, next, slot, hStep⟩
  cases hCase : state.phase with
  | nextBatch =>
      refine ⟨0, ?_⟩
      simp only [childLoopStep, hCase]
      split_ifs <;> rfl
  | preparing offset dispatchBatch launched =>
      rw [hCase] at hPhase
      have hEnd := currentBatchSize_le plan hInv.bound
      refine ⟨0, ?_⟩
      simp only [childLoopStep, hCase]
      split_ifs with hMore
      · rw [hArgs _ (by omega)]
        simp only
        split_ifs <;> rfl
      · rfl
      · rfl
  | flushing offset dispatchBatch slots launched =>
      rw [hCase] at hPhase
      obtain ⟨_, _, _, _, _, _, _, hSlots⟩ := hPhase
      by_cases hAll : slots.all Option.isSome
      · refine ⟨0, ?_⟩
        simp only [childLoopStep, hCase, if_pos hAll]
        rfl
      · obtain ⟨slot, hSlot, hEmpty⟩ := hSlots.exists_empty hAll
        refine ⟨slot, ?_⟩
        simp only [childLoopStep, hCase, if_neg hAll]
        rw [List.getElem?_eq_getElem hSlot, Option.map_some, settleSlot_of_empty hEmpty]
        rfl
  | gathering launched slots =>
      rw [hCase] at hPhase
      obtain ⟨_, _, _, _, hSlots⟩ := hPhase
      by_cases hAll : slots.all Option.isSome
      · refine ⟨0, ?_⟩
        simp only [childLoopStep, hCase, if_pos hAll]
        rfl
      · obtain ⟨slot, hSlot, hEmpty⟩ := hSlots.exists_empty hAll
        refine ⟨slot, ?_⟩
        simp only [childLoopStep, hCase, if_neg hAll]
        rw [List.getElem?_eq_getElem hSlot, Option.map_some, settleSlot_of_empty hEmpty]
        rfl
  | finished => exact absurd (by rw [ChildLoopState.Done, hCase]; trivial) hNot
  | raised error => exact absurd (by rw [ChildLoopState.Done, hCase]; trivial) hNot

end ChildLoopInv

/-- What the loop gives when its children are run one after another: the result
or the error of every child, or, under `fail_strategy` all, the exception when
one of them fails. -/
def sequentialOutcome (plan : ChildLoopPlan) (oracle : ChildOracle Digest)
    (args : Nat → ChildRunArgs Digest) (count : Nat) :
    Except ChildLoopError (List (StoredHandle Tree Digest)) :=
  let outcomes := span (childOutcome plan oracle args) 0 count
  if plan.failStrategy = .all ∧ outcomes.any (fun outcome => !outcome.isOk) then
    .error (.runtimeError "One or more child workflows failed")
  else
    .ok (outcomes.map resultEntry)

variable {Bytes : Type} [DecidableEq Digest]

/-- A run of a prepared loop is the sequential map over its children, where the
child of an index has these arguments. -/
structure SequentialMap (codec : BlobCodec Tree Bytes Digest)
    (own : Nat → Option (Tree × DSLConfig)) (count : Nat) (plan : ChildLoopPlan)
    (oracle : ChildOracle Digest) (prepared : PreparedSubflowResult Digest)
    (uploads : List (Upload Bytes)) (args : Nat → ChildRunArgs Digest) : Prop where
  total : prepared.count = .ok count
  received : ∀ index, index < count → buildRunArgs prepared index = .ok (args index) ∧
    ∃ triggerInput handle, own index = some (triggerInput, (args index).runtimeConfig) ∧
      (args index).triggerInputs = some handle ∧
      ∀ read, codec.Reads read uploads → codec.retrieve read handle = .ok (.one triggerInput)
  dispatched : ∀ {events state}, Run (ChildLoopStep plan oracle prepared count) {} events state →
    ∃ sent, sent ≤ count ∧
      dispatchedChildren events = span (fun index => (index, args index)) 0 sent
  finished : ∀ {events state}, Run (ChildLoopStep plan oracle prepared count) {} events state →
    state.phase = .finished →
      dispatchedChildren events = span (fun index => (index, args index)) 0 count
  stopped : ∀ {events state error},
    Run (ChildLoopStep plan oracle prepared count) {} events state →
    state.phase = .raised error → plan.failStrategy = .all ∧ ∃ first, first < count ∧
      (childOutcome plan oracle args first).isOk = false ∧
      (∀ index, index < first → (childOutcome plan oracle args index).isOk) ∧
      dispatchedChildren events =
        span (fun index => (index, args index)) 0 (batchEnd plan count first)
  returns : ∀ {events state}, Run (ChildLoopStep plan oracle prepared count) {} events state →
    state.Done → state.outcome = some (sequentialOutcome plan oracle args count)
  sameAsSequential : ∀ {events state events' state'},
    Run (ChildLoopStep plan oracle prepared count) {} events state → state.Done →
    Run (ChildLoopStep { plan with loopStrategy := .sequential } oracle prepared count) {}
      events' state' → state'.Done → state.outcome = state'.outcome
  stored : ∀ {events state}, Run (ChildLoopStep plan oracle prepared count) {} events state →
    state.phase = .finished → ∀ config key read read' collection more,
      synchronizeCollection codec config read key state.allResults = .ok (collection, more) →
      codec.Reads read' more → ∃ values, codec.retrieve read' collection = .ok (.many values) ∧
        values.length = count ∧ ∀ index, index < count → ∃ data,
          codec.retrieve read (resultEntry (childOutcome plan oracle args index)) = .ok data ∧
            values[index]? = some data.tree
  proceeds : ∀ {events state}, Run (ChildLoopStep plan oracle prepared count) {} events state →
    ¬ state.Done → ∃ event next, ChildLoopStep plan oracle prepared count state event next
  ends : ∀ {events state}, Run (ChildLoopStep plan oracle prepared count) {} events state →
    events.length ≤ 10 * count + 1

/-- What the preparation of a loop gives is run as the sequential map, where a
child gets what its index gets by itself. -/
def RunsAsMap (codec : BlobCodec Tree Bytes Digest) (config : StorageConfig) (key : String)
    (evaluate : EvaluateArgs) (dslConfig : DSLConfig) (input : LoopInput Scalar)
    (plan : ChildLoopPlan) (oracle : ChildOracle Digest) : Prop :=
  ∀ prepared uploads, prepareSubflow codec config key evaluate dslConfig input =
    .ok (prepared, uploads) →
    ∃ args, SequentialMap codec (ownIteration evaluate dslConfig input) input.rows.length plan
      oracle prepared uploads args

/-! ## The sequential map -/

namespace ChildLoopInv

omit [DecidableEq Digest] in
theorem outcome_eq (hInv : ChildLoopInv plan oracle args count events state)
    (hDone : state.Done) : state.outcome = some (sequentialOutcome plan oracle args count) := by
  have hPhase := hInv.phase
  rw [ChildLoopState.outcome]
  rw [ChildLoopState.Done] at hDone
  cases hCase : state.phase with
  | nextBatch => rw [hCase] at hDone; exact hDone.elim
  | preparing offset dispatchBatch launched => rw [hCase] at hDone; exact hDone.elim
  | flushing offset dispatchBatch slots launched => rw [hCase] at hDone; exact hDone.elim
  | gathering launched slots => rw [hCase] at hDone; exact hDone.elim
  | finished =>
      rw [hCase] at hPhase
      have hNone : ¬ (plan.failStrategy = .all ∧
          (span (childOutcome plan oracle args) 0 count).any fun outcome => !outcome.isOk) := by
        rintro ⟨hStrategy, hAny⟩
        obtain ⟨outcome, hMem, hFailed⟩ := List.any_eq_true.mp hAny
        obtain ⟨offset, hOffset, rfl⟩ := mem_span.mp hMem
        rw [Nat.zero_add] at hFailed
        rw [← hPhase.1] at hOffset
        rw [hInv.passed hStrategy offset hOffset] at hFailed
        cases hFailed
      rw [sequentialOutcome, if_neg hNone]
      simp only
      rw [hInv.results, hPhase.1]
  | raised error =>
      rw [hCase] at hPhase
      obtain ⟨rfl, hStrategy, first, hFirst, hFailed, _, _⟩ := hPhase
      have hAny : (span (childOutcome plan oracle args) 0 count).any
          fun outcome => !outcome.isOk :=
        List.any_eq_true.mpr ⟨childOutcome plan oracle args first,
          mem_span.mpr ⟨first, hFirst, by rw [Nat.zero_add]⟩, by simp [hFailed]⟩
      rw [sequentialOutcome, if_pos ⟨hStrategy, hAny⟩]

end ChildLoopInv

theorem synchronizeCollection_ok {codec : BlobCodec Tree Bytes Digest} {config : StorageConfig}
    {key : String} {read read' : ObjectRef Digest → Option Bytes}
    {entries : List (StoredHandle Tree Digest)} {collection : StoredHandle Tree Digest}
    {more : List (Upload Bytes)}
    (hSync : synchronizeCollection codec config read key entries = .ok (collection, more))
    (hReads : codec.Reads read' more) :
    ∃ values : List Tree, codec.retrieve read' collection = .ok (.many values) ∧
      values.length = entries.length ∧ ∀ (index : Nat) entry, entries[index]? = some entry →
        ∃ data, codec.retrieve read entry = .ok data ∧ values[index]? = some data.tree := by
  obtain ⟨found, hFound, hStored⟩ := Checks.bind_eq_ok.mp hSync
  rw [Except.ok.injEq] at hStored
  have hAll := Checks.mapM_eq_ok_iff.mp hFound
  refine ⟨found.map StoredData.tree, ?_, ?_, fun index entry hEntry => ?_⟩
  · have hUploads := congrArg Prod.snd hStored
    have hHandle := congrArg Prod.fst hStored
    simp only at hUploads hHandle
    rw [← hHandle]
    exact BlobCodec.retrieve_storeList (hUploads ▸ hReads)
  · rw [List.length_map, hAll.length_eq]
  · obtain ⟨hLength, hGet⟩ := List.getElem?_eq_some_iff.mp hEntry
    have hFoundLength : index < found.length := hAll.length_eq ▸ hLength
    have hRetrieve := (List.forall₂_iff_get.mp hAll).2 index hLength hFoundLength
    rw [List.get_eq_getElem, List.get_eq_getElem, hGet] at hRetrieve
    exact ⟨found[index], hRetrieve, by simp [hFoundLength]⟩

def preparedArgs (prepared : PreparedSubflowResult Digest) (index : Nat) : ChildRunArgs Digest :=
  match buildRunArgs prepared index with
  | .ok args => args
  | .error _ => ⟨none, {}⟩

theorem HandsOut.buildRunArgs_eq {codec : BlobCodec Tree Bytes Digest}
    {own : Nat → Option (Tree × DSLConfig)} {uploads : List (Upload Bytes)}
    (hHands : HandsOut codec own count prepared uploads) {index : Nat} (hIndex : index < count) :
    buildRunArgs prepared index = .ok (preparedArgs prepared index) ∧
      ∃ triggerInput handle,
        own index = some (triggerInput, (preparedArgs prepared index).runtimeConfig) ∧
          (preparedArgs prepared index).triggerInputs = some handle ∧
          ∀ read, codec.Reads read uploads → codec.retrieve read handle = .ok (.one triggerInput) := by
  obtain ⟨triggerInput, config, handle, hOwn, hHandle, hConfig, hRead⟩ := hHands.child index hIndex
  have hBuild : buildRunArgs prepared index = .ok ⟨some handle, config⟩ := by
    rw [buildRunArgs, hHandle, hConfig]
    rfl
  have hArgs : preparedArgs prepared index = ⟨some handle, config⟩ := by
    rw [preparedArgs, hBuild]
  rw [hArgs]
  exact ⟨hBuild, triggerInput, handle, hOwn, rfl, hRead⟩

/-- A child workflow loop is the sequential map: for every strategy, batch size,
window, failing or waiting strategy and order of the children, when the base
context has no loop variables and none is set inside another. -/
theorem childLoop_runsAsMap (codec : BlobCodec Tree Bytes Digest) (config : StorageConfig)
    (key : String) (evaluate : EvaluateArgs) (dslConfig : DSLConfig) (input : LoopInput Scalar)
    (plan : ChildLoopPlan) (oracle : ChildOracle Digest) (hIndependent : input.Independent) :
    RunsAsMap codec config key evaluate dslConfig input plan oracle := by
  intro prepared uploads hPrepare
  have hHands := prepareSubflow_handsOut hIndependent hPrepare
  have hArgs : ∀ index, index < input.rows.length →
      buildRunArgs prepared index = .ok (preparedArgs prepared index) :=
    fun index hIndex => (hHands.buildRunArgs_eq hIndex).1
  refine ⟨preparedArgs prepared, ?_⟩
  refine
    { total := hHands.total
      received := fun index hIndex => hHands.buildRunArgs_eq hIndex
      dispatched := fun hRun => (ChildLoopInv.of_run hArgs hRun).sent_eq
      finished := ?_
      stopped := ?_
      returns := fun hRun hDone => (ChildLoopInv.of_run hArgs hRun).outcome_eq hDone
      sameAsSequential := ?_
      stored := ?_
      proceeds := fun hRun hNot => (ChildLoopInv.of_run hArgs hRun).proceeds hArgs hNot
      ends := ?_ }
  · intro events state hRun hPhase
    have hInv := (ChildLoopInv.of_run hArgs hRun).phase
    rw [hPhase] at hInv
    exact hInv.2
  · intro events state error hRun hPhase
    have hInv := (ChildLoopInv.of_run hArgs hRun).phase
    rw [hPhase] at hInv
    exact hInv.2
  · intro events state events' state' hRun hDone hRun' hDone'
    rw [(ChildLoopInv.of_run hArgs hRun).outcome_eq hDone,
      (ChildLoopInv.of_run hArgs hRun').outcome_eq hDone']
    rfl
  · intro events state hRun hPhase storage storageKey read read' collection more hSync hReads
    have hInv := ChildLoopInv.of_run hArgs hRun
    have hEnd := hInv.phase
    rw [hPhase] at hEnd
    rw [hInv.results, hEnd.1] at hSync
    obtain ⟨values, hValues, hLength, hEntries⟩ := synchronizeCollection_ok hSync hReads
    rw [List.length_map, length_span] at hLength
    refine ⟨values, hValues, hLength, fun index hIndex => hEntries index _ ?_⟩
    rw [List.getElem?_map, span, List.getElem?_map, List.getElem?_range hIndex]
    simp
  · intro events state hRun
    have hSteps := (ChildLoopInv.of_run hArgs hRun).steps
    omega

namespace ChildLoopSample

open SampleLoop

/-- Documents as they are; nothing is uploaded, so nothing is hashed. -/
def inlineCodec : BlobCodec Tree (Document Tree Unit) Unit where
  serialize := id
  deserialize := some
  size := fun _ => 1
  sha256 := fun _ => ()
  deserialize_serialize := fun _ => rfl

def inlineConfig : StorageConfig := ⟨false, 0, 2, Nat.two_pos⟩

def loop (second : AttributePath) : LoopInput Scalar := input (.int 1) (.int 2) second

/-- The arguments pass `TRIGGER` on. -/
def passTrigger : EvaluateArgs := fun _ _ => .ok { triggerInputs := .object [.key "TRIGGER"] }

def batches : ChildLoopPlan := { dispatchWindow := 16 }

def echo : ChildOracle Unit where
  start _ _ := .ok "child"
  result _ args := .ok (args.triggerInputs.getD (.inlineList []))

end ChildLoopSample

open ChildLoopSample SampleLoop in
theorem childLoop_disjoint_runsAsMap :
    RunsAsMap inlineCodec inlineConfig "key" passTrigger {} (loop pathB)
      batches echo :=
  childLoop_runsAsMap inlineCodec inlineConfig "key" passTrigger {} (loop pathB)
    batches echo ⟨rfl, by decide⟩

open ChildLoopSample SampleLoop in
/-- `var.a.b` is set in the dictionaries that `TRIGGER` holds: the first child
gets what the second iteration sets. -/
theorem childLoop_nested_not_runsAsMap :
    ¬ RunsAsMap inlineCodec inlineConfig "key" passTrigger {} (loop pathAB)
      batches echo := by
  intro hMap
  -- at the end of both iterations, `TRIGGER[1]` has what the second one sets
  obtain ⟨first, second, heap, hIterations, hFirst, hEnd⟩ : ∃ first second heap,
      evaluateIterations passTrigger {} (loop pathAB).base 0 (loop pathAB).rows (loop pathAB).heap =
        .ok ([first, second], heap) ∧ first.triggerInputs = .object [.key "TRIGGER"] ∧
      ((first.object [.key "TRIGGER"]).bind fun ref => heap.view ref [.index 1]) =
        some (.dict ["b"]) :=
    ⟨_, _, _, rfl, rfl, by decide⟩
  obtain ⟨⟨own, alone⟩, hAlone, hAloneView⟩ : ∃ found, (loop pathAB).aloneContext 0 = some found ∧
      found.2.view found.1 [.key "TRIGGER", .index 1] = some (.dict []) :=
    ⟨_, rfl, by decide⟩
  obtain ⟨prepared, hPrepare, hHandle⟩ : ∃ prepared, prepareSubflow inlineCodec inlineConfig "key"
      passTrigger {} (loop pathAB) = .ok (prepared, []) ∧
      prepared.getTriggerInputAt 0 = .ok (some (.item (.inline (first.read heap)))) := by
    rw [prepareSubflow, evaluateLoopIterations, if_neg (by decide), hIterations]
    exact ⟨_, rfl, rfl⟩
  obtain ⟨args, hSequential⟩ := hMap prepared [] hPrepare
  obtain ⟨hBuild, triggerInput, handle, hOwn, hGiven, hRead⟩ := hSequential.received 0 (by decide)
  have hTrigger : handle = .item (.inline (first.read heap)) := by
    obtain ⟨trigger, hInput, hRest⟩ := Checks.bind_eq_ok.mp hBuild
    rw [hHandle, Except.ok.injEq] at hInput
    obtain ⟨runtimeConfig, _, hArgs⟩ := Checks.bind_eq_ok.mp hRest
    rw [Except.ok.injEq] at hArgs
    rw [← hArgs, ← hInput, Option.some.injEq] at hGiven
    exact hGiven.symm
  have hSame := hRead (fun _ => none) (by intro upload hUpload; cases hUpload)
  rw [hTrigger] at hSame
  have hEq : first.read heap = triggerInput := StoredData.one.inj (Except.ok.inj hSame)
  have hOwnTree : triggerInput [.index 1] = some (.dict []) := by
    rw [ownIteration, hAlone, Option.bind_some] at hOwn
    simp only [passTrigger, Evaluated.tree, Option.some.injEq, Prod.mk.injEq] at hOwn
    rw [← hOwn.1]
    exact ObjectHeap.view_append.symm.trans hAloneView
  rw [← hEq, SubflowIteration.read, hFirst, Evaluated.tree, hEnd] at hOwnTree
  simp at hOwnTree

end Tracecat
