import Mathlib.Data.List.Nodup
import Tracecat.Executor.ForEach

/-!
# `for_each` as an ordered map

Whatever the order of the workers, the loop gives what one gets by patching the
base context for every index by itself, invoking it, and collecting the outcomes
in the order of the indices.
-/

namespace Tracecat
namespace Executor

open ObjectHeap

variable {Atom Result Detail : Type}

/-- The indices that a run invoked, newest first. -/
def invocations (events : List LoopEvent) : List Nat :=
  events.filterMap fun
    | .invoked _ index _ => some index
    | _ => none

def errorOf : Except (ExecutionError Detail) Result → Option (ExecutionError Detail)
  | .error error => some error
  | .ok _ => none

section

variable (input : LoopInput Atom)

/-- The outcome of one index by itself. -/
def aloneOutcome (attempt : Nat → Attempt Result Detail) (index : Nat) :
    Except (ExecutionError Detail) Result :=
  invokeOnce index
    ((input.aloneContext index).bind fun alone => loopVarsOf alone.2 alone.1) (attempt index)

/-- The results of all indices in their order, or the errors of the failing
indices in their order. -/
def mapOutcome (attempt : Nat → Attempt Result Detail) :
    Except (DispatchError Detail) (List Result) :=
  let outcomes := (List.range input.rows.length).map (aloneOutcome input attempt)
  let errors := outcomes.filterMap errorOf
  if errors = [] then
    .ok (outcomes.filterMap Except.toOption)
  else
    .error (.loopExecutionError errors)

/-- The loop is an ordered map, in every run. -/
structure OrderedMap (configured : Nat) (attempt : Nat → Attempt Result Detail) : Prop where
  isolated : ∀ {events state}, Run (Step input attempt) (loopStart input Result Detail configured)
    events state → ∀ {worker index context}, .invoked worker index context ∈ events →
      ∃ own heap, input.aloneContext index = some (own, heap) ∧
        state.heap.view context = heap.view own
  once : ∀ {events state}, Run (Step input attempt) (loopStart input Result Detail configured)
    events state → (invocations events).Nodup
  every : ∀ {events state}, Run (Step input attempt) (loopStart input Result Detail configured)
    events state → state.Done → ∀ index, index ∈ invocations events ↔ index < input.rows.length
  returns : ∀ {events state}, Run (Step input attempt) (loopStart input Result Detail configured)
    events state → state.Done → state.outcome = mapOutcome input attempt
  proceeds : ∀ {events state}, Run (Step input attempt) (loopStart input Result Detail configured)
    events state → ¬ state.Done → ∃ event next, Step input attempt state event next
  ends : ∀ {events state}, Run (Step input attempt) (loopStart input Result Detail configured)
    events state → events.length ≤ 2 * input.rows.length + max 1 configured

end

/-! ## The invariant -/

def LoopWorker.isRunning : LoopWorker → Bool
  | running _ _ => true
  | _ => false

def LoopWorker.isStopped : LoopWorker → Bool
  | stopped => true
  | _ => false


/-- What the run has done so far. -/
structure LoopInv (input : LoopInput Atom) (configured : Nat)
    (attempt : Nat → Attempt Result Detail) (events : List LoopEvent)
    (state : LoopState Atom Result Detail) : Prop where
  live : state.crashed = none
  count : state.iterationCount = state.position
  bound : state.position ≤ input.rows.length
  workers : state.workers.length = max 1 configured
  heap : LoopHeap input state.position state.heap
  order : invocations events = (List.range state.position).reverse
  invoked : ∀ worker index context, .invoked worker index context ∈ events →
    index < state.position ∧ ∃ heap, input.aloneContext index = some (context, heap)
  running : ∀ (worker index : Nat) (context : HeapRef LoopArena),
    state.workers[worker]? = some (.running index context) →
    index < state.position ∧ ∃ heap, input.aloneContext index = some (context, heap)
  results : ∀ index result, state.results.lookup index = some result →
    index < state.position ∧ aloneOutcome input attempt index = .ok result
  errors : ∀ index error, state.loopErrors.lookup index = some error →
    index < state.position ∧ aloneOutcome input attempt index = .error error
  keys : (state.loopErrors.map Prod.fst).Nodup
  recorded : ∀ index, index < state.position →
    (∃ worker : Nat, ∃ context, state.workers[worker]? = some (.running index context)) ∨
      (state.results.lookup index).isSome ∨ (state.loopErrors.lookup index).isSome
  exhausted : .stopped ∈ state.workers → state.position = input.rows.length
  steps : events.length + state.workers.countP LoopWorker.isRunning =
    2 * state.position + state.workers.countP LoopWorker.isStopped

namespace LoopInv

variable {input : LoopInput Atom} {configured : Nat} {attempt : Nat → Attempt Result Detail}
  {events : List LoopEvent} {state next : LoopState Atom Result Detail}

theorem start : LoopInv input configured attempt [] (loopStart input Result Detail configured) where
  live := rfl
  count := rfl
  bound := Nat.zero_le _
  workers := List.length_replicate
  heap := .start
  order := rfl
  invoked _ _ _ hMem := by cases hMem
  running worker index context hWorker := by
    have hMem := List.mem_of_getElem? hWorker
    cases List.eq_of_mem_replicate hMem
  results _ _ hLookup := by cases hLookup
  errors _ _ hLookup := by cases hLookup
  keys := List.nodup_nil
  recorded index hIndex := absurd hIndex (Nat.not_lt_zero index)
  exhausted hMem := by cases List.eq_of_mem_replicate hMem
  steps := by simp [loopStart, List.countP_replicate, LoopWorker.isRunning,
    LoopWorker.isStopped]

theorem getElem?_set_worker {workers : List LoopWorker} {worker other : Nat}
    {old moved found : LoopWorker} (hOld : workers[worker]? = some old)
    (hFound : (workers.set worker moved)[other]? = some found) :
    found = moved ∧ other = worker ∨ workers[other]? = some found ∧ other ≠ worker := by
  obtain ⟨hLength, _⟩ := List.getElem?_eq_some_iff.mp hOld
  rw [List.getElem?_set] at hFound
  by_cases hOther : worker = other
  · rw [if_pos hOther, if_pos hLength, Option.some.injEq] at hFound
    exact Or.inl ⟨hFound.symm, hOther.symm⟩
  · rw [if_neg hOther] at hFound
    exact Or.inr ⟨hFound, Ne.symm hOther⟩

theorem countP_set_worker {workers : List LoopWorker} {worker : Nat} {old : LoopWorker}
    (test : LoopWorker → Bool) (moved : LoopWorker) (hOld : workers[worker]? = some old) :
    (workers.set worker moved).countP test + (if test old then 1 else 0) =
      workers.countP test + (if test moved then 1 else 0) := by
  obtain ⟨hLength, hGet⟩ := List.getElem?_eq_some_iff.mp hOld
  rw [List.countP_set hLength, hGet]
  have hCounted : (if test old then 1 else 0) ≤ workers.countP test := by
    split_ifs with hTest
    · exact List.countP_pos_iff.mpr ⟨old, List.mem_of_getElem? hOld, hTest⟩
    · exact Nat.zero_le _
  omega

theorem running_set {worker : Nat} {moved : LoopWorker} {index : Nat}
    (hReady : state.workers[worker]? = some .ready)
    (hRunning : ∃ other : Nat, ∃ context, state.workers[other]? = some (.running index context)) :
    ∃ other : Nat, ∃ context,
      (state.workers.set worker moved)[other]? = some (.running index context) := by
  obtain ⟨other, context, hOther⟩ := hRunning
  refine ⟨other, context, ?_⟩
  have hNe : worker ≠ other := by
    rintro rfl
    rw [hReady] at hOther
    cases hOther
  rw [List.getElem?_set_ne hNe, hOther]

section

variable (hInv : LoopInv input configured attempt events state)
include hInv

theorem exhaust {worker : Nat} (hReady : state.workers[worker]? = some .ready)
    (hRow : input.rows[state.position]? = none) :
    LoopInv input configured attempt (.exhausted worker :: events)
      { state with workers := state.workers.set worker .stopped } where
  live := hInv.live
  count := hInv.count
  bound := hInv.bound
  workers := by rw [List.length_set, hInv.workers]
  heap := hInv.heap
  order := hInv.order
  invoked other index context hMem := by
    rcases List.mem_cons.mp hMem with hEvent | hMem
    · cases hEvent
    · exact hInv.invoked other index context hMem
  running other index context hOther := by
    rcases getElem?_set_worker hReady hOther with ⟨hMoved, _⟩ | ⟨hOld, _⟩
    · cases hMoved
    · exact hInv.running other index context hOld
  results := hInv.results
  errors := hInv.errors
  keys := hInv.keys
  recorded index hIndex := (hInv.recorded index hIndex).imp_left (running_set hReady)
  exhausted _ := Nat.le_antisymm hInv.bound (List.getElem?_eq_none_iff.mp hRow)
  steps := by
    have hSteps := hInv.steps
    have hRunning := countP_set_worker LoopWorker.isRunning .stopped hReady
    have hStopped := countP_set_worker LoopWorker.isStopped .stopped hReady
    simp only [LoopWorker.isRunning, LoopWorker.isStopped] at hRunning hStopped
    simp only [List.length_cons]
    simp at hRunning hStopped
    omega

theorem pull (hIndependent : input.Independent) {worker : Nat} {items : LoopRow LoopArena}
    (hReady : state.workers[worker]? = some .ready)
    (hRow : input.rows[state.position]? = some items) :
    ∃ context heap, patchedContext state.heap (some state.position) input.base items =
        .ok (context, heap) ∧
      LoopInv input configured attempt (.invoked worker state.position context :: events)
        { state with
          heap := heap, position := state.position + 1,
          iterationCount := state.iterationCount + 1,
          workers := state.workers.set worker (.running state.position context) } := by
  obtain ⟨own, alone, heap, hPatched, hContext, hHeap⟩ := hInv.heap.patch hIndependent hRow
  refine ⟨own, heap, hPatched, ?_⟩
  refine
    { live := hInv.live
      count := by rw [hInv.count]
      bound := (List.getElem?_eq_some_iff.mp hRow).1
      workers := by rw [List.length_set, hInv.workers]
      heap := hHeap
      order := ?_
      invoked := ?_
      running := ?_
      results := ?_
      errors := ?_
      keys := hInv.keys
      recorded := ?_
      exhausted := ?_
      steps := ?_ }
  · rw [List.range_succ, List.reverse_append, ← hInv.order]
    rfl
  · intro other index context hMem
    rcases List.mem_cons.mp hMem with hEvent | hMem
    · cases hEvent
      exact ⟨Nat.lt_succ_self _, alone, hContext⟩
    · obtain ⟨hIndex, hAloneContext⟩ := hInv.invoked other index context hMem
      exact ⟨Nat.lt_succ_of_lt hIndex, hAloneContext⟩
  · intro other index context hOther
    rcases getElem?_set_worker hReady hOther with ⟨hMoved, _⟩ | ⟨hOld, _⟩
    · cases hMoved
      exact ⟨Nat.lt_succ_self _, alone, hContext⟩
    · obtain ⟨hIndex, hAloneContext⟩ := hInv.running other index context hOld
      exact ⟨Nat.lt_succ_of_lt hIndex, hAloneContext⟩
  · intro index result hLookup
    exact ⟨Nat.lt_succ_of_lt (hInv.results index result hLookup).1,
      (hInv.results index result hLookup).2⟩
  · intro index error hLookup
    exact ⟨Nat.lt_succ_of_lt (hInv.errors index error hLookup).1,
      (hInv.errors index error hLookup).2⟩
  · intro index hIndex
    rcases Nat.lt_succ_iff_lt_or_eq.mp hIndex with hBefore | rfl
    · exact (hInv.recorded index hBefore).imp_left (running_set hReady)
    · refine Or.inl ⟨worker, own, ?_⟩
      rw [List.getElem?_set_self (List.getElem?_eq_some_iff.mp hReady).1]
  · intro hStopped
    obtain ⟨other, hOther⟩ := List.mem_iff_getElem?.mp hStopped
    rcases getElem?_set_worker hReady hOther with ⟨hMoved, _⟩ | ⟨hOld, _⟩
    · cases hMoved
    · have hEnd := hInv.exhausted (List.mem_of_getElem? hOld)
      have hLow := (List.getElem?_eq_some_iff.mp hRow).1
      omega
  · have hSteps := hInv.steps
    have hRunning := countP_set_worker LoopWorker.isRunning (.running state.position own) hReady
    have hStopped := countP_set_worker LoopWorker.isStopped (.running state.position own) hReady
    simp [LoopWorker.isRunning, LoopWorker.isStopped] at hRunning hStopped
    simp only [List.length_cons]
    omega

theorem finish {worker index : Nat} {context : HeapRef LoopArena} {results : List (Nat × Result)}
    {loopErrors : List (Nat × ExecutionError Detail)}
    (hWorker : state.workers[worker]? = some (.running index context))
    (hResults : ∀ key result, results.lookup key = some result →
      state.results.lookup key = some result ∨
      key = index ∧ aloneOutcome input attempt index = .ok result)
    (hErrors : ∀ key error, loopErrors.lookup key = some error →
      state.loopErrors.lookup key = some error ∨
      key = index ∧ aloneOutcome input attempt index = .error error)
    (hKeys : (loopErrors.map Prod.fst).Nodup)
    (hKeep : ∀ key, (state.results.lookup key).isSome ∨ (state.loopErrors.lookup key).isSome ∨
      key = index → (results.lookup key).isSome ∨ (loopErrors.lookup key).isSome) :
    LoopInv input configured attempt (.finished worker index :: events)
      { state with
        workers := state.workers.set worker .ready, results := results,
        loopErrors := loopErrors } where
  live := hInv.live
  count := hInv.count
  bound := hInv.bound
  workers := by rw [List.length_set, hInv.workers]
  heap := hInv.heap
  order := hInv.order
  invoked other index context hMem := by
    rcases List.mem_cons.mp hMem with hEvent | hMem
    · cases hEvent
    · exact hInv.invoked other index context hMem
  running other index context hOther := by
    rcases getElem?_set_worker hWorker hOther with ⟨hMoved, _⟩ | ⟨hOld, _⟩
    · cases hMoved
    · exact hInv.running other index context hOld
  results key result hLookup := by
    rcases hResults key result hLookup with hOld | ⟨hKey, hOutcome⟩
    · exact hInv.results key result hOld
    · exact hKey ▸ ⟨(hInv.running worker index context hWorker).1, hOutcome⟩
  errors key error hLookup := by
    rcases hErrors key error hLookup with hOld | ⟨hKey, hOutcome⟩
    · exact hInv.errors key error hOld
    · exact hKey ▸ ⟨(hInv.running worker index context hWorker).1, hOutcome⟩
  keys := hKeys
  recorded key hKey := by
    rcases hInv.recorded key hKey with ⟨other, seen, hOther⟩ | hResult | hError
    · by_cases hSame : other = worker
      · subst hSame
        rw [hWorker, Option.some.injEq, LoopWorker.running.injEq] at hOther
        exact Or.inr (hKeep key (Or.inr (Or.inr hOther.1.symm)))
      · refine Or.inl ⟨other, seen, ?_⟩
        rw [List.getElem?_set_ne (Ne.symm hSame), hOther]
    · exact Or.inr (hKeep key (Or.inl hResult))
    · exact Or.inr (hKeep key (Or.inr (Or.inl hError)))
  exhausted hStopped := by
    obtain ⟨other, hOther⟩ := List.mem_iff_getElem?.mp hStopped
    rcases getElem?_set_worker hWorker hOther with ⟨hMoved, _⟩ | ⟨hOld, _⟩
    · cases hMoved
    · exact hInv.exhausted (List.mem_of_getElem? hOld)
  steps := by
    have hSteps := hInv.steps
    have hRunning := countP_set_worker LoopWorker.isRunning .ready hWorker
    have hStopped := countP_set_worker LoopWorker.isStopped .ready hWorker
    simp [LoopWorker.isRunning, LoopWorker.isStopped] at hRunning hStopped
    simp only [List.length_cons]
    omega

/-- The loop variables that a running iteration reports are its own. -/
theorem invokeOnce_eq {worker index : Nat} {context : HeapRef LoopArena}
    (hWorker : state.workers[worker]? = some (.running index context)) :
    invokeOnce index (loopVarsOf state.heap context) (attempt index) =
      aloneOutcome input attempt index := by
  obtain ⟨hIndex, alone, hAlone⟩ := hInv.running worker index context hWorker
  rw [aloneOutcome, hAlone, Option.bind_some, hInv.heap.loopVarsOf_eq hIndex hAlone]

end

theorem step (hIndependent : input.Independent)
    (hInv : LoopInv input configured attempt events state) {event : LoopEvent}
    (hStep : Step input attempt state event next) :
    LoopInv input configured attempt (event :: events) next := by
  obtain ⟨worker, hAdvance⟩ := hStep
  obtain ⟨_, hCases⟩ := advance_cases hAdvance
  rcases hCases with ⟨hReady, hRow, rfl, rfl⟩ | ⟨items, hReady, hRow, hPull⟩ |
    ⟨index, context, hWorker, rfl, hFinish⟩
  · exact hInv.exhaust hReady hRow
  · obtain ⟨context, heap, hPatched, hNext⟩ := hInv.pull hIndependent hReady hRow
    rcases hPull with ⟨error, hError, _⟩ | ⟨context', heap', hOk, rfl, rfl⟩
    · rw [hPatched] at hError
      cases hError
    · rw [hPatched, Except.ok.injEq, Prod.mk.injEq] at hOk
      obtain ⟨rfl, rfl⟩ := hOk
      exact hNext
  · have hOutcome := hInv.invokeOnce_eq hWorker
    rcases hFinish with ⟨result, hResult, rfl⟩ | ⟨error, hError, rfl⟩
    · rw [hResult] at hOutcome
      apply hInv.finish hWorker
      · intro key found hLookup
        rcases Assoc.lookup_set_cases hLookup with hOld | ⟨hKey, rfl⟩
        · exact Or.inl hOld
        · exact Or.inr ⟨hKey, hOutcome.symm⟩
      · exact fun key error hLookup => Or.inl hLookup
      · exact hInv.keys
      · intro key hKey
        rw [Assoc.lookup_set]
        by_cases hSame : key = index
        · simp [hSame]
        · simpa [hSame] using hKey
    · rw [hError] at hOutcome
      apply hInv.finish hWorker
      · exact fun key result hLookup => Or.inl hLookup
      · intro key found hLookup
        rcases Assoc.lookup_set_cases hLookup with hOld | ⟨hKey, rfl⟩
        · exact Or.inl hOld
        · exact Or.inr ⟨hKey, hOutcome.symm⟩
      · exact Assoc.nodup_set hInv.keys
      · intro key hKey
        rw [Assoc.lookup_set]
        by_cases hSame : key = index
        · simp [hSame]
        · simpa [hSame] using hKey

theorem of_run (hIndependent : input.Independent)
    (hRun : Run (Step input attempt) (loopStart input Result Detail configured) events state) :
    LoopInv input configured attempt events state :=
  hRun.invariant (LoopInv input configured attempt) start
    fun _ hInv hStep => hInv.step hIndependent hStep

/-! ## The end of a run -/

variable (hInv : LoopInv input configured attempt events state)
include hInv

theorem workers_nonempty :
    0 < state.workers.length := by
  rw [hInv.workers]
  omega

theorem all_stopped (hDone : state.Done) :
    ∀ worker ∈ state.workers, worker = .stopped := by
  rcases hDone with hCrashed | hStopped
  · rw [hInv.live] at hCrashed
    cases hCrashed
  · exact hStopped

theorem position_eq (hDone : state.Done) :
    state.position = input.rows.length := by
  have hFirst := List.getElem_mem hInv.workers_nonempty
  have hStopped := hInv.all_stopped hDone _ hFirst
  exact hInv.exhausted (hStopped ▸ hFirst)

theorem outcome_recorded (hDone : state.Done) {index : Nat} (hIndex : index < input.rows.length) :
    (∃ result, state.results.lookup index = some result ∧
        aloneOutcome input attempt index = .ok result) ∨
      ∃ error, state.loopErrors.lookup index = some error ∧
        aloneOutcome input attempt index = .error error := by
  rw [← hInv.position_eq hDone] at hIndex
  rcases hInv.recorded index hIndex with ⟨worker, context, hWorker⟩ | hResult | hError
  · cases hInv.all_stopped hDone _ (List.mem_of_getElem? hWorker)
  · obtain ⟨result, hResult⟩ := Option.isSome_iff_exists.mp hResult
    exact Or.inl ⟨result, hResult, (hInv.results index result hResult).2⟩
  · obtain ⟨error, hError⟩ := Option.isSome_iff_exists.mp hError
    exact Or.inr ⟨error, hError, (hInv.errors index error hError).2⟩

end LoopInv

theorem mapM_getItem_results {results : List (Nat × Result)}
    {outcome : Nat → Except (ExecutionError Detail) Result} {indices : List Nat}
    (hResults : ∀ index ∈ indices, ∃ result, results.lookup index = some result ∧
      outcome index = .ok result) :
    indices.mapM (@getItem Detail Result results) =
      .ok ((indices.map outcome).filterMap Except.toOption) := by
  induction indices with
  | nil => rfl
  | cons index indices ih =>
      obtain ⟨result, hLookup, hOutcome⟩ := hResults index List.mem_cons_self
      have hRest := ih fun later hMem => hResults later (List.mem_cons_of_mem _ hMem)
      have hItem : @getItem Detail Result results index = .ok result := by
        rw [getItem, hLookup]
      rw [List.mapM_cons, hItem, hRest, List.map_cons, hOutcome]
      rfl

theorem mapM_getItem_errors {errors : List (Nat × ExecutionError Detail)}
    {outcome : Nat → Except (ExecutionError Detail) Result} {indices : List Nat}
    (hErrors : ∀ index ∈ indices, ∀ error, outcome index = .error error →
      errors.lookup index = some error) :
    (indices.filter fun index => (errorOf (outcome index)).isSome).mapM
        (@getItem Detail (ExecutionError Detail) errors) =
      .ok ((indices.map outcome).filterMap errorOf) := by
  induction indices with
  | nil => rfl
  | cons index indices ih =>
      have hRest := ih fun later hMem => hErrors later (List.mem_cons_of_mem _ hMem)
      cases hOutcome : outcome index with
      | ok result =>
          rw [List.filter_cons_of_neg (by simp [hOutcome, errorOf]), hRest, List.map_cons, hOutcome]
          rfl
      | error error =>
          have hLookup := hErrors index List.mem_cons_self error hOutcome
          have hItem : @getItem Detail (ExecutionError Detail) errors index = .ok error := by
            rw [getItem, hLookup]
          rw [List.filter_cons_of_pos (by simp [hOutcome, errorOf]), List.mapM_cons, hItem, hRest,
            List.map_cons, hOutcome]
          rfl

namespace LoopInv

variable {input : LoopInput Atom} {configured : Nat} {attempt : Nat → Attempt Result Detail}
  {events : List LoopEvent} {state : LoopState Atom Result Detail}

variable (hInv : LoopInv input configured attempt events state)
include hInv

theorem sorted_keys (hDone : state.Done) :
    (state.loopErrors.map Prod.fst).mergeSort (· ≤ ·) =
      (List.range input.rows.length).filter fun index =>
        (errorOf (aloneOutcome input attempt index)).isSome := by
  have hSorted : ((state.loopErrors.map Prod.fst).mergeSort (· ≤ ·)).Pairwise (· ≤ ·) := by
    have hPairwise := @List.pairwise_mergeSort Nat (fun a b => decide (a ≤ b))
      (by simpa using fun a b c => Nat.le_trans) (by simpa using Nat.le_total)
      (state.loopErrors.map Prod.fst)
    simpa using hPairwise
  refine List.Perm.eq_of_pairwise (fun a b _ _ => Nat.le_antisymm) hSorted ?_ ?_
  · exact (List.pairwise_le_range).filter _
  · refine (List.mergeSort_perm _ _).trans
      ((List.perm_ext_iff_of_nodup hInv.keys (List.nodup_range.filter _)).mpr fun index => ?_)
    rw [← Assoc.lookup_isSome_iff, List.mem_filter, List.mem_range, ← hInv.position_eq hDone]
    constructor
    · intro hSome
      obtain ⟨error, hLookup⟩ := Option.isSome_iff_exists.mp hSome
      obtain ⟨hIndex, hOutcome⟩ := hInv.errors index error hLookup
      exact ⟨hIndex, by rw [hOutcome]; rfl⟩
    · rintro ⟨hIndex, hFails⟩
      rw [hInv.position_eq hDone] at hIndex
      rcases hInv.outcome_recorded hDone hIndex with ⟨result, _, hOutcome⟩ | ⟨error, hLookup, _⟩
      · rw [hOutcome] at hFails
        cases hFails
      · rw [hLookup]
        rfl

theorem outcome_eq (hDone : state.Done) :
    state.outcome = mapOutcome input attempt := by
  have hLookups : ∀ index ∈ List.range input.rows.length, ∀ error,
      aloneOutcome input attempt index = .error error →
        state.loopErrors.lookup index = some error := by
    intro index hIndex error hOutcome
    rcases hInv.outcome_recorded hDone (List.mem_range.mp hIndex) with ⟨result, _, hOk⟩ |
      ⟨found, hLookup, hFound⟩
    · rw [hOk] at hOutcome
      cases hOutcome
    · rw [hFound, Except.error.injEq] at hOutcome
      rw [hLookup, hOutcome]
  have hErrors := mapM_getItem_errors hLookups
  rw [← hInv.sorted_keys hDone] at hErrors
  rw [LoopState.outcome, hInv.live, mapOutcome]
  simp only
  by_cases hNone : state.loopErrors = []
  · have hNil : ((List.range input.rows.length).map (aloneOutcome input attempt)).filterMap
        errorOf = [] := by
      rw [hNone, List.map_nil, List.mergeSort_nil, List.mapM_nil] at hErrors
      exact (Except.ok.inj hErrors).symm
    rw [if_pos hNone, if_pos hNil, hInv.count, hInv.position_eq hDone]
    apply mapM_getItem_results
    intro index hIndex
    rcases hInv.outcome_recorded hDone (List.mem_range.mp hIndex) with hResult | ⟨error, hLookup, _⟩
    · exact hResult
    · rw [hNone] at hLookup
      cases hLookup
  · have hSome : ((List.range input.rows.length).map (aloneOutcome input attempt)).filterMap
        errorOf ≠ [] := by
      intro hNil
      obtain ⟨⟨index, error⟩, rest, hEntries⟩ := List.exists_cons_of_ne_nil hNone
      have hLookup : state.loopErrors.lookup index = some error := by
        rw [hEntries, Assoc.lookup_cons_eq_ite, if_pos rfl]
      obtain ⟨hIndex, hOutcome⟩ := hInv.errors index error hLookup
      have hMem := List.mem_map_of_mem (f := aloneOutcome input attempt)
        (List.mem_range.mpr (Nat.lt_of_lt_of_le hIndex hInv.bound))
      have hNoError := List.filterMap_eq_nil_iff.mp hNil _ hMem
      rw [hOutcome] at hNoError
      cases hNoError
    rw [if_neg hNone, if_neg hSome, hErrors]
    rfl

theorem proceeds (hNot : ¬ state.Done) :
    ∃ event next, Step input attempt state event next := by
  rw [LoopState.Done, not_or] at hNot
  push Not at hNot
  obtain ⟨_, worker, hMem, hWorker⟩ := hNot
  obtain ⟨place, hPlace⟩ := List.mem_iff_getElem?.mp hMem
  suffices hSome : (advance input attempt place state).isSome by
    obtain ⟨⟨event, next⟩, hAdvance⟩ := Option.isSome_iff_exists.mp hSome
    exact ⟨event, next, place, hAdvance⟩
  unfold advance
  cases worker with
  | stopped => exact absurd rfl hWorker
  | ready =>
      simp only [hInv.live, hPlace]
      cases input.rows[state.position]? with
      | none => rfl
      | some items =>
          simp only
          cases patchedContext state.heap (some state.position) input.base items <;> rfl
  | running index context =>
      simp only [hInv.live, hPlace]
      cases invokeOnce index (loopVarsOf state.heap context) (attempt index) <;> rfl

theorem length_le :
    events.length ≤ 2 * input.rows.length + max 1 configured := by
  have hSteps := hInv.steps
  have hStopped : state.workers.countP LoopWorker.isStopped ≤ max 1 configured := by
    rw [← hInv.workers]
    exact List.countP_le_length
  have hBound := hInv.bound
  omega

end LoopInv

/-- In every run, for every order of the workers and every outcome of the
iterations, the loop is an ordered map, when the base context has no loop
variables and none is set inside another. -/
theorem forEach_orderedMap (input : LoopInput Atom) (configured : Nat)
    (attempt : Nat → Attempt Result Detail) (hIndependent : input.Independent) :
    OrderedMap input configured attempt where
  isolated hRun _ index context hInvoked := by
    have hInv := LoopInv.of_run hIndependent hRun
    obtain ⟨hIndex, alone, hAlone⟩ := hInv.invoked _ index context hInvoked
    exact ⟨context, alone, hAlone, (hInv.heap.view_eq hIndex hAlone).symm⟩
  once hRun := by
    rw [(LoopInv.of_run hIndependent hRun).order, List.nodup_reverse]
    exact List.nodup_range
  every hRun hDone index := by
    have hInv := LoopInv.of_run hIndependent hRun
    rw [hInv.order, List.mem_reverse, List.mem_range, hInv.position_eq hDone]
  returns hRun hDone := (LoopInv.of_run hIndependent hRun).outcome_eq hDone
  proceeds hRun hNot := (LoopInv.of_run hIndependent hRun).proceeds hNot
  ends hRun := (LoopInv.of_run hIndependent hRun).length_le

def sampleAttempt (_ : Nat) : Attempt Unit Unit := .returned ()

open SampleLoop in
theorem forEach_orderedMap_disjoint : OrderedMap (input 1 2 pathB : LoopInput Nat) 2 sampleAttempt :=
  forEach_orderedMap (input 1 2 pathB : LoopInput Nat) 2 sampleAttempt ⟨rfl, by decide⟩

open SampleLoop in
/-- `var.a.b` is set in the dictionaries that `TRIGGER` holds: the first
iteration sees what the second one sets. -/
theorem forEach_nested_not_orderedMap :
    ¬ OrderedMap (input 1 2 pathAB : LoopInput Nat) 2 sampleAttempt := by
  intro hMap
  have hFirst : ∃ state, Step (input 1 2 pathAB : LoopInput Nat) sampleAttempt
      (loopStart (input 1 2 pathAB : LoopInput Nat) Unit Unit 2) (.invoked 0 0 ⟨some 0, 0⟩) state ∧
      ∃ later, Step (input 1 2 pathAB : LoopInput Nat) sampleAttempt state
        (.invoked 1 1 ⟨some 1, 0⟩) later ∧
        later.heap.view ⟨some 0, 0⟩ [.key "TRIGGER", .index 1] = some (.dict ["b"]) :=
    ⟨_, ⟨0, rfl⟩, _, ⟨1, rfl⟩, by decide⟩
  obtain ⟨state, hState, later, hLater, hView⟩ := hFirst
  obtain ⟨own, heap, hAlone, hSame⟩ :=
    hMap.isolated (.cons _ (.cons _ .nil hState) hLater)
      (List.mem_cons_of_mem _ List.mem_cons_self)
  rw [hSame] at hView
  have hOwn : ∃ found, (input 1 2 pathAB : LoopInput Nat).aloneContext 0 = some found ∧
      found.2.view found.1 [.key "TRIGGER", .index 1] = some (.dict []) :=
    ⟨_, rfl, by decide⟩
  obtain ⟨found, hFound, hEmpty⟩ := hOwn
  rw [hFound, Option.some.injEq] at hAlone
  rw [hAlone, hView] at hEmpty
  simp at hEmpty

end Executor
end Tracecat
