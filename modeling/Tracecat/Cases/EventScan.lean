import Mathlib.Algebra.Group.Int.Defs
import Tracecat.Cases.AnchorRows
import Tracecat.Lib.Extremal
import Tracecat.Workflow.Folders

/-!
# The scan of events, with what it raises

`_compute_durations_from_events` of `cases/durations/service.py` once more, now with its errors.
`_extract_timestamp` catches three errors of `coerce_to_utc_datetime`; the fourth one, and an
exception of an attribute that is read, ends the whole computation.
-/

namespace Tracecat

/-! ## Instants -/

/-- What `coerce_to_utc_datetime` raises. -/
inductive CoercionError
  | typeError
  | valueError
  | overflowError
  | osError
  deriving DecidableEq, Repr

/-- The errors that `_extract_timestamp` catches. -/
def CoercionError.isCaught : CoercionError → Bool
  | typeError | valueError | overflowError => true
  | osError => false

/-- The whole numbers that fit into 64 bits as seconds, but whose year does not fit into
the 32 bits of `gmtime`. -/
def BeyondClock (seconds : Int) : Prop :=
  (-2 ^ 63 ≤ seconds ∧ seconds < -67768040609740800) ∨
    (67768036191676800 ≤ seconds ∧ seconds < 2 ^ 63)

instance (seconds : Int) : Decidable (BeyondClock seconds) :=
  inferInstanceAs (Decidable (_ ∨ _))

/-- `datetime.fromtimestamp(number, tz=UTC)`, of a number in microseconds. -/
def fromTimestamp (micros : Int) : Except CoercionError Int :=
  let seconds := micros / 1000000
  if seconds < -2 ^ 63 ∨ 2 ^ 63 ≤ seconds then .error .overflowError
  else if BeyondClock seconds then .error .osError
  -- the years of a `datetime` run from 1 to 9999
  else if seconds < -62135596800 ∨ 253402300800 ≤ seconds then .error .valueError
  else .ok micros

namespace EventScan

/-- What `datetime` reads in texts and floats. -/
structure Clock where
  /-- `datetime.fromisoformat`, as an instant in UTC. -/
  fromisoformat : String → Option Int
  /-- A float in microseconds, as it is rounded. -/
  microseconds : ℚ → Int

/-- What ends the scan. -/
inductive ScanError
  /-- the read of an attribute raises -/
  | attribute
  /-- an error that `_extract_timestamp` does not catch -/
  | coercion (error : CoercionError)
  deriving DecidableEq, Repr

variable (clock : Clock)

/-- The branch of `coerce_to_utc_datetime` for a text. -/
def coerceText (text : String) : Except CoercionError Int :=
  let text := Folders.strip text.toList
  let text := if text.getLast? = some 'Z' ∨ text.getLast? = some 'z' then
    text.dropLast ++ "+00:00".toList else text
  match clock.fromisoformat (String.ofList text) with
  | none => .error .typeError
  | some instant => .ok instant

/-- `coerce_to_utc_datetime`; no event type reads as a date, and no attribute is a plain date. -/
def coerceToUtcDatetime {ω : Type} : AttrValue ω → Except CoercionError Int
  | .time instant => .ok instant
  | .json (.str text) => coerceText clock text
  | .json (.int seconds) => fromTimestamp (seconds * 1000000)
  | .json (.float seconds) => fromTimestamp (clock.microseconds seconds)
  | .json (.bool flag) => fromTimestamp (flag.toInt * 1000000)
  | .json _ | .enum _ | .list _ | .object _ => .error .typeError

variable {Id ω : Type} [PyAttributes ω] [EventAttributes Id ω] (anchor : CaseDurationEventAnchor)

/-- `_extract_timestamp`. -/
def extractTimestamp (event : CaseEvent Id) : Except ScanError (Option Int) :=
  match event.resolveField anchor.timestampPath with
  | .error _ => .error .attribute
  | .ok none => .ok none
  | .ok (some value) =>
      match coerceToUtcDatetime clock value with
      | .ok instant => .ok (some instant)
      | .error error => if error.isCaught then .ok none else .error (.coercion error)

/-- The loop of `_find_matching_event`. -/
def scan (earliestAfter : Option Int) :
    Option (CaseEvent Id × Int) → List (CaseEvent Id) →
      Except ScanError (Option (CaseEvent Id × Int))
  | best, [] => .ok best
  | best, event :: events =>
      let createdAtOrdered : Bool := anchor.timestampPath = "created_at"
      let reverseScan : Bool := createdAtOrdered && anchor.selection = .last
      if reverseScan && earliestAfter.any fun earliest => event.createdAt < earliest then .ok best
      else if !anchor.acceptsType event.type then scan earliestAfter best events
      else
        match event.checkFilters anchor.fieldFilters with
        | .error _ => .error .attribute
        | .ok false => scan earliestAfter best events
        | .ok true =>
            match extractTimestamp clock anchor event with
            | .error error => .error error
            | .ok none => scan earliestAfter best events
            | .ok (some timestamp) =>
                if earliestAfter.any fun earliest => timestamp < earliest then
                  scan earliestAfter best events
                else if createdAtOrdered then .ok (some (event, timestamp))
                else
                  scan earliestAfter
                    (if anchor.improves timestamp best then some (event, timestamp) else best)
                    events

/-- The events in the order of `_find_matching_event`. -/
def inScanOrder (events : List (CaseEvent Id)) : List (CaseEvent Id) :=
  let reverseScan : Bool := anchor.timestampPath = "created_at" && anchor.selection = .last
  if reverseScan then events.reverse else events

/-- `_find_matching_event`. -/
def findMatchingEvent (events : List (CaseEvent Id)) (earliestAfter : Option Int) :
    Except ScanError (Option (CaseEvent Id × Int)) :=
  scan clock anchor earliestAfter none (inScanOrder anchor events)

/-- One turn of `_compute_durations_from_events`. -/
def computeDuration (events : List (CaseEvent Id)) (definition : CaseDurationDefinitionRead Id) :
    Except ScanError (CaseDurationComputation Id) := do
  let startMatch ← findMatchingEvent clock definition.startAnchor events none
  let endMatch ← findMatchingEvent clock definition.endAnchor events (startMatch.map Prod.snd)
  return definition.computation (startMatch.map fun found => (found.1.id, found.2))
    (endMatch.map fun found => (found.1.id, found.2))

/-- `_compute_durations_from_events`. -/
def computeDurationsFromEvents (events : List (CaseEvent Id))
    (definitions : List (CaseDurationDefinitionRead Id)) :
    Except ScanError (List (CaseDurationComputation Id)) :=
  definitions.mapM (computeDuration clock events)

/-! ## What raises -/

/-- The path of a filter raises, and the filters before it match. -/
def FilterRaises (event : CaseEvent Id) (filters : List (String × Json)) : Prop :=
  ∃ before filter after, filters = before ++ filter :: after ∧
    event.checkFilters before = .ok true ∧ event.resolveField filter.1 = .error ()

omit [PyAttributes ω] in
/-- The seconds of a number. -/
def seconds? : AttrValue ω → Option Int
  | .json (.int seconds) => some seconds
  | .json (.float seconds) => some (clock.microseconds seconds / 1000000)
  | _ => none

/-- The timestamp path of the anchor raises, or leads to a number that no clock reads. -/
def Unreadable (event : CaseEvent Id) : Prop :=
  event.resolveField anchor.timestampPath = .error () ∨
    ∃ value seconds, event.resolveField anchor.timestampPath = .ok (some value) ∧
      seconds? clock value = some seconds ∧ BeyondClock seconds

/-- What is read of the event raises. -/
def Raises (event : CaseEvent Id) : Prop :=
  anchor.acceptsType event.type = true ∧
    (FilterRaises event anchor.fieldFilters ∨
      anchor.matchesFilters event = true ∧ Unreadable clock anchor event)

/-- The scan ends at the event: it is before the bound, or it is selected. -/
def stops (earliestAfter : Option Int) (event : CaseEvent Id) : Bool :=
  anchor.timestampPath = "created_at" &&
    ((anchor.selection = .last && earliestAfter.any fun earliest => event.createdAt < earliest) ||
      anchor.selects earliestAfter event)

/-- Nothing raises before the scan ends. -/
def Quiet (earliestAfter : Option Int) (events : List (CaseEvent Id)) : Prop :=
  ∀ event ∈ (inScanOrder anchor events).takeWhile (fun event => !stops anchor earliestAfter event),
    ¬ Raises clock anchor event

/-- The event is of another type, or a filter of the anchor does not match. -/
def PassedOver (event : CaseEvent Id) : Prop :=
  anchor.acceptsType event.type = false ∨ event.checkFilters anchor.fieldFilters = .ok false

/-! ## One event -/

/-- What is read in a JSON value as an instant. -/
def instantOf (value : Json) : Option Int :=
  (coerceToUtcDatetime clock (.json value : AttrValue Unit)).toOption

theorem fromTimestamp_eq_osError (micros : Int) :
    fromTimestamp micros = .error .osError ↔ BeyondClock (micros / 1000000) := by
  unfold fromTimestamp
  dsimp only
  generalize micros / 1000000 = seconds
  by_cases hWide : seconds < -2 ^ 63 ∨ 2 ^ 63 ≤ seconds
  · rw [if_pos hWide]
    constructor
    · intro hError
      cases hError
    · intro hBeyond
      unfold BeyondClock at hBeyond
      omega
  · rw [if_neg hWide]
    by_cases hBeyond : BeyondClock seconds
    · simp [hBeyond]
    · rw [if_neg hBeyond]
      by_cases hYears : seconds < -62135596800 ∨ 253402300800 ≤ seconds
      · simp [hYears, hBeyond]
      · simp [hYears, hBeyond]

omit [PyAttributes ω] in
theorem coerceToUtcDatetime_caught {value : AttrValue ω} {error : CoercionError}
    (hError : coerceToUtcDatetime clock value = .error error) :
    error.isCaught = false ↔
      ∃ seconds, seconds? clock value = some seconds ∧ BeyondClock seconds := by
  have hOther (hNumber : seconds? clock value = none) (hCaught : error.isCaught = true) :
      error.isCaught = false ↔
        ∃ seconds, seconds? clock value = some seconds ∧ BeyondClock seconds := by
    rw [hCaught, hNumber]
    simp
  have hNumber {micros seconds : Int} (hSeconds : seconds? clock value = some seconds)
      (hMicros : micros / 1000000 = seconds) (hFailed : fromTimestamp micros = .error error) :
      error.isCaught = false ↔
        ∃ seconds, seconds? clock value = some seconds ∧ BeyondClock seconds := by
    have hBeyond := fromTimestamp_eq_osError micros
    rw [hFailed, hMicros] at hBeyond
    rw [hSeconds]
    cases error <;> simpa [CoercionError.isCaught] using hBeyond
  cases value with
  | time instant => cases hError
  | enum | list | object =>
      cases hError
      exact hOther rfl rfl
  | json value =>
      cases value with
      | null | arr | obj =>
          cases hError
          exact hOther rfl rfl
      | str text =>
          refine hOther rfl ?_
          simp only [coerceToUtcDatetime, coerceText] at hError
          split at hError
          · cases hError
            rfl
          · cases hError
      | bool flag =>
          refine hOther rfl ?_
          cases flag <;> cases hError
      | int seconds => exact hNumber rfl (Int.mul_ediv_cancel seconds (by decide)) hError
      | float seconds => exact hNumber rfl rfl hError

theorem checkFilters_eq_error {event : CaseEvent Id} {filters : List (String × Json)} :
    event.checkFilters filters = .error () ↔ FilterRaises event filters := by
  induction filters with
  | nil =>
      constructor
      · intro hError
        cases hError
      · rintro ⟨before, filter, after, hFilters, -⟩
        simp at hFilters
  | cons first filters ih =>
      unfold CaseEvent.checkFilters
      constructor
      · intro hError
        cases hFirst : event.resolveField first.1 with
        | error => exact ⟨[], first, filters, rfl, rfl, hFirst⟩
        | ok actual =>
            rw [hFirst] at hError
            dsimp only at hError
            split at hError
            · next hMatches =>
                obtain ⟨before, filter, after, rfl, hBefore, hRaises⟩ := ih.mp hError
                refine ⟨first :: before, filter, after, rfl, ?_, hRaises⟩
                unfold CaseEvent.checkFilters
                rw [hFirst]
                dsimp only
                rw [if_pos hMatches, hBefore]
            · cases hError
      · rintro ⟨before, filter, after, hFilters, hBefore, hRaises⟩
        cases before with
        | nil =>
            obtain ⟨rfl, rfl⟩ := List.cons.inj hFilters
            rw [hRaises]
        | cons head before =>
            obtain ⟨rfl, hRest⟩ := List.cons.inj hFilters
            unfold CaseEvent.checkFilters at hBefore
            cases hFirst : event.resolveField first.1 with
            | error => rfl
            | ok actual =>
                rw [hFirst] at hBefore
                dsimp only at hBefore ⊢
                split at hBefore
                · next hMatches =>
                    rw [if_pos hMatches]
                    exact ih.mpr ⟨before, filter, after, hRest, hBefore, hRaises⟩
                · cases hBefore

theorem extractTimestamp_eq {event : CaseEvent Id} (hReadable : ¬ Unreadable clock anchor event) :
    extractTimestamp clock anchor event =
      .ok (anchor.extractTimestamp (instantOf clock) event) := by
  unfold extractTimestamp CaseDurationEventAnchor.extractTimestamp
  cases hValue : event.resolveField anchor.timestampPath with
  | error => exact absurd (.inl hValue) hReadable
  | ok found =>
      cases found with
      | none => rfl
      | some value =>
          have hInstant : value.toInstant (instantOf clock) =
              (coerceToUtcDatetime clock value).toOption := by
            cases value with
            | json value => cases value <;> rfl
            | time | enum | list | object => rfl
          dsimp only
          rw [hInstant]
          cases hCoerced : coerceToUtcDatetime clock value with
          | ok instant => rfl
          | error error =>
              have hCaught : error.isCaught = true := by
                rw [← Bool.not_eq_false, coerceToUtcDatetime_caught clock hCoerced]
                rintro ⟨seconds, hSeconds, hBeyond⟩
                exact hReadable (.inr ⟨value, seconds, hValue, hSeconds, hBeyond⟩)
              simp only [hCaught, if_true]
              rfl

theorem extractTimestamp_error {event : CaseEvent Id}
    (hUnreadable : Unreadable clock anchor event) :
    ∃ error, extractTimestamp clock anchor event = .error error := by
  unfold extractTimestamp
  rcases hUnreadable with hRaises | ⟨value, seconds, hValue, hSeconds, hBeyond⟩
  · rw [hRaises]
    exact ⟨_, rfl⟩
  · rw [hValue]
    have hFails : coerceToUtcDatetime clock value = .error .osError := by
      unfold seconds? at hSeconds
      split at hSeconds
      · cases hSeconds
        refine (fromTimestamp_eq_osError _).mpr ?_
        rwa [Int.mul_ediv_cancel seconds (by decide)]
      · cases hSeconds
        exact (fromTimestamp_eq_osError _).mpr hBeyond
      · cases hSeconds
    dsimp only
    rw [hFails]
    exact ⟨_, rfl⟩

/-- What the scan reads of an event: its timestamp, if it fits. -/
def look (event : CaseEvent Id) : Except ScanError (Option Int) :=
  if !anchor.acceptsType event.type then .ok none
  else
    match event.checkFilters anchor.fieldFilters with
    | .error _ => .error .attribute
    | .ok false => .ok none
    | .ok true => extractTimestamp clock anchor event

theorem look_passedOver {event : CaseEvent Id} (hPassed : PassedOver anchor event) :
    look clock anchor event = .ok none := by
  unfold look
  rcases hPassed with hType | hFilters
  · rw [hType]
    rfl
  · rw [hFilters]
    split <;> rfl

/-- The same, without errors. -/
def look? (event : CaseEvent Id) : Option Int :=
  if anchor.acceptsType event.type && anchor.matchesFilters event then
    anchor.extractTimestamp (instantOf clock) event
  else none

theorem look_eq {event : CaseEvent Id} (hQuiet : ¬ Raises clock anchor event) :
    look clock anchor event = .ok (look? clock anchor event) := by
  unfold look look?
  unfold Raises at hQuiet
  cases hType : anchor.acceptsType event.type with
  | false => rfl
  | true =>
      simp only [hType, true_and, not_or] at hQuiet
      obtain ⟨hFilters, hTimestamp⟩ := hQuiet
      rw [← checkFilters_eq_error] at hFilters
      unfold CaseDurationEventAnchor.matchesFilters matchesMapping at hTimestamp ⊢
      cases hCheck : event.checkFilters anchor.fieldFilters with
      | error => exact absurd hCheck hFilters
      | ok matched =>
          cases matched with
          | false => rfl
          | true =>
              rw [hCheck] at hTimestamp
              exact extractTimestamp_eq clock anchor fun hUnreadable => hTimestamp ⟨rfl, hUnreadable⟩

theorem look_error {event : CaseEvent Id} (hRaises : Raises clock anchor event) :
    ∃ error, look clock anchor event = .error error := by
  obtain ⟨hType, hReads⟩ := hRaises
  unfold look
  rw [hType]
  rcases hReads with hFilters | ⟨hMatches, hUnreadable⟩
  · rw [checkFilters_eq_error.mpr hFilters]
    exact ⟨_, rfl⟩
  · unfold CaseDurationEventAnchor.matchesFilters matchesMapping at hMatches
    split at hMatches
    · next matched hCheck =>
        rw [hCheck, hMatches]
        exact extractTimestamp_error clock anchor hUnreadable
    · cases hMatches

/-! ## The scan -/

/-- The scan stops at an event before the bound. -/
def breaks (earliestAfter : Option Int) (event : CaseEvent Id) : Bool :=
  anchor.timestampPath = "created_at" && anchor.selection = .last &&
    earliestAfter.any fun earliest => event.createdAt < earliest

theorem scan_cons (earliestAfter : Option Int) (best : Option (CaseEvent Id × Int))
    (event : CaseEvent Id) (events : List (CaseEvent Id)) :
    scan clock anchor earliestAfter best (event :: events) =
      if breaks anchor earliestAfter event then .ok best
      else
        match look clock anchor event with
        | .error error => .error error
        | .ok none => scan clock anchor earliestAfter best events
        | .ok (some timestamp) =>
            if earliestAfter.any fun earliest => timestamp < earliest then
              scan clock anchor earliestAfter best events
            else if anchor.timestampPath = "created_at" then .ok (some (event, timestamp))
            else
              scan clock anchor earliestAfter
                (if anchor.improves timestamp best then some (event, timestamp) else best)
                events := by
  unfold breaks look
  rw [scan]
  split
  · rfl
  · cases anchor.acceptsType event.type with
    | false => rfl
    | true =>
        cases event.checkFilters anchor.fieldFilters with
        | error => rfl
        | ok matched => cases matched <;> simp

theorem total_scan_cons (earliestAfter : Option Int) (best : Option (CaseEvent Id × Int))
    (event : CaseEvent Id) (events : List (CaseEvent Id)) :
    anchor.scan (instantOf clock) earliestAfter best (event :: events) =
      if breaks anchor earliestAfter event then best
      else
        match look? clock anchor event with
        | none => anchor.scan (instantOf clock) earliestAfter best events
        | some timestamp =>
            if earliestAfter.any fun earliest => timestamp < earliest then
              anchor.scan (instantOf clock) earliestAfter best events
            else if anchor.timestampPath = "created_at" then some (event, timestamp)
            else
              anchor.scan (instantOf clock) earliestAfter
                (if anchor.improves timestamp best then some (event, timestamp) else best)
                events := by
  unfold breaks look?
  rw [CaseDurationEventAnchor.scan]
  split
  · rfl
  · cases anchor.acceptsType event.type with
    | false => rfl
    | true =>
        cases anchor.matchesFilters event with
        | false => rfl
        | true => cases anchor.extractTimestamp (instantOf clock) event <;> simp

theorem stops_eq (earliestAfter : Option Int) (event : CaseEvent Id) :
    stops anchor earliestAfter event = (breaks anchor earliestAfter event ||
      (anchor.timestampPath = "created_at" && anchor.selects earliestAfter event)) := by
  unfold stops breaks
  rw [Bool.and_or_distrib_left, Bool.and_assoc]

/-- Under `created_at`, the scan returns an event that is selected, and no other. -/
theorem look?_createdAt (hPath : anchor.timestampPath = "created_at") (event : CaseEvent Id) :
    look? clock anchor event =
      if anchor.acceptsType event.type && anchor.matchesFilters event then some event.createdAt
      else none := by
  unfold look?
  rw [CaseDurationEventAnchor.extractTimestamp_createdAt hPath]

theorem not_raises_of_selects {earliestAfter : Option Int} {event : CaseEvent Id}
    (hPath : anchor.timestampPath = "created_at")
    (hSelects : anchor.selects earliestAfter event = true) : ¬ Raises clock anchor event := by
  unfold CaseDurationEventAnchor.selects CaseDurationEventAnchor.matchesFilters matchesMapping
    at hSelects
  rintro ⟨-, hFilters | ⟨-, hUnreadable⟩⟩
  · rw [checkFilters_eq_error.mpr hFilters] at hSelects
    simp at hSelects
  · have hResolve : event.resolveField "created_at" = .ok (some (.time event.createdAt)) := rfl
    unfold Unreadable at hUnreadable
    rw [hPath, hResolve] at hUnreadable
    rcases hUnreadable with hRaises | ⟨value, seconds, hValue, hSeconds, -⟩
    · cases hRaises
    · cases hValue
      cases hSeconds

/-- When nothing raises before it ends, the scan is the one without errors. -/
theorem scan_eq (earliestAfter : Option Int) {events : List (CaseEvent Id)}
    (hQuiet : ∀ event ∈ events.takeWhile (fun event => !stops anchor earliestAfter event),
      ¬ Raises clock anchor event) (best : Option (CaseEvent Id × Int)) :
    scan clock anchor earliestAfter best events =
      .ok (anchor.scan (instantOf clock) earliestAfter best events) := by
  induction events generalizing best with
  | nil => rfl
  | cons event events ih =>
      rw [scan_cons, total_scan_cons]
      cases hBreaks : breaks anchor earliestAfter event with
      | true => rfl
      | false =>
          cases hStops : stops anchor earliestAfter event with
          | true =>
              -- the event is selected, and the scan returns it
              rw [stops_eq, hBreaks, Bool.false_or, Bool.and_eq_true, decide_eq_true_eq] at hStops
              obtain ⟨hPath, hSelects⟩ := hStops
              rw [look_eq clock anchor (not_raises_of_selects clock anchor hPath hSelects),
                look?_createdAt clock anchor hPath]
              unfold CaseDurationEventAnchor.selects at hSelects
              rw [Bool.and_eq_true, Bool.not_eq_true'] at hSelects
              simp [hSelects.1, hSelects.2, hPath]
          | false =>
              rw [List.takeWhile_cons_of_pos (by simp [hStops])] at hQuiet
              obtain ⟨hHead, hRest⟩ := List.forall_mem_cons.mp hQuiet
              rw [look_eq clock anchor hHead]
              simp only [ih hRest, Bool.false_eq_true, if_false]
              cases look? clock anchor event with
              | none => rfl
              | some timestamp =>
                  dsimp only
                  split
                  · rfl
                  · split <;> rfl

theorem scan_raises (earliestAfter : Option Int) {events : List (CaseEvent Id)}
    {event : CaseEvent Id}
    (hEvent : event ∈ events.takeWhile fun event => !stops anchor earliestAfter event)
    (hRaises : Raises clock anchor event) (best : Option (CaseEvent Id × Int)) :
    ∃ error, scan clock anchor earliestAfter best events = .error error := by
  induction events generalizing best with
  | nil => cases hEvent
  | cons head events ih =>
      cases hStops : stops anchor earliestAfter head with
      | true =>
          rw [List.takeWhile_cons_of_neg (by simp [hStops])] at hEvent
          cases hEvent
      | false =>
          rw [List.takeWhile_cons_of_pos (by simp [hStops])] at hEvent
          rw [stops_eq, Bool.or_eq_false_iff] at hStops
          rw [scan_cons, hStops.1, if_neg Bool.false_ne_true]
          by_cases hHead : Raises clock anchor head
          · obtain ⟨error, hError⟩ := look_error clock anchor hHead
            rw [hError]
            exact ⟨error, rfl⟩
          · have hLater := ih ((List.mem_cons.mp hEvent).resolve_left fun hSame =>
              hHead (hSame ▸ hRaises))
            rw [look_eq clock anchor hHead]
            cases hLook : look? clock anchor head with
            | none => exact hLater best
            | some timestamp =>
                dsimp only
                split
                · exact hLater best
                · next hLate =>
                    by_cases hPath : anchor.timestampPath = "created_at"
                    · -- the event would be selected
                      have hUnselected := hStops.2
                      rw [look?_createdAt clock anchor hPath] at hLook
                      split at hLook
                      · next hFits =>
                          obtain rfl := Option.some.inj hLook
                          unfold CaseDurationEventAnchor.selects at hUnselected
                          simp [hPath, hFits, hLate] at hUnselected
                      · cases hLook
                    · rw [if_neg hPath]
                      exact hLater _

theorem scan_of_breaks {earliestAfter : Option Int} {events : List (CaseEvent Id)}
    (hBreaks : ∀ event ∈ events, breaks anchor earliestAfter event = true)
    (best : Option (CaseEvent Id × Int)) :
    scan clock anchor earliestAfter best events = .ok best := by
  cases events with
  | nil => rfl
  | cons event events => rw [scan_cons, hBreaks event List.mem_cons_self, if_pos rfl]

theorem scan_padded (earliestAfter : Option Int) {extra : CaseEvent Id → Prop}
    (hExtra : ∀ event, extra event → PassedOver anchor event)
    {events longer : List (CaseEvent Id)} (hPadded : Extremal.Padded extra events longer)
    (hOrder : anchor.selection = .last → anchor.timestampPath = "created_at" →
      longer.Pairwise fun event other => other.createdAt ≤ event.createdAt)
    (best : Option (CaseEvent Id × Int)) :
    scan clock anchor earliestAfter best longer = scan clock anchor earliestAfter best events := by
  induction hPadded generalizing best with
  | nil => rfl
  | keep item _ ih =>
      have hRest := ih fun hLast hPath => (List.pairwise_cons.mp (hOrder hLast hPath)).2
      rw [scan_cons, scan_cons]
      simp only [hRest]
  | @insert item items padded hItem hItems ih =>
      have hRest := ih fun hLast hPath => (List.pairwise_cons.mp (hOrder hLast hPath)).2
      rw [scan_cons, look_passedOver clock anchor (hExtra item hItem), hRest]
      cases hBreaks : breaks anchor earliestAfter item with
      | false => rfl
      | true =>
          -- the events behind are not later
          refine (scan_of_breaks clock anchor (fun event hEvent => ?_) best).symm
          unfold breaks at hBreaks ⊢
          simp only [Bool.and_eq_true, decide_eq_true_eq] at hBreaks ⊢
          obtain ⟨⟨hPath, hLast⟩, hEarly⟩ := hBreaks
          have hLe := (List.pairwise_cons.mp (hOrder hLast hPath)).1 event (hItems.subset hEvent)
          obtain ⟨earliest, hEarliest, hLt⟩ := (Option.any_eq_true _ _).mp hEarly
          refine ⟨⟨hPath, hLast⟩, (Option.any_eq_true _ _).mpr ⟨earliest, hEarliest, ?_⟩⟩
          exact decide_eq_true (lt_of_le_of_lt hLe (of_decide_eq_true hLt))

end EventScan
end Tracecat
