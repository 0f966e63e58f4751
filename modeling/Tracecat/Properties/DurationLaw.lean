import Tracecat.Cases.AnchorRows
import Tracecat.Cases.EventScan
import Tracecat.Lib.Checks
import Tracecat.Lib.Extremal

/-!
# What the scan of events computes

An anchor comes to the first event with the least timestamp, or to the last one with the
greatest, whichever of its scans runs: a scan that stops early stops where no better event
can follow.  The law fails only where the scan raises: at a number under a timestamp path that
no clock reads, or at an attribute that cannot be read.
-/

namespace Tracecat
namespace EventScan

variable {Id ω : Type} [PyAttributes ω] [EventAttributes Id ω]

/-! ## The law -/

/-- `ORDER BY created_at ASC, surrogate_id ASC`. -/
def Ordered (events : List (CaseEvent Id)) : Prop :=
  events.Pairwise fun event other => event.createdAt < other.createdAt ∨
    event.createdAt = other.createdAt ∧ event.surrogateId ≤ other.surrogateId

variable (clock : Clock)

/-- The timestamp by which an anchor chooses among the events that fit it, have one and do
not come before the bound. -/
def candidate (anchor : CaseDurationEventAnchor) (earliestAfter : Option Int)
    (event : CaseEvent Id) : Option Int :=
  (look? clock anchor event).filter fun timestamp =>
    !(earliestAfter.any fun earliest => timestamp < earliest)

/-- The event of an anchor, with its timestamp. -/
def Chosen (anchor : CaseDurationEventAnchor) (earliestAfter : Option Int)
    (events : List (CaseEvent Id)) : Option (CaseEvent Id × Int) → Prop
  | none => Extremal.Keyless (candidate clock anchor earliestAfter) events
  | some found =>
      match anchor.selection with
      | .first => Extremal.FirstLeast (candidate clock anchor earliestAfter) events found
      | .last => Extremal.LastGreatest (candidate clock anchor earliestAfter) events found

/-- What a computation says about the chosen events. -/
structure Follows (definition : CaseDurationDefinitionRead Id)
    (start finish : Option (CaseEvent Id × Int)) (computation : CaseDurationComputation Id) :
    Prop where
  durationId : computation.durationId = definition.id
  startEventId : computation.startEventId = start.map fun found => found.1.id
  startedAt : computation.startedAt = start.map Prod.snd
  endEventId : computation.endEventId = finish.map fun found => found.1.id
  endedAt : computation.endedAt = finish.map Prod.snd
  duration : ∀ duration, computation.duration = some duration ↔
    ∃ started ended, start = some started ∧ finish = some ended ∧ duration = ended.2 - started.2
  nonneg : ∀ duration, computation.duration = some duration → 0 ≤ duration

/-- The computation of a definition: the end event is chosen among those that do not come
before the start event. -/
def DurationLaw (events : List (CaseEvent Id)) (definition : CaseDurationDefinitionRead Id)
    (computation : CaseDurationComputation Id) : Prop :=
  ∃ start finish, Chosen clock definition.startAnchor none events start ∧
    Chosen clock definition.endAnchor (start.map Prod.snd) events finish ∧
    Follows definition start finish computation

/-- The event matches no anchor of the definitions. -/
def Unrelated (definitions : List (CaseDurationDefinitionRead Id)) (event : CaseEvent Id) : Prop :=
  ∀ definition ∈ definitions,
    PassedOver definition.startAnchor event ∧ PassedOver definition.endAnchor event

/-- Every definition is computed by the law, and events that match no anchor change nothing. -/
structure ScanLaw (events : List (CaseEvent Id))
    (definitions : List (CaseDurationDefinitionRead Id)) : Prop where
  computed : ∃ computations,
    computeDurationsFromEvents clock events definitions = .ok computations ∧
      List.Forall₂ (DurationLaw clock events) definitions computations
  unrelated : ∀ longer, Ordered longer → Extremal.Padded (Unrelated definitions) events longer →
    computeDurationsFromEvents clock longer definitions =
      computeDurationsFromEvents clock events definitions

/-! ## The choice of an anchor -/

section Anchor

variable {anchor : CaseDurationEventAnchor} {earliestAfter : Option Int}

theorem Chosen.skip {events : List (CaseEvent Id)} {best : Option (CaseEvent Id × Int)}
    (hBest : Chosen clock anchor earliestAfter events best) {event : CaseEvent Id}
    (hEvent : candidate clock anchor earliestAfter event = none) :
    Chosen clock anchor earliestAfter (events ++ [event]) best := by
  have hNoValue (p : Int → Prop) :
      ∀ value, candidate clock anchor earliestAfter event = some value → p value := by
    intro value hValue
    rw [hEvent] at hValue
    cases hValue
  cases best with
  | none => exact Extremal.Keyless.concat hBest hEvent
  | some found =>
      unfold Chosen at hBest ⊢
      cases hSelection : anchor.selection with
      | first =>
          rw [hSelection] at hBest
          exact hBest.concat (hNoValue _)
      | last =>
          rw [hSelection] at hBest
          exact hBest.concat (hNoValue _)

theorem Chosen.take {events : List (CaseEvent Id)} {best : Option (CaseEvent Id × Int)}
    (hBest : Chosen clock anchor earliestAfter events best) {event : CaseEvent Id}
    {timestamp : Int}
    (hEvent : candidate clock anchor earliestAfter event = some timestamp) :
    Chosen clock anchor earliestAfter (events ++ [event])
      (if anchor.improves timestamp best then some (event, timestamp) else best) := by
  have hValue {p : Int → Prop} (hTimestamp : p timestamp) :
      ∀ value, candidate clock anchor earliestAfter event = some value → p value := by
    intro value hValue
    rw [hEvent] at hValue
    obtain rfl := Option.some.inj hValue
    exact hTimestamp
  cases best with
  | none =>
      simp only [CaseDurationEventAnchor.improves, if_true]
      unfold Chosen
      cases anchor.selection with
      | first => exact Extremal.Keyless.firstLeast hBest hEvent
      | last => exact Extremal.Keyless.lastGreatest hBest hEvent
  | some found =>
      unfold Chosen at hBest
      unfold CaseDurationEventAnchor.improves
      cases hSelection : anchor.selection with
      | first =>
          rw [hSelection] at hBest
          by_cases hLt : timestamp < found.2
          · simp only [hLt, decide_true, if_true, Chosen, hSelection]
            exact hBest.replace hEvent hLt
          · simp only [hLt, decide_false, Bool.false_eq_true, if_false, Chosen, hSelection]
            exact hBest.concat (hValue (not_lt.mp hLt))
      | last =>
          rw [hSelection] at hBest
          by_cases hGe : timestamp ≥ found.2
          · simp only [hGe, decide_true, if_true, Chosen, hSelection]
            exact hBest.replace hEvent hGe
          · simp only [hGe, decide_false, Bool.false_eq_true, if_false, Chosen, hSelection]
            exact hBest.concat (hValue (not_le.mp hGe))

theorem Chosen.scan (hPath : anchor.timestampPath ≠ "created_at")
    {seen events : List (CaseEvent Id)} {best : Option (CaseEvent Id × Int)}
    (hBest : Chosen clock anchor earliestAfter seen best) :
    Chosen clock anchor earliestAfter (seen ++ events)
      (anchor.scan (instantOf clock) earliestAfter best events) := by
  induction events generalizing seen best with
  | nil => rwa [List.append_nil]
  | cons event events ih =>
      have hSplit : seen ++ event :: events = (seen ++ [event]) ++ events := by simp
      rw [hSplit]
      rw [total_scan_cons]
      have hBreaks : breaks anchor earliestAfter event = false := by
        simp [breaks, hPath]
      rw [hBreaks, if_neg Bool.false_ne_true]
      have hCandidate : candidate clock anchor earliestAfter event =
          (look? clock anchor event).filter fun timestamp =>
            !(earliestAfter.any fun earliest => timestamp < earliest) := rfl
      cases hLook : look? clock anchor event with
      | none => exact ih (hBest.skip clock (hCandidate.trans (by rw [hLook]; rfl)))
      | some timestamp =>
          rw [hLook, Option.filter_some] at hCandidate
          dsimp only
          cases hEarly : earliestAfter.any fun earliest => decide (timestamp < earliest) with
          | true => exact ih (hBest.skip clock (hCandidate.trans (by rw [hEarly]; rfl)))
          | false =>
              rw [if_neg Bool.false_ne_true, if_neg hPath]
              exact ih (hBest.take clock (hCandidate.trans (by rw [hEarly]; rfl)))

theorem candidate_createdAt (hPath : anchor.timestampPath = "created_at")
    (event : CaseEvent Id) :
    candidate clock anchor earliestAfter event =
      if anchor.selects earliestAfter event then some event.createdAt else none := by
  unfold candidate CaseDurationEventAnchor.selects
  rw [look?_createdAt clock anchor hPath]
  cases anchor.acceptsType event.type <;> cases anchor.matchesFilters event <;>
    simp [Option.filter_some]

theorem chosen_createdAt (hPath : anchor.timestampPath = "created_at")
    {events : List (CaseEvent Id)} (hOrdered : Ordered events) :
    Chosen clock anchor earliestAfter events
      (anchor.findMatchingEvent (instantOf clock) events earliestAfter) := by
  have hSorted : events.Pairwise fun event other => event.createdAt ≤ other.createdAt :=
    hOrdered.imp fun hBefore => hBefore.elim le_of_lt fun hTie => hTie.1.le
  have hReversed : events.reverse.Pairwise fun event other => other.createdAt ≤ event.createdAt :=
    List.pairwise_reverse.mpr hSorted
  have hUnselected {event : CaseEvent Id} (hEvent : ¬ anchor.selects earliestAfter event = true) :
      candidate clock anchor earliestAfter event = none := by
    rw [candidate_createdAt clock hPath, if_neg hEvent]
  have hValue {event : CaseEvent Id} {value : Int}
      (hCandidate : candidate clock anchor earliestAfter event = some value) :
      value = event.createdAt := by
    rw [candidate_createdAt clock hPath] at hCandidate
    split at hCandidate
    · exact (Option.some.inj hCandidate).symm
    · cases hCandidate
  unfold CaseDurationEventAnchor.findMatchingEvent
  cases hSelection : anchor.selection with
  | first =>
      simp only [reduceCtorEq, decide_false, Bool.and_false, Bool.false_eq_true,
        if_false]
      rw [CaseDurationEventAnchor.scan_eq_find? hPath (instantOf clock) earliestAfter
        (by simp [hSelection])]
      cases hFind : events.find? (anchor.selects earliestAfter) with
      | none =>
          rw [List.find?_eq_none] at hFind
          exact fun event hEvent => hUnselected (hFind event hEvent)
      | some found =>
          obtain ⟨hFound, before, after, rfl, hBefore⟩ := List.find?_eq_some_iff_append.mp hFind
          simp only [Option.map_some, Chosen, hSelection]
          refine ⟨before, after, rfl, ?_, fun other hOther value hOtherValue => ?_,
            fun other hOther value hOtherValue => ?_⟩
          · rw [candidate_createdAt clock hPath, if_pos hFound]
          · rw [hUnselected (by simpa using hBefore other hOther)] at hOtherValue
            cases hOtherValue
          · rw [hValue hOtherValue]
            exact (List.pairwise_cons.mp (List.pairwise_append.mp hSorted).2.1).1 other hOther
  | last =>
      simp only [hPath, decide_true, Bool.and_true, if_true]
      rw [CaseDurationEventAnchor.scan_eq_find? hPath (instantOf clock) earliestAfter
        fun _ => hReversed]
      cases hFind : events.reverse.find? (anchor.selects earliestAfter) with
      | none =>
          rw [List.find?_eq_none] at hFind
          exact fun event hEvent => hUnselected (hFind event (List.mem_reverse.mpr hEvent))
      | some found =>
          obtain ⟨hFound, after, before, hSplit, hAfter⟩ := List.find?_eq_some_iff_append.mp hFind
          rw [hSplit] at hReversed
          simp only [Option.map_some, Chosen, hSelection]
          refine ⟨before.reverse, after.reverse, ?_, ?_, fun other hOther value hOtherValue => ?_,
            fun other hOther value hOtherValue => ?_⟩
          · simpa using congrArg List.reverse hSplit
          · rw [candidate_createdAt clock hPath, if_pos hFound]
          · rw [hValue hOtherValue]
            exact (List.pairwise_cons.mp (List.pairwise_append.mp hReversed).2.1).1 other
              (List.mem_reverse.mp hOther)
          · rw [hUnselected (by simpa using hAfter other (List.mem_reverse.mp hOther))]
              at hOtherValue
            cases hOtherValue

theorem chosen_findMatchingEvent {events : List (CaseEvent Id)} (hOrdered : Ordered events) :
    Chosen clock anchor earliestAfter events
      (anchor.findMatchingEvent (instantOf clock) events earliestAfter) := by
  by_cases hPath : anchor.timestampPath = "created_at"
  · exact chosen_createdAt clock hPath hOrdered
  · have hNone : Chosen clock anchor earliestAfter ([] : List (CaseEvent Id)) none := by
      intro event hEvent
      cases hEvent
    unfold CaseDurationEventAnchor.findMatchingEvent
    simp only [hPath, decide_false, Bool.false_and, Bool.false_eq_true, if_false]
    exact hNone.scan clock hPath

theorem Chosen.unique {events : List (CaseEvent Id)} {found other : Option (CaseEvent Id × Int)}
    (hFound : Chosen clock anchor earliestAfter events found)
    (hOther : Chosen clock anchor earliestAfter events other) : found = other := by
  have hClash {event : CaseEvent Id × Int}
      (hSome : Chosen clock anchor earliestAfter events (some event))
      (hNone : Chosen clock anchor earliestAfter events none) : False := by
    have hKey : event.1 ∈ events ∧
        candidate clock anchor earliestAfter event.1 = some event.2 := by
      unfold Chosen at hSome
      cases hSelection : anchor.selection with
      | first | last =>
          rw [hSelection] at hSome
          obtain ⟨before, after, rfl, hKey, -⟩ := hSome
          exact ⟨by simp, hKey⟩
    have hMissing := hNone event.1 hKey.1
    rw [hKey.2] at hMissing
    cases hMissing
  cases found with
  | none =>
      cases other with
      | none => rfl
      | some event => exact (hClash hOther hFound).elim
  | some event =>
      cases other with
      | none => exact (hClash hFound hOther).elim
      | some event' =>
          unfold Chosen at hFound hOther
          cases hSelection : anchor.selection with
          | first =>
              rw [hSelection] at hFound hOther
              exact congrArg some (hFound.unique hOther)
          | last =>
              rw [hSelection] at hFound hOther
              exact congrArg some (hFound.unique hOther)

end Anchor

/-! ## Runs -/

section Runs

variable {events : List (CaseEvent Id)}

theorem findMatchingEvent_eq {anchor : CaseDurationEventAnchor} {earliestAfter : Option Int}
    (hQuiet : Quiet clock anchor earliestAfter events) :
    findMatchingEvent clock anchor events earliestAfter =
      .ok (anchor.findMatchingEvent (instantOf clock) events earliestAfter) :=
  scan_eq clock anchor earliestAfter hQuiet none

theorem findMatchingEvent_raises {anchor : CaseDurationEventAnchor} {earliestAfter : Option Int}
    (hNot : ¬ Quiet clock anchor earliestAfter events) :
    ∃ error, findMatchingEvent clock anchor events earliestAfter = .error error := by
  unfold Quiet at hNot
  push Not at hNot
  obtain ⟨event, hEvent, hRaises⟩ := hNot
  exact scan_raises clock anchor earliestAfter hEvent hRaises none

/-- Nothing raises before the scan for the start ends, and before the one for an end after the
start does. -/
def QuietScans (events : List (CaseEvent Id)) (definition : CaseDurationDefinitionRead Id) : Prop :=
  Quiet clock definition.startAnchor none events ∧
    ∀ start, Chosen clock definition.startAnchor none events start →
      Quiet clock definition.endAnchor (start.map Prod.snd) events

theorem computeDuration_raises {definition : CaseDurationDefinitionRead Id}
    (hOrdered : Ordered events) (hNot : ¬ QuietScans clock events definition) :
    ∃ error, computeDuration clock events definition = .error error := by
  unfold computeDuration
  by_cases hStart : Quiet clock definition.startAnchor none events
  · rw [findMatchingEvent_eq clock hStart]
    have hFound :=
      @chosen_findMatchingEvent Id ω _ _ clock definition.startAnchor none events hOrdered
    have hEnd : ¬ Quiet clock definition.endAnchor
        ((definition.startAnchor.findMatchingEvent (instantOf clock) events none).map Prod.snd)
          events := by
      refine fun hEnd => hNot ⟨hStart, fun start hChosen => ?_⟩
      rwa [hChosen.unique clock hFound]
    obtain ⟨error, hRaises⟩ := findMatchingEvent_raises clock hEnd
    refine ⟨error, ?_⟩
    change (findMatchingEvent clock definition.endAnchor events _ >>= _) = _
    rw [hRaises]
    rfl
  · obtain ⟨error, hRaises⟩ := findMatchingEvent_raises clock hStart
    rw [hRaises]
    exact ⟨error, rfl⟩

theorem computeDuration_ok {definition : CaseDurationDefinitionRead Id}
    (hQuiet : QuietScans clock events definition) (hOrdered : Ordered events) :
    ∃ start finish, Chosen clock definition.startAnchor none events start ∧
      Chosen clock definition.endAnchor (start.map Prod.snd) events finish ∧
      computeDuration clock events definition =
        .ok (definition.computation (start.map fun found => (found.1.id, found.2))
          (finish.map fun found => (found.1.id, found.2))) := by
  have hStart := @chosen_findMatchingEvent Id ω _ _ clock definition.startAnchor none events hOrdered
  refine ⟨_, _, hStart, chosen_findMatchingEvent clock hOrdered, ?_⟩
  unfold computeDuration
  rw [findMatchingEvent_eq clock hQuiet.1]
  change (findMatchingEvent clock definition.endAnchor events _ >>= _) = _
  rw [findMatchingEvent_eq clock (hQuiet.2 _ hStart)]
  rfl

theorem findMatchingEvent_padded {anchor : CaseDurationEventAnchor} {extra : CaseEvent Id → Prop}
    (hExtra : ∀ event, extra event → PassedOver anchor event) {longer : List (CaseEvent Id)}
    (hLonger : Ordered longer) (hPadded : Extremal.Padded extra events longer)
    (earliestAfter : Option Int) :
    findMatchingEvent clock anchor longer earliestAfter =
      findMatchingEvent clock anchor events earliestAfter := by
  unfold findMatchingEvent inScanOrder
  by_cases hReverse : (decide (anchor.timestampPath = "created_at") &&
      decide (anchor.selection = .last)) = true
  · simp only [hReverse, if_true]
    refine scan_padded clock anchor earliestAfter hExtra hPadded.reverse (fun _ _ => ?_) none
    refine List.pairwise_reverse.mpr (hLonger.imp fun hBefore => ?_)
    exact hBefore.elim le_of_lt fun hTie => hTie.1.le
  · simp only [hReverse, Bool.false_eq_true, if_false]
    refine scan_padded clock anchor earliestAfter hExtra hPadded (fun hLast hPath => ?_) none
    exact absurd (by simp [hLast, hPath]) hReverse

/-- The end event does not come before the start event. -/
theorem Chosen.bound {anchor : CaseDurationEventAnchor} {started : Int}
    {found : CaseEvent Id × Int}
    (hFound : Chosen clock anchor (some started) events (some found)) :
    started ≤ found.2 := by
  have hCandidate : candidate clock anchor (some started) found.1 = some found.2 := by
    unfold Chosen at hFound
    cases hSelection : anchor.selection with
    | first | last =>
        rw [hSelection] at hFound
        obtain ⟨before, after, -, hKey, -⟩ := hFound
        exact hKey
  have hLate := (Option.filter_eq_some_iff.mp hCandidate).2
  simpa using hLate

theorem follows_computation {definition : CaseDurationDefinitionRead Id}
    {start finish : Option (CaseEvent Id × Int)}
    (hFinish : Chosen clock definition.endAnchor (start.map Prod.snd) events finish) :
    Follows definition start finish
      (definition.computation (start.map fun found => (found.1.id, found.2))
        (finish.map fun found => (found.1.id, found.2))) := by
  cases start with
  | none =>
      cases finish with
      | none => constructor <;> simp [CaseDurationDefinitionRead.computation]
      | some finish => constructor <;> simp [CaseDurationDefinitionRead.computation]
  | some start =>
      cases finish with
      | none => constructor <;> simp [CaseDurationDefinitionRead.computation]
      | some finish =>
          have hLe : start.2 ≤ finish.2 := hFinish.bound clock
          constructor
          case duration =>
            intro duration
            simp [CaseDurationDefinitionRead.computation, hLe.not_gt, eq_comm]
          case nonneg =>
            intro duration hDuration
            simp [CaseDurationDefinitionRead.computation, hLe.not_gt] at hDuration
            omega
          all_goals simp [CaseDurationDefinitionRead.computation, hLe.not_gt]

/-- The law holds unless what the scans of a definition read raises: a path of a filter or the
timestamp path at an attribute, or the timestamp at a number that no clock reads. -/
theorem scanLaw_iff (hOrdered : Ordered events)
    (definitions : List (CaseDurationDefinitionRead Id)) :
    ScanLaw clock events definitions ↔
      ∀ definition ∈ definitions, QuietScans clock events definition := by
  constructor
  · intro hLaw definition hDefinition
    obtain ⟨computations, hComputed, -⟩ := hLaw.computed
    by_contra hNot
    obtain ⟨computation, -, hOk⟩ :=
      Checks.exists_right_of_forall₂ (Checks.mapM_eq_ok_iff.mp hComputed) hDefinition
    obtain ⟨error, hError⟩ := computeDuration_raises clock hOrdered hNot
    rw [hError] at hOk
    cases hOk
  · intro hQuiet
    refine ⟨?_, fun longer hLonger hPadded => ?_⟩
    · have hEach : ∀ definition ∈ definitions, ∃ computation,
          computeDuration clock events definition = .ok computation ∧
            DurationLaw clock events definition computation := by
        intro definition hDefinition
        obtain ⟨start, finish, hStart, hFinish, hOk⟩ :=
          computeDuration_ok clock (hQuiet definition hDefinition) hOrdered
        exact ⟨_, hOk, start, finish, hStart, hFinish, follows_computation clock hFinish⟩
      clear hQuiet
      induction definitions with
      | nil => exact ⟨[], rfl, .nil⟩
      | cons definition definitions ih =>
          obtain ⟨computations, hRest, hLaws⟩ :=
            ih fun other hOther => hEach other (List.mem_cons_of_mem _ hOther)
          obtain ⟨computation, hOk, hLaw⟩ := hEach definition (List.mem_cons_self ..)
          refine ⟨computation :: computations, ?_, .cons hLaw hLaws⟩
          unfold computeDurationsFromEvents at hRest ⊢
          rw [List.mapM_cons, hOk, hRest]
          rfl
    · apply Checks.mapM_congr
      intro definition hDefinition
      unfold computeDuration
      rw [findMatchingEvent_padded clock (fun event hEvent => (hEvent definition hDefinition).1)
        hLonger hPadded]
      refine congrArg _ (funext fun start => ?_)
      rw [findMatchingEvent_padded clock (fun event hEvent => (hEvent definition hDefinition).2)
        hLonger hPadded]

end Runs

namespace Sample

/-- The ids of version 4 of two events. -/
def firstId : Nat := 0x0f8fad5bd9cb4001a1651f8b5f2c6d33

def secondId : Nat := 0x7c9e667974254bde944be07fc1f90ae7

def attachment (surrogateId : Int) (id : Nat) (size : Int) : CaseEvent Nat where
  workspaceId := 0
  surrogateId := surrogateId
  id := id
  caseId := 1
  type := .attachmentCreated
  data := some (.obj [("size", .int size)])
  userId := none
  createdAt := surrogateId
  updatedAt := surrogateId

/-- From the first attachment to the last one by another timestamp. -/
def definition (timestampPath : String) : CaseDurationDefinitionRead Nat where
  id := 7
  name := "Attachments"
  description := none
  startAnchor := { eventType := .attachmentCreated }
  endAnchor :=
    { eventType := .attachmentCreated, selection := .last, timestampPath := timestampPath }

/-- A clock that reads no text. -/
def floorClock : Clock := ⟨fun _ => none, fun seconds => (seconds * 1000000).floor⟩

/-- The time of a UUID of version 4 is an arbitrary number. -/
theorem scanLaw_iff_attachments :
    ScanLaw floorClock [attachment 1 firstId 10, attachment 2 secondId 20] [definition "id.time"] ↔
      ∀ definition_ ∈ [definition "id.time"],
        QuietScans floorClock [attachment 1 firstId 10, attachment 2 secondId 20] definition_ :=
  scanLaw_iff floorClock (by simp [Ordered, attachment]) [definition "id.time"]

/-- The time of the second id is one that no clock reads. -/
theorem scanLaw_fails :
    Ordered [attachment 1 firstId 10, attachment 2 secondId 20] ∧
      ¬ ScanLaw floorClock [attachment 1 firstId 10, attachment 2 secondId 20]
        [definition "id.time"] := by
  refine ⟨by simp [Ordered, attachment], fun hLaw => ?_⟩
  obtain ⟨computations, hComputed, -⟩ := hLaw.computed
  have hRaises : (computeDuration floorClock [attachment 1 firstId 10, attachment 2 secondId 20]
      (definition "id.time")).toOption = none := by
    rfl
  unfold computeDurationsFromEvents at hComputed
  rw [List.mapM_cons] at hComputed
  cases hOk : computeDuration floorClock [attachment 1 firstId 10, attachment 2 secondId 20]
      (definition "id.time") with
  | error error =>
      rw [hOk] at hComputed
      cases hComputed
  | ok computation =>
      rw [hOk] at hRaises
      cases hRaises

end Sample

end EventScan
end Tracecat
