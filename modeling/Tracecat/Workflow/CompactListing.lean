import Tracecat.Workflow.CompactEvents

/-!
# The compact history

`list_workflow_execution_events_compact` (`workflow/executions/service.py`).  The events
are read in their order, later events are joined to the entries of their source events,
the pending activities of the server are marked, and the entries of one task are folded
into one.  Every source event has one entry at the end of the first two passes, and
`SourceEvent.record` says which.
-/

namespace Tracecat
namespace CompactHistory

/-! ## Reading the events -/

/-- `id2event` and `activity2eventid`. -/
structure Scan where
  id2event : List (Nat × CompactEvent) := []
  activity2eventid : List (String × Nat) := []

/-- The identifier of the activity that an event schedules. -/
def Attributes.activityId? : Attributes → Option String
  | .activityTaskScheduled activityId _ _ => some activityId
  | _ => none

namespace Scan

def begin (scan : Scan) (event : HistoryEvent) (source : CompactEvent) : Scan where
  id2event := Assoc.set event.eventId source scan.id2event
  activity2eventid :=
    match event.attributes.activityId? with
    | some activityId => Assoc.set activityId event.eventId scan.activity2eventid
    | none => scan.activity2eventid

def follow (scan : Scan) (event : HistoryEvent) (sourceId : Nat) (type : EventType) : Scan :=
  match scan.id2event.lookup sourceId with
  | some source =>
      { scan with id2event := Assoc.set sourceId (source.follow type event) scan.id2event }
  | none => scan

/-- One turn of the loop over `fetch_history_events`. -/
def step (scan : Scan) (event : HistoryEvent) : Scan :=
  match sourceOf event with
  | some source => scan.begin event source
  | none =>
      match followUp? event.attributes with
      | some (sourceId, type) => scan.follow event sourceId type
      | none => scan

def read (history : List HistoryEvent) : Scan := history.foldl step {}

end Scan

/-! ## Pending activities -/

inductive PendingState
  | scheduled
  | started
  | cancelRequested
  deriving DecidableEq, Repr

/-- An entry of `pending_activities` of the described workflow. -/
structure PendingActivity where
  activityId : String
  state : PendingState
  lastStartedTime : Option Nat := none

def CompactEvent.pendingStarted (source : CompactEvent) (activity : PendingActivity) :
    CompactEvent :=
  { source with
    currEventType := .activityTaskStarted
    status := .started
    startTime := activity.lastStartedTime.or source.startTime }

def Scan.markPending (scan : Scan) (id2event : List (Nat × CompactEvent))
    (activity : PendingActivity) : List (Nat × CompactEvent) :=
  match scan.activity2eventid.lookup activity.activityId with
  | none => id2event
  | some sourceId =>
      -- The walrus of the source takes an identifier 0 for none.
      if sourceId = 0 then id2event
      else
        match id2event.lookup sourceId with
        | none => id2event
        | some source =>
            if activity.state = .started then
              Assoc.set sourceId (source.pendingStarted activity) id2event
            else id2event

def Scan.entries (scan : Scan) (pending : List PendingActivity) : List (Nat × CompactEvent) :=
  pending.foldl scan.markPending scan.id2event

/-! ## One entry for a task -/

namespace CompactEvent

/-- The list that the results of the children are collected in. -/
def resultList (group : CompactEvent) : List Value :=
  match group.actionResult with
  | .list items => items
  | value => [value]

/-- `min` or `max` of two times where both are known. -/
def combine (choose : Nat → Nat → Nat) : Option Nat → Option Nat → Option Nat
  | some first, some second => some (choose first second)
  | first, _ => first

/-- Fan-in of a further child of a loop. -/
def mergeChild (group event : CompactEvent) : CompactEvent :=
  { group with
    childWfCount := group.childWfCount + 1
    startTime := combine min group.startTime event.startTime
    scheduleTime := min group.scheduleTime event.scheduleTime
    closeTime := combine max group.closeTime event.closeTime
    actionResult := .list (group.resultList ++ [event.actionResult]) }

/-- One turn of the loop that fills `task2events`. -/
def fold (group : Option CompactEvent) (event : CompactEvent) : CompactEvent :=
  match group with
  | some group =>
      if group.loopIndex.isSome || event.loopIndex.isSome then group.mergeChild event
      else if event.sourceEventId ≥ group.sourceEventId then event
      else group
  | none =>
      -- A single child of a loop is told from a direct child by its loop index.
      if event.loopIndex.isSome then { event with actionResult := .list [event.actionResult] }
      else event

end CompactEvent

/-- `task2events`. -/
def task2events (events : List CompactEvent) : List (Task × CompactEvent) :=
  Assoc.accumulate CompactEvent.task CompactEvent.fold events

/-- `list_workflow_execution_events_compact`. -/
def listWorkflowExecutionEventsCompact (history : List HistoryEvent)
    (pending : List PendingActivity) : List CompactEvent :=
  (task2events (((Scan.read history).entries pending).map Prod.snd)).map Prod.snd

/-! ## Source events -/

/-- An event with the entry that it begins. -/
structure SourceEvent where
  event : HistoryEvent
  entry : CompactEvent
  begins : sourceOf event = some entry

namespace SourceEvent

def of? (event : HistoryEvent) : Option SourceEvent :=
  match begins : sourceOf event with
  | some entry => some ⟨event, entry, begins⟩
  | none => none

def id (source : SourceEvent) : Nat := source.event.eventId

def task (source : SourceEvent) : Task := source.entry.task

def activityId? (source : SourceEvent) : Option String := source.event.attributes.activityId?

/-- The later events that refer to the source event, with their types. -/
def followUps (source : SourceEvent) (history : List HistoryEvent) :
    List (EventType × HistoryEvent) :=
  history.filterMap fun event => (followUp? event.attributes).bind fun reference =>
    if reference.1 = source.id then some (reference.2, event) else none

/-- The entry after all events. -/
def settled (source : SourceEvent) (history : List HistoryEvent) : CompactEvent :=
  (source.followUps history).foldl (fun entry later => entry.follow later.1 later.2) source.entry

/-- The started attempts of the activity that are pending. -/
def running (source : SourceEvent) (pending : List PendingActivity) : List PendingActivity :=
  pending.filter fun activity =>
    activity.state = .started && source.activityId? = some activity.activityId

/-- The entry after all events and all pending activities. -/
def record (source : SourceEvent) (history : List HistoryEvent)
    (pending : List PendingActivity) : CompactEvent :=
  (source.running pending).foldl CompactEvent.pendingStarted (source.settled history)

theorem of?_eq_some {event : HistoryEvent} {entry : CompactEvent}
    (hSource : sourceOf event = some entry) : of? event = some ⟨event, entry, hSource⟩ := by
  unfold of?
  split
  · rename_i other hOther
    have hSame : other = entry := Option.some.inj (hOther.symm.trans hSource)
    subst hSame
    rfl
  · rename_i hNone
    rw [hSource] at hNone
    cases hNone

theorem of?_eq_none {event : HistoryEvent} (hSource : sourceOf event = none) :
    of? event = none := by
  unfold of?
  split
  · rename_i other hOther
    rw [hSource] at hOther
    cases hOther
  · rfl

end SourceEvent

def sources (history : List HistoryEvent) : List SourceEvent :=
  history.filterMap SourceEvent.of?

theorem event_mem_of_source {history : List HistoryEvent} {source : SourceEvent}
    (hSource : source ∈ sources history) : source.event ∈ history := by
  obtain ⟨event, hEvent, hOf⟩ := List.mem_filterMap.mp hSource
  cases hEntry : sourceOf event with
  | none =>
      rw [SourceEvent.of?_eq_none hEntry] at hOf
      cases hOf
  | some entry =>
      rw [SourceEvent.of?_eq_some hEntry] at hOf
      rw [← Option.some.inj hOf]
      exact hEvent

theorem sources_concat_source {history : List HistoryEvent} {event : HistoryEvent}
    {entry : CompactEvent} (hSource : sourceOf event = some entry) :
    sources (history ++ [event]) = sources history ++ [⟨event, entry, hSource⟩] := by
  rw [sources, List.filterMap_append, List.filterMap_cons, SourceEvent.of?_eq_some hSource]
  rfl

theorem sources_concat_none {history : List HistoryEvent} {event : HistoryEvent}
    (hSource : sourceOf event = none) : sources (history ++ [event]) = sources history := by
  rw [sources, List.filterMap_append, List.filterMap_cons, SourceEvent.of?_eq_none hSource]
  exact List.append_nil _

theorem followUp?_of_source {event : HistoryEvent} {entry : CompactEvent}
    (hSource : sourceOf event = some entry) : followUp? event.attributes = none := by
  unfold sourceOf at hSource
  cases hAttributes : event.attributes <;> rw [hAttributes] at hSource <;>
    first | rfl | cases hSource

/-- The kinds of source events: activities and updates, children, and the events of the
workflow itself. -/
theorem source_kinds {event : HistoryEvent} {entry : CompactEvent}
    (hSource : sourceOf event = some entry) : entry.sourceEventId = event.eventId ∧
      ((entry.loopIndex = none ∧ entry.actionResult = .none) ∨
      (event.attributes.activityId? = none ∧ entry.actionResult = .none ∧
        (entry.status = .scheduled ∨ entry.status = .detached)) ∨
      (entry.loopIndex = none ∧ entry.maskOutput = false)) := by
  unfold sourceOf at hSource
  split at hSource
  · unfold fromScheduledActivity at hSource
    split at hSource
    · rw [← Option.some.inj hSource]
      exact ⟨rfl, Or.inl ⟨rfl, rfl⟩⟩
    · split at hSource
      · rw [← Option.some.inj hSource]
        exact ⟨rfl, Or.inl ⟨rfl, rfl⟩⟩
      · cases hSource
    · split at hSource
      · rw [← Option.some.inj hSource]
        exact ⟨rfl, Or.inl ⟨rfl, rfl⟩⟩
      · cases hSource
    · cases hSource
    · cases hSource
    · cases hSource
  · rename_i workflowId abandon child hAttributes
    rw [← Option.some.inj hSource, hAttributes]
    cases child with
    | dslWorkflow memo input =>
        refine ⟨rfl, Or.inr (Or.inl ⟨rfl, rfl, ?_⟩)⟩
        show (if _ then _ else _) = _ ∨ (if _ then _ else _) = _
        split
        · exact Or.inr rfl
        · exact Or.inl rfl
    | durableAgentWorkflow memo input sessionId =>
        exact ⟨rfl, Or.inr (Or.inl ⟨rfl, rfl, Or.inl rfl⟩)⟩
  · rename_i input _
    rw [← Option.some.inj hSource]
    cases input <;> exact ⟨rfl, Or.inl ⟨rfl, rfl⟩⟩
  · rw [← Option.some.inj hSource]
    exact ⟨rfl, Or.inr (Or.inr ⟨rfl, rfl⟩)⟩
  · rw [← Option.some.inj hSource]
    exact ⟨rfl, Or.inr (Or.inr ⟨rfl, rfl⟩)⟩
  · rw [← Option.some.inj hSource]
    exact ⟨rfl, Or.inr (Or.inr ⟨rfl, rfl⟩)⟩
  · cases hSource

/-! ## What later events leave alone -/

namespace CompactEvent

variable (source : CompactEvent) (type : EventType) (event : HistoryEvent)

theorem follow_eq : source.follow type event = { source with
    currEventType := type
    status := if source.status = .detached then source.status else type.toStatus
    startTime := if type.isStart then some event.eventTime else source.startTime
    closeTime := if (closeResult? event.attributes).isSome then some event.eventTime
      else source.closeTime
    actionResult := ((closeResult? event.attributes).map
      (sanitizeActionResult source.maskOutput)).getD source.actionResult
    whileIteration := ((closeResult? event.attributes).map fun rawResult =>
      (extractWhileMetadata source.actionName rawResult).1).getD source.whileIteration
    whileContinue := ((closeResult? event.attributes).map fun rawResult =>
      (extractWhileMetadata source.actionName rawResult).2).getD source.whileContinue
    actionError := (errorOf? event.attributes).or source.actionError } := by
  unfold follow withStart
  cases type.isStart <;> cases closeResult? event.attributes <;>
    cases errorOf? event.attributes <;> rfl

@[simp] theorem follow_task : (source.follow type event).task = source.task := by
  rw [follow_eq]
  rfl

@[simp] theorem follow_sourceEventId :
    (source.follow type event).sourceEventId = source.sourceEventId := by
  rw [follow_eq]

@[simp] theorem follow_loopIndex : (source.follow type event).loopIndex = source.loopIndex := by
  rw [follow_eq]

@[simp] theorem follow_maskOutput :
    (source.follow type event).maskOutput = source.maskOutput := by
  rw [follow_eq]

@[simp] theorem follow_actionInput :
    (source.follow type event).actionInput = source.actionInput := by
  rw [follow_eq]

@[simp] theorem follow_scheduleTime :
    (source.follow type event).scheduleTime = source.scheduleTime := by
  rw [follow_eq]

end CompactEvent

namespace SourceEvent

variable {source : SourceEvent} {history : List HistoryEvent} {pending : List PendingActivity}

/-- What no later event and no pending activity changes is as the source event has it. -/
theorem record_frame {β : Type} (field : CompactEvent → β)
    (hFollow : ∀ entry type event, field (entry.follow type event) = field entry)
    (hPending : ∀ entry activity, field (entry.pendingStarted activity) = field entry) :
    field (source.record history pending) = field source.entry := by
  have hSettled : field (source.settled history) = field source.entry := by
    unfold settled
    generalize source.entry = entry
    induction source.followUps history generalizing entry with
    | nil => rfl
    | cons later laters ih => rw [List.foldl_cons, ih, hFollow]
  unfold record
  rw [← hSettled]
  generalize source.settled history = entry
  induction source.running pending generalizing entry with
  | nil => rfl
  | cons activity activities ih => rw [List.foldl_cons, ih, hPending]

@[simp] theorem record_task : (source.record history pending).task = source.task :=
  record_frame CompactEvent.task (fun entry type event => entry.follow_task type event)
    fun _ _ => rfl

@[simp] theorem record_loopIndex :
    (source.record history pending).loopIndex = source.entry.loopIndex :=
  record_frame CompactEvent.loopIndex (fun entry type event => entry.follow_loopIndex type event)
    fun _ _ => rfl

@[simp] theorem record_sourceEventId :
    (source.record history pending).sourceEventId = source.id := by
  rw [← show source.entry.sourceEventId = source.id from (source_kinds source.begins).1]
  exact record_frame CompactEvent.sourceEventId
    (fun entry type event => entry.follow_sourceEventId type event) fun _ _ => rfl

theorem followUps_concat (event : HistoryEvent) : source.followUps (history ++ [event]) =
    source.followUps history ++ ((followUp? event.attributes).bind fun reference =>
      if reference.1 = source.id then some (reference.2, event) else none).toList := by
  unfold followUps
  rw [List.filterMap_append]
  congr 1

theorem settled_concat_none {event : HistoryEvent} (hNone : followUp? event.attributes = none) :
    source.settled (history ++ [event]) = source.settled history := by
  unfold settled
  rw [followUps_concat, hNone]
  exact congrArg _ (List.append_nil _)

theorem settled_concat_some {event : HistoryEvent} {sourceId : Nat} {type : EventType}
    (hSome : followUp? event.attributes = some (sourceId, type)) :
    source.settled (history ++ [event]) =
      if source.id = sourceId then (source.settled history).follow type event
      else source.settled history := by
  unfold settled
  rw [followUps_concat, hSome, Option.bind_some, List.foldl_append]
  by_cases hId : sourceId = source.id
  · rw [if_pos hId, if_pos hId.symm]
    rfl
  · rw [if_neg hId, if_neg (Ne.symm hId)]
    rfl

end SourceEvent

/-! ## The entries of the source events -/

/-- Events come with growing identifiers and refer to events before them. -/
structure Numbered (history : List HistoryEvent) : Prop where
  increasing : history.Pairwise fun event later => event.eventId < later.eventId
  refers : ∀ event ∈ history, ∀ reference ∈ followUp? event.attributes,
    reference.1 < event.eventId

theorem Numbered.init {history : List HistoryEvent} {event : HistoryEvent}
    (hNumbered : Numbered (history ++ [event])) : Numbered history where
  increasing := (List.pairwise_append.mp hNumbered.increasing).1
  refers := fun other hOther => hNumbered.refers other (List.mem_append_left _ hOther)

theorem Numbered.last {history : List HistoryEvent} {event : HistoryEvent}
    (hNumbered : Numbered (history ++ [event])) : ∀ other ∈ history,
      other.eventId < event.eventId := fun other hOther =>
  (List.pairwise_append.mp hNumbered.increasing).2.2 other hOther event List.mem_cons_self

theorem Numbered.pairwise_sources {history : List HistoryEvent} (hNumbered : Numbered history) :
    (sources history).Pairwise fun source later => source.id < later.id := by
  induction history using List.reverseRecOn with
  | nil => exact List.Pairwise.nil
  | append_singleton history event ih =>
      cases hSource : sourceOf event with
      | none =>
          rw [sources_concat_none hSource]
          exact ih hNumbered.init
      | some entry =>
          rw [sources_concat_source hSource, List.pairwise_append]
          refine ⟨ih hNumbered.init, List.pairwise_singleton _ _, ?_⟩
          intro source hMem later hLater
          rw [List.mem_singleton.mp hLater]
          exact hNumbered.last _ (event_mem_of_source hMem)

theorem Numbered.nodup_ids {history : List HistoryEvent} (hNumbered : Numbered history) :
    ((sources history).map SourceEvent.id).Nodup :=
  List.pairwise_map.mpr (hNumbered.pairwise_sources.imp fun hLess => Nat.ne_of_lt hLess)

/-- The event comes after every event that is there, so that none refers to it. -/
theorem Numbered.followUps_last {history : List HistoryEvent} {event : HistoryEvent}
    (hNumbered : Numbered (history ++ [event])) {source : SourceEvent}
    (hSource : source.event = event) : source.followUps history = [] := by
  unfold SourceEvent.followUps
  rw [List.filterMap_eq_nil_iff]
  intro other hOther
  rw [Option.bind_eq_none_iff]
  intro reference hReference
  rw [if_neg]
  intro hSame
  have hBefore := hNumbered.init.refers other hOther reference hReference
  have hAfter := hNumbered.last other hOther
  rw [SourceEvent.id, hSource] at hSame
  omega

theorem Scan.read_concat (history : List HistoryEvent) (event : HistoryEvent) :
    Scan.read (history ++ [event]) = (Scan.read history).step event := by
  rw [Scan.read, List.foldl_append]
  rfl

theorem Scan.step_of_source (scan : Scan) {event : HistoryEvent} {entry : CompactEvent}
    (hSource : sourceOf event = some entry) : scan.step event = scan.begin event entry := by
  unfold step
  rw [hSource]

theorem Scan.step_of_reference (scan : Scan) {event : HistoryEvent} {reference : Nat × EventType}
    (hSource : sourceOf event = none) (hReference : followUp? event.attributes = some reference) :
    scan.step event = scan.follow event reference.1 reference.2 := by
  unfold step
  rw [hSource, hReference]

theorem Scan.step_of_none (scan : Scan) {event : HistoryEvent} (hSource : sourceOf event = none)
    (hReference : followUp? event.attributes = none) : scan.step event = scan := by
  unfold step
  rw [hSource, hReference]

/-- A later event changes the entry of its source event and no other. -/
theorem Scan.follow_id2event {scan : Scan} (hNodup : (scan.id2event.map Prod.fst).Nodup)
    (event : HistoryEvent) (sourceId : Nat) (type : EventType) :
    (scan.follow event sourceId type).id2event = scan.id2event.map fun entry =>
      if entry.1 = sourceId then (entry.1, entry.2.follow type event) else entry := by
  unfold follow
  cases hLookup : scan.id2event.lookup sourceId with
  | some found =>
      exact Assoc.set_of_lookup hNodup hLookup fun entry => entry.follow type event
  | none =>
      -- The event refers to an event without an entry.
      have hAbsent : sourceId ∉ scan.id2event.map Prod.fst := by
        rw [← Assoc.lookup_isSome_iff, hLookup]
        exact Bool.false_ne_true
      show scan.id2event = _
      conv_lhs => rw [← List.map_id scan.id2event]
      apply List.map_congr_left
      intro entry hEntry
      rw [if_neg, id]
      intro hSame
      exact hAbsent (hSame ▸ List.mem_map_of_mem hEntry)

theorem Scan.follow_activity2eventid (scan : Scan) (event : HistoryEvent) (sourceId : Nat)
    (type : EventType) :
    (scan.follow event sourceId type).activity2eventid = scan.activity2eventid := by
  unfold follow
  split <;> rfl

/-- The entry of every source event is its settled entry, after every event. -/
theorem read_id2event {history : List HistoryEvent} (hNumbered : Numbered history) :
    (Scan.read history).id2event =
      (sources history).map fun source => (source.id, source.settled history) := by
  induction history using List.reverseRecOn with
  | nil => rfl
  | append_singleton history event ih =>
      have hBefore := ih hNumbered.init
      have hKeys : ((Scan.read history).id2event.map Prod.fst) =
          (sources history).map SourceEvent.id := by
        rw [hBefore, List.map_map]
        rfl
      rw [Scan.read_concat]
      cases hSource : sourceOf event with
      | some entry =>
          -- A new entry, to which nothing refers yet.
          have hNew : event.eventId ∉ (Scan.read history).id2event.map Prod.fst := by
            rw [hKeys]
            intro hMem
            obtain ⟨source, hOld, hId⟩ := List.mem_map.mp hMem
            have hLess := hNumbered.last _ (event_mem_of_source hOld)
            rw [SourceEvent.id] at hId
            omega
          have hSettled (source : SourceEvent) :
              source.settled (history ++ [event]) = source.settled history :=
            SourceEvent.settled_concat_none (followUp?_of_source hSource)
          rw [Scan.step_of_source _ hSource]
          show Assoc.set event.eventId entry (Scan.read history).id2event = _
          rw [Assoc.set_of_notMem hNew, hBefore, sources_concat_source hSource, List.map_append,
            List.map_singleton]
          simp only [hSettled]
          congr 2
          rw [SourceEvent.settled, hNumbered.followUps_last rfl]
          rfl
      | none =>
          rw [sources_concat_none hSource]
          cases hReference : followUp? event.attributes with
          | none =>
              rw [Scan.step_of_none _ hSource hReference]
              simp only [SourceEvent.settled_concat_none hReference]
              exact hBefore
          | some reference =>
              rw [Scan.step_of_reference _ hSource hReference,
                Scan.follow_id2event (by rw [hKeys]; exact hNumbered.init.nodup_ids), hBefore,
                List.map_map]
              apply List.map_congr_left
              intro source _
              rw [SourceEvent.settled_concat_some hReference]
              show (if source.id = reference.1 then
                (source.id, (source.settled history).follow reference.2 event)
                  else (source.id, source.settled history)) = _
              split <;> rfl

/-! ## The pending activities -/

theorem lookup_activity2eventid {history : List HistoryEvent}
    (hActivities : ((sources history).filterMap SourceEvent.activityId?).Nodup)
    (activityId : String) (sourceId : Nat) :
    (Scan.read history).activity2eventid.lookup activityId = some sourceId ↔
      ∃ source ∈ sources history, source.activityId? = some activityId ∧ source.id = sourceId := by
  induction history using List.reverseRecOn with
  | nil => simp [Scan.read, sources]
  | append_singleton history event ih =>
      rw [Scan.read_concat]
      cases hSource : sourceOf event with
      | none =>
          rw [sources_concat_none hSource] at hActivities ⊢
          rw [← ih hActivities]
          cases hReference : followUp? event.attributes with
          | none => rw [Scan.step_of_none _ hSource hReference]
          | some reference =>
              rw [Scan.step_of_reference _ hSource hReference, Scan.follow_activity2eventid]
      | some entry =>
          rw [sources_concat_source hSource, List.filterMap_append] at hActivities
          have hBefore := ih (List.nodup_append.mp hActivities).1
          rw [sources_concat_source hSource]
          simp only [List.mem_append, List.mem_singleton, or_and_right, exists_or, exists_eq_left]
          rw [← hBefore]
          rw [Scan.step_of_source _ hSource]
          show _ ↔ _ ∨ event.attributes.activityId? = some activityId ∧ event.eventId = sourceId
          unfold Scan.begin
          cases hScheduled : event.attributes.activityId? with
          | none => simp
          | some scheduled =>
              show (Assoc.set scheduled event.eventId (Scan.read history).activity2eventid).lookup
                activityId = _ ↔ _
              rw [Assoc.lookup_set]
              by_cases hSame : activityId = scheduled
              · -- No activity before has this identifier.
                subst hSame
                have hNew : (Scan.read history).activity2eventid.lookup activityId ≠
                    some sourceId := by
                  rw [Ne, hBefore]
                  rintro ⟨source, hMem, hId, -⟩
                  refine (List.nodup_append.mp hActivities).2.2 activityId
                    (List.mem_filterMap.mpr ⟨source, hMem, hId⟩) activityId ?_ rfl
                  exact List.mem_filterMap.mpr ⟨_, List.mem_singleton_self _, hScheduled⟩
                rw [if_pos rfl, Option.some.injEq]
                exact ⟨fun hId => Or.inr ⟨rfl, hId⟩, fun hEither =>
                  (hEither.resolve_left hNew).2⟩
              · rw [if_neg hSame, Option.some.injEq]
                exact ⟨Or.inl, fun hEither =>
                  hEither.resolve_right fun hBoth => hSame hBoth.1.symm⟩

/-- What the passes over the history and over the pending activities rely on. -/
structure Recorded (history : List HistoryEvent) : Prop extends Numbered history where
  positive : ∀ event ∈ history, 0 < event.eventId
  activities : ((sources history).filterMap SourceEvent.activityId?).Nodup

theorem SourceEvent.record_concat (source : SourceEvent) (history : List HistoryEvent)
    (pending : List PendingActivity) (activity : PendingActivity) :
    source.record history (pending ++ [activity]) =
      if activity.state = .started ∧ source.activityId? = some activity.activityId then
        (source.record history pending).pendingStarted activity
      else source.record history pending := by
  unfold record running
  rw [List.filter_append, List.foldl_append, List.filter_singleton]
  by_cases hState : activity.state = .started <;>
    by_cases hId : source.activityId? = some activity.activityId <;> simp [hState, hId]

theorem entries_eq {history : List HistoryEvent} (hRecorded : Recorded history)
    (pending : List PendingActivity) : (Scan.read history).entries pending =
      (sources history).map fun source => (source.id, source.record history pending) := by
  induction pending using List.reverseRecOn with
  | nil => exact read_id2event hRecorded.toNumbered
  | append_singleton pending activity ih =>
      have hEntries : (Scan.read history).entries (pending ++ [activity]) =
          (Scan.read history).markPending ((Scan.read history).entries pending) activity := by
        rw [Scan.entries, List.foldl_append]
        rfl
      have hKeys : ((Scan.read history).entries pending).map Prod.fst =
          (sources history).map SourceEvent.id := by
        rw [ih, List.map_map]
        rfl
      have hLookup := lookup_activity2eventid hRecorded.activities activity.activityId
      -- Where no source event is marked, the entries stay.
      have hUnmarked (hNone : ¬ ∃ source ∈ sources history, activity.state = .started ∧
          source.activityId? = some activity.activityId) :
          (Scan.read history).entries pending = (sources history).map fun source =>
            (source.id, source.record history (pending ++ [activity])) := by
        rw [ih]
        apply List.map_congr_left
        intro source hSource
        rw [source.record_concat, if_neg fun hBoth => hNone ⟨source, hSource, hBoth⟩]
      rw [hEntries]
      unfold Scan.markPending
      cases hFound : (Scan.read history).activity2eventid.lookup activity.activityId with
      | none =>
          apply hUnmarked
          rintro ⟨source, hSource, -, hId⟩
          rw [(hLookup source.id).mpr ⟨source, hSource, hId, rfl⟩] at hFound
          cases hFound
      | some sourceId =>
          obtain ⟨found, hMem, hActivity, hId⟩ := (hLookup sourceId).mp hFound
          have hPositive := hRecorded.positive _ (event_mem_of_source hMem)
          have hNonzero : sourceId ≠ 0 := by
            rw [← hId, SourceEvent.id]
            omega
          have hEntry : ((Scan.read history).entries pending).lookup sourceId =
              some (found.record history pending) := by
            rw [Assoc.lookup_eq_some_iff (by rw [hKeys]; exact hRecorded.nodup_ids), ih]
            exact List.mem_map.mpr ⟨found, hMem, by rw [hId]⟩
          dsimp only
          rw [if_neg hNonzero, hEntry]
          dsimp only
          by_cases hState : activity.state = .started
          · rw [if_pos hState, Assoc.set_of_lookup (by rw [hKeys]; exact hRecorded.nodup_ids)
              hEntry fun entry => entry.pendingStarted activity, ih, List.map_map]
            apply List.map_congr_left
            intro source hSource
            have hMarked : source.id = sourceId ↔
                source.activityId? = some activity.activityId := by
              constructor
              · intro hSame
                rw [List.inj_on_of_nodup_map hRecorded.nodup_ids hSource hMem
                  (hSame.trans hId.symm)]
                exact hActivity
              · intro hSame
                have hThis := (hLookup source.id).mpr ⟨source, hSource, hSame, rfl⟩
                rw [hFound, Option.some.injEq] at hThis
                exact hThis.symm
            rw [source.record_concat]
            show (if source.id = sourceId then
              (source.id, (source.record history pending).pendingStarted activity)
                else (source.id, source.record history pending)) = _
            by_cases hSame : source.id = sourceId
            · rw [if_pos hSame, if_pos ⟨hState, hMarked.mp hSame⟩]
            · rw [if_neg hSame, if_neg fun hBoth => hSame (hMarked.mpr hBoth.2)]
          · rw [if_neg hState]
            exact hUnmarked fun hSome => hSome.elim fun _ hBoth => hState hBoth.2.1

theorem list_eq {history : List HistoryEvent} (hRecorded : Recorded history)
    (pending : List PendingActivity) :
    listWorkflowExecutionEventsCompact history pending =
      (task2events ((sources history).map fun source => source.record history pending)).map
        Prod.snd := by
  rw [listWorkflowExecutionEventsCompact, entries_eq hRecorded, List.map_map]
  rfl

end CompactHistory
end Tracecat
