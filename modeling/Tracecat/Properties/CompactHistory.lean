import Tracecat.Workflow.CompactListing

/-!
# The compact history as the effective state of a run

What the entries of the compact history are to show: for a task that is no loop of child
workflows the state of its latest source event, for a loop the children of its latest
run, and nothing of a masked result.  The listing shows that of every history in which
each loop ran once and a loop with a failed child failed at its first child.
-/

namespace Tracecat
namespace CompactHistory

/-! ## The state of a source event -/

namespace SourceEvent

variable (source : SourceEvent) (history : List HistoryEvent) (pending : List PendingActivity)

/-- What the latest of the events of the source event that have a value gives. -/
def latest {β : Type} (value : EventType × HistoryEvent → Option β) : Option β :=
  ((source.followUps history).filterMap value).getLast?

/-- The status by the latest event of the source event; a detached child is not followed,
and an activity that is being tried has no event yet. -/
def effectiveStatus : EventStatus :=
  if source.running pending ≠ [] then .started
  else if source.entry.status = .detached then .detached
  else (source.latest history fun later => some later.1.toStatus).getD source.entry.status

/-- The result of the close event, redacted where the statement asks for it. -/
def effectiveResult : Value :=
  (source.latest history fun later =>
    (closeResult? later.2.attributes).map (sanitizeActionResult source.entry.maskOutput)).getD
      source.entry.actionResult

def effectiveError : Option EventFailure :=
  (source.latest history fun later => errorOf? later.2.attributes).or source.entry.actionError

/-- The start of the latest attempt that is pending or in the history. -/
def effectiveStart : Option Nat :=
  ((source.running pending).filterMap PendingActivity.lastStartedTime).getLast?.or
    ((source.latest history fun later =>
      if later.1.isStart then some later.2.eventTime else none).or source.entry.startTime)

def effectiveClose : Option Nat :=
  (source.latest history fun later =>
    (closeResult? later.2.attributes).map fun _ => later.2.eventTime).or source.entry.closeTime

/-- A later event says that the activity or the child workflow failed. -/
def Failed : Prop :=
  ∃ later ∈ source.followUps history, later.1.toStatus = .failed

end SourceEvent

/-- The entry shows the state of the source event. -/
structure Shows (entry : CompactEvent) (source : SourceEvent) (history : List HistoryEvent)
    (pending : List PendingActivity) : Prop where
  input : entry.actionInput = source.entry.actionInput
  status : entry.status = source.effectiveStatus history pending
  result : entry.actionResult = source.effectiveResult history
  error : entry.actionError = source.effectiveError history
  scheduleTime : entry.scheduleTime = source.entry.scheduleTime
  startTime : entry.startTime = source.effectiveStart history pending
  closeTime : entry.closeTime = source.effectiveClose history

theorem toStatus_ne_detached (type : EventType) : type.toStatus ≠ .detached := by
  cases type <;> decide

namespace SourceEvent

variable (source : SourceEvent) (history : List HistoryEvent) (pending : List PendingActivity)

theorem settled_latest {β : Type} (field : CompactEvent → Option β)
    (value : EventType × HistoryEvent → Option β)
    (hFollow : ∀ entry type event, entry.maskOutput = source.entry.maskOutput →
      field (entry.follow type event) = (value (type, event)).or (field entry)) :
    field (source.settled history) = (source.latest history value).or (field source.entry) := by
  have hMask (laters : List (EventType × HistoryEvent)) :
      (laters.foldl (fun entry later => entry.follow later.1 later.2) source.entry).maskOutput =
        source.entry.maskOutput := by
    induction laters using List.reverseRecOn with
    | nil => rfl
    | append_singleton laters later ih =>
        rw [List.foldl_append]
        exact (CompactEvent.follow_maskOutput _ _ _).trans ih
  unfold settled latest
  induction source.followUps history using List.reverseRecOn with
  | nil => rfl
  | append_singleton laters later ih =>
      rw [List.foldl_append, List.filterMap_append]
      show field (CompactEvent.follow _ later.1 later.2) = _
      rw [hFollow _ _ _ (hMask laters), ih, List.filterMap_cons, List.filterMap_nil]
      cases value later with
      | none => rw [List.append_nil, Option.none_or]
      | some found => rw [List.getLast?_concat, Option.some_or, Option.some_or]

theorem settled_actionResult :
    (source.settled history).actionResult = source.effectiveResult history := by
  have hLatest := source.settled_latest history (fun entry => some entry.actionResult)
    (fun later =>
      (closeResult? later.2.attributes).map (sanitizeActionResult source.entry.maskOutput))
    fun entry type event hMask => by
      rw [CompactEvent.follow_eq, hMask, Option.or_some]
  rw [Option.or_some, Option.some.injEq] at hLatest
  exact hLatest

theorem settled_actionError :
    (source.settled history).actionError = source.effectiveError history :=
  source.settled_latest history CompactEvent.actionError _
    fun entry type event _ => by rw [CompactEvent.follow_eq]

theorem settled_status : (source.settled history).status =
    if source.entry.status = .detached then .detached
    else (source.latest history fun later => some later.1.toStatus).getD source.entry.status := by
  unfold settled latest
  induction source.followUps history using List.reverseRecOn with
  | nil =>
      show source.entry.status = _
      split
      · assumption
      · rfl
  | append_singleton laters later ih =>
      rw [List.foldl_append, List.filterMap_append]
      show (CompactEvent.follow _ later.1 later.2).status =
        if _ then _ else ((_ ++ [later.1.toStatus]).getLast?).getD _
      rw [CompactEvent.follow_eq, List.getLast?_concat, Option.getD_some]
      dsimp only
      rw [ih]
      by_cases hDetached : source.entry.status = .detached
      · rw [if_pos hDetached, if_pos rfl, if_pos hDetached]
      · rw [if_neg hDetached, if_neg hDetached, if_neg]
        cases hLast : (laters.filterMap fun later => some later.1.toStatus).getLast? with
        | none => exact hDetached
        | some status =>
            obtain ⟨last, -, hStatus⟩ := List.mem_filterMap.mp (List.mem_of_getLast? hLast)
            rw [Option.getD_some, ← Option.some.inj hStatus]
            exact toStatus_ne_detached last.1

theorem record_eq : source.record history pending = { source.settled history with
    currEventType := if source.running pending = [] then (source.settled history).currEventType
      else .activityTaskStarted
    status := if source.running pending = [] then (source.settled history).status else .started
    startTime := ((source.running pending).filterMap PendingActivity.lastStartedTime).getLast?.or
      (source.settled history).startTime } := by
  unfold record
  induction source.running pending using List.reverseRecOn with
  | nil => rfl
  | append_singleton activities activity ih =>
      rw [List.foldl_append, List.filterMap_append]
      show CompactEvent.pendingStarted _ activity = _
      rw [ih]
      unfold CompactEvent.pendingStarted
      cases hTime : activity.lastStartedTime with
      | none => simp [hTime]
      | some time => simp [hTime]

theorem record_shows : Shows (source.record history pending) source history pending where
  input := source.record_frame CompactEvent.actionInput
    (fun entry type event => entry.follow_actionInput type event) fun _ _ => rfl
  status := by
    rw [record_eq]
    show (if source.running pending = [] then (source.settled history).status else .started) = _
    rw [settled_status]
    unfold effectiveStatus
    by_cases hRunning : source.running pending = []
    · rw [if_pos hRunning, if_neg (not_not_intro hRunning)]
    · rw [if_neg hRunning, if_pos hRunning]
  result := by
    rw [record_eq]
    exact source.settled_actionResult history
  error := by
    rw [record_eq]
    exact source.settled_actionError history
  scheduleTime := source.record_frame CompactEvent.scheduleTime
    (fun entry type event => entry.follow_scheduleTime type event) fun _ _ => rfl
  startTime := by
    rw [record_eq]
    show ((source.running pending).filterMap PendingActivity.lastStartedTime).getLast?.or
      (source.settled history).startTime = _
    unfold effectiveStart
    congr 1
    apply source.settled_latest history CompactEvent.startTime
    intro entry type event _
    rw [CompactEvent.follow_eq]
    dsimp only
    split <;> rfl
  closeTime := by
    rw [record_eq]
    show (source.settled history).closeTime = _
    apply source.settled_latest history CompactEvent.closeTime
    intro entry type event _
    rw [CompactEvent.follow_eq]
    dsimp only
    cases closeResult? event.attributes <;> rfl

end SourceEvent

/-! ## The entry of a task -/

/-- The source events of a task in their order. -/
def sourcesOf (history : List HistoryEvent) (task : Task) : List SourceEvent :=
  (sources history).filter fun source => source.task = task

/-- Entries of one task are folded into one. -/
def foldAll (events : List CompactEvent) : Option CompactEvent :=
  events.foldl (fun group event => some (CompactEvent.fold group event)) none

theorem foldAll_concat (events : List CompactEvent) (event : CompactEvent) :
    foldAll (events ++ [event]) = some (CompactEvent.fold (foldAll events) event) := by
  rw [foldAll, List.foldl_append]
  rfl

theorem foldAll_latest {events : List CompactEvent}
    (hDirect : ∀ event ∈ events, event.loopIndex = none)
    (hOrder : events.Pairwise fun event later => event.sourceEventId < later.sourceEventId) :
    foldAll events = events.getLast? := by
  induction events using List.reverseRecOn with
  | nil => rfl
  | append_singleton events event ih =>
      rw [List.pairwise_append] at hOrder
      have hBefore := ih (fun other hOther => hDirect other (List.mem_append_left _ hOther)) hOrder.1
      have hEvent := hDirect event (List.mem_append_right _ (List.mem_singleton_self _))
      rw [foldAll_concat, hBefore, List.getLast?_concat]
      cases hLast : events.getLast? with
      | none =>
          unfold CompactEvent.fold
          dsimp only
          rw [hEvent]
          rfl
      | some group =>
          have hMem := List.mem_of_getLast? hLast
          have hGroup := hDirect group (List.mem_append_left _ hMem)
          have hLess := hOrder.2.2 group hMem event (List.mem_singleton_self _)
          unfold CompactEvent.fold
          dsimp only
          rw [hEvent, hGroup, if_neg (by decide), if_pos (Nat.le_of_lt hLess)]

/-- What a group of children shows: a result for each, the status and the error of the
first. -/
structure Collected (group first : CompactEvent) (events : List CompactEvent) : Prop where
  loopIndex : group.loopIndex = first.loopIndex
  results : group.actionResult = .list (events.map CompactEvent.actionResult)
  status : group.status = first.status
  error : group.actionError = first.actionError

/-- Entries after a child of a loop are collected with it. -/
theorem foldAll_children (first : CompactEvent) (rest : List CompactEvent)
    (hLoop : first.loopIndex.isSome) :
    ∃ group, foldAll (first :: rest) = some group ∧ Collected group first (first :: rest) := by
  induction rest using List.reverseRecOn with
  | nil =>
      refine ⟨{ first with actionResult := .list [first.actionResult] }, ?_, rfl, rfl, rfl, rfl⟩
      show some (CompactEvent.fold none first) = _
      unfold CompactEvent.fold
      dsimp only
      rw [if_pos hLoop]
  | append_singleton rest event ih =>
      obtain ⟨group, hGroup, hCollected⟩ := ih
      refine ⟨group.mergeChild event, ?_, hCollected.loopIndex, ?_, hCollected.status,
        hCollected.error⟩
      · rw [← List.cons_append, foldAll_concat, hGroup]
        unfold CompactEvent.fold
        dsimp only
        rw [hCollected.loopIndex, hLoop, Bool.true_or, if_pos rfl]
      · have hList : group.resultList = (first :: rest).map CompactEvent.actionResult := by
          unfold CompactEvent.resultList
          rw [hCollected.results]
        show Value.list (group.resultList ++ [event.actionResult]) = _
        rw [hList, ← List.cons_append, List.map_append, List.map_singleton]

theorem fold_task {task : Task} {group : Option CompactEvent} {event : CompactEvent}
    (hGroup : ∀ entry, group = some entry → entry.task = task) (hEvent : event.task = task) :
    (CompactEvent.fold group event).task = task := by
  unfold CompactEvent.fold
  split
  · rename_i entry
    split
    · exact hGroup entry rfl
    · split
      · exact hEvent
      · exact hGroup entry rfl
  · split
    · exact hEvent
    · exact hEvent

theorem foldAll_task {task : Task} {events : List CompactEvent}
    (hEvents : ∀ event ∈ events, event.task = task) {entry : CompactEvent}
    (hEntry : foldAll events = some entry) : entry.task = task := by
  induction events using List.reverseRecOn generalizing entry with
  | nil => cases hEntry
  | append_singleton events event ih =>
      rw [foldAll_concat, Option.some.injEq] at hEntry
      subst hEntry
      apply fold_task
      · intro group hGroup
        exact ih (fun other hOther => hEvents other (List.mem_append_left _ hOther)) hGroup
      · exact hEvents event (List.mem_append_right _ (List.mem_singleton_self _))

section Listing

variable {history : List HistoryEvent} (hRecorded : Recorded history)
  (pending : List PendingActivity)

/-- The entry of a task is folded from the entries of its source events. -/
def entryOf (history : List HistoryEvent) (pending : List PendingActivity) (task : Task) :
    Option CompactEvent :=
  foldAll ((sourcesOf history task).map fun source => source.record history pending)

theorem lookup_task2events (task : Task) :
    (task2events ((sources history).map fun source => source.record history pending)).lookup task =
      entryOf history pending task := by
  rw [task2events, Assoc.lookup_accumulate, List.filter_map]
  unfold entryOf foldAll sourcesOf
  congr 2
  apply List.filter_congr
  intro source _
  show decide ((source.record history pending).task = task) = _
  rw [SourceEvent.record_task]

theorem entryOf_task {task : Task} {entry : CompactEvent}
    (hEntry : entryOf history pending task = some entry) : entry.task = task := by
  apply foldAll_task _ hEntry
  intro event hEvent
  obtain ⟨source, hSource, rfl⟩ := List.mem_map.mp hEvent
  rw [SourceEvent.record_task]
  exact of_decide_eq_true (List.mem_filter.mp hSource).2

include hRecorded

theorem mem_list_iff {entry : CompactEvent} :
    entry ∈ listWorkflowExecutionEventsCompact history pending ↔
      entryOf history pending entry.task = some entry := by
  rw [list_eq hRecorded]
  have hLookup := @lookup_task2events history pending
  constructor
  · intro hMem
    obtain ⟨pair, hPair, rfl⟩ := List.mem_map.mp hMem
    have hFound := (Assoc.lookup_eq_some_iff (Assoc.nodup_accumulate _)).mpr hPair
    have hEntry := (hLookup pair.1).symm.trans hFound
    rw [entryOf_task pending hEntry]
    exact hEntry
  · intro hEntry
    rw [← hLookup] at hEntry
    exact List.mem_map.mpr ⟨(entry.task, entry), Assoc.mem_of_lookup hEntry, rfl⟩

theorem map_task_list : (listWorkflowExecutionEventsCompact history pending).map
    CompactEvent.task = (task2events ((sources history).map fun source =>
      source.record history pending)).map Prod.fst := by
  rw [list_eq hRecorded, List.map_map]
  apply List.map_congr_left
  intro pair hPair
  have hFound := (Assoc.lookup_eq_some_iff (Assoc.nodup_accumulate _)).mpr hPair
  exact entryOf_task pending ((lookup_task2events pending pair.1).symm.trans hFound)

theorem nodup_list :
    ((listWorkflowExecutionEventsCompact history pending).map CompactEvent.task).Nodup := by
  rw [map_task_list hRecorded]
  exact Assoc.nodup_accumulate _

theorem mem_tasks_iff (task : Task) :
    task ∈ (listWorkflowExecutionEventsCompact history pending).map CompactEvent.task ↔
      ∃ source ∈ sources history, source.task = task := by
  rw [map_task_list hRecorded, task2events, Assoc.mem_keys_accumulate]
  constructor
  · rintro ⟨event, hEvent, rfl⟩
    obtain ⟨source, hSource, rfl⟩ := List.mem_map.mp hEvent
    exact ⟨source, hSource, source.record_task.symm⟩
  · rintro ⟨source, hSource, rfl⟩
    exact ⟨source.record history pending, List.mem_map_of_mem hSource, source.record_task⟩

end Listing

/-! ## Runs of a loop -/

/-- The source event is that of a child of a loop. -/
def SourceEvent.Looped (source : SourceEvent) : Prop := source.entry.loopIndex.isSome

instance SourceEvent.decidableLooped (source : SourceEvent) : Decidable source.Looped :=
  inferInstanceAs (Decidable (source.entry.loopIndex.isSome = true))

/-- A run initiates its children in the order of their indices, from 0 on. -/
def SourceEvent.Precedes (source later : SourceEvent) : Prop :=
  source.entry.loopIndex.getD 0 < later.entry.loopIndex.getD 0

instance SourceEvent.decidablePrecedes (source later : SourceEvent) :
    Decidable (source.Precedes later) :=
  inferInstanceAs (Decidable (_ < _))

/-- A child whose index does not grow begins the next run. -/
def extendRun (run : List SourceEvent) (child : SourceEvent) : List SourceEvent :=
  match run.getLast? with
  | some last => if last.Precedes child then run ++ [child] else [child]
  | none => [child]

/-- The children of the latest run among the children of all runs. -/
def latestRun (children : List SourceEvent) : List SourceEvent := children.foldl extendRun []

theorem latestRun_concat (children : List SourceEvent) (child : SourceEvent) :
    latestRun (children ++ [child]) = extendRun (latestRun children) child := by
  rw [latestRun, List.foldl_append]
  rfl

theorem latestRun_suffix (children : List SourceEvent) : latestRun children <:+ children := by
  induction children using List.reverseRecOn with
  | nil => exact List.suffix_rfl
  | append_singleton children child ih =>
      rw [latestRun_concat]
      have hSingle : [child] <:+ children ++ [child] := List.suffix_append _ _
      unfold extendRun
      split
      · split
        · obtain ⟨before, hBefore⟩ := ih
          refine ⟨before, ?_⟩
          rw [← List.append_assoc, hBefore]
        · exact hSingle
      · exact hSingle

theorem pairwise_latestRun (children : List SourceEvent) :
    (latestRun children).Pairwise SourceEvent.Precedes := by
  induction children using List.reverseRecOn with
  | nil => exact List.Pairwise.nil
  | append_singleton children child ih =>
      rw [latestRun_concat]
      unfold extendRun
      split
      · rename_i last hLast
        split
        · rename_i hPrecedes
          rw [List.pairwise_append]
          refine ⟨ih, List.pairwise_singleton _ _, ?_⟩
          intro source hSource later hLater
          rw [List.mem_singleton.mp hLater]
          obtain ⟨before, hBefore⟩ := List.getLast?_eq_some_iff.mp hLast
          rw [hBefore] at hSource ih
          rcases List.mem_append.mp hSource with hMem | hMem
          · have hFirst : source.Precedes last :=
              (List.pairwise_append.mp ih).2.2 source hMem last (List.mem_singleton_self _)
            unfold SourceEvent.Precedes at hFirst hPrecedes ⊢
            omega
          · rwa [List.mem_singleton.mp hMem]
        · exact List.pairwise_singleton _ _
      · exact List.pairwise_singleton _ _

theorem latestRun_of_pairwise {children : List SourceEvent}
    (hPairwise : children.Pairwise SourceEvent.Precedes) : latestRun children = children := by
  induction children using List.reverseRecOn with
  | nil => rfl
  | append_singleton children child ih =>
      rw [List.pairwise_append] at hPairwise
      rw [latestRun_concat, ih hPairwise.1]
      unfold extendRun
      cases hLast : children.getLast? with
      | none =>
          rw [List.getLast?_eq_none_iff.mp hLast]
          rfl
      | some last =>
          dsimp only
          rw [if_pos]
          exact hPairwise.2.2 last (List.mem_of_getLast? hLast) child (List.mem_singleton_self _)

/-- The children of the latest run of the loop of a task. -/
def latestChildren (history : List HistoryEvent) (task : Task) : List SourceEvent :=
  latestRun ((sourcesOf history task).filter fun source => source.Looped)

/-- The latest run is all there is exactly where the task has one run and nothing else. -/
theorem latestChildren_eq_iff {history : List HistoryEvent} {task : Task} :
    (latestChildren history task).length = (sourcesOf history task).length ↔
      (∀ source ∈ sourcesOf history task, source.Looped) ∧
        (sourcesOf history task).Pairwise SourceEvent.Precedes := by
  unfold latestChildren
  constructor
  · intro hLength
    have hSuffix := latestRun_suffix ((sourcesOf history task).filter fun source => source.Looped)
    have hFilter : (sourcesOf history task).filter (fun source => decide source.Looped) =
        sourcesOf history task := by
      apply List.filter_sublist.eq_of_length_le
      rw [← hLength]
      exact hSuffix.length_le
    rw [hFilter] at hLength hSuffix
    refine ⟨fun source hSource => of_decide_eq_true (List.filter_eq_self.mp hFilter source hSource),
      ?_⟩
    have hRun := pairwise_latestRun (sourcesOf history task)
    rwa [hSuffix.eq_of_length hLength] at hRun
  · rintro ⟨hLooped, hPairwise⟩
    have hFilter : (sourcesOf history task).filter (fun source => decide source.Looped) =
        sourcesOf history task :=
      List.filter_eq_self.mpr fun source hSource => decide_eq_true (hLooped source hSource)
    rw [hFilter, latestRun_of_pairwise hPairwise]

/-! ## The effective state -/

mutual

/-- The parts of a value that have no parts. -/
def Value.leaves : Value → List Value
  | .list items => leavesItems items
  | .tuple items => leavesItems items
  | .dict entries => leavesEntries entries
  | .model fields => leavesEntries fields
  | .none => [.none]
  | .bool value => [.bool value]
  | .int value => [.int value]
  | .str text => [.str text]
  | .other text => [.other text]

def leavesItems : List Value → List Value
  | [] => []
  | item :: items => item.leaves ++ leavesItems items

def leavesEntries : List (String × Value) → List Value
  | [] => []
  | (_, child) :: entries => child.leaves ++ leavesEntries entries

end

/-- Nothing of a result is shown: a leaf is redacted, or stands for a result that is not
there yet. -/
def Redacted (result : Value) : Prop :=
  ∀ leaf ∈ result.leaves, leaf = .str redactedActionResult ∨ leaf = .none

/-- The entry of a loop: a result for each child of the latest run in the order of the
indices, and a failed status with an error where a child failed. -/
structure CoversLoop (entry : CompactEvent) (history : List HistoryEvent) (task : Task) :
    Prop where
  results : entry.actionResult = .list ((latestChildren history task).map fun child =>
    child.effectiveResult history)
  failure : (entry.status = .failed ∧ entry.actionError.isSome) ↔
    ∃ child ∈ latestChildren history task, child.Failed history

/-- The entries are the effective state of the run with this history. -/
structure Effective (history : List HistoryEvent) (pending : List PendingActivity)
    (entries : List CompactEvent) : Prop where
  one : (entries.map CompactEvent.task).Nodup
  covered : ∀ task, task ∈ entries.map CompactEvent.task ↔
    ∃ source ∈ sources history, source.task = task
  latest : ∀ entry ∈ entries, (∀ source ∈ sourcesOf history entry.task, ¬ source.Looped) →
    ∃ source, (sourcesOf history entry.task).getLast? = some source ∧
      Shows entry source history pending
  loops : ∀ entry ∈ entries, (∃ source ∈ sourcesOf history entry.task, source.Looped) →
    CoversLoop entry history entry.task
  masked : ∀ entry ∈ entries,
    (∀ source ∈ sourcesOf history entry.task, source.entry.maskOutput) →
      Redacted entry.actionResult

/-- A history that a run produces.  After the event that closes an activity or a child
nothing more refers to it, and where a task has children of a loop and other source
events (the error handler of the workflow is named by a title), the children come first. -/
structure Produced (history : List HistoryEvent) : Prop extends Recorded history where
  closed : history.Pairwise fun event later => ∀ reference ∈ followUp? event.attributes,
    ∀ other ∈ followUp? later.attributes, reference.1 = other.1 → reference.2.isStart
  childrenFirst : (sources history).Pairwise fun source later =>
    source.task = later.task → later.Looped → source.Looped

/-- A loop that is shown as it is: it ran once, and where a child failed the first one
did, and was followed. -/
structure ShownLoop (history : List HistoryEvent) (task : Task) : Prop where
  once : (∀ source ∈ sourcesOf history task, source.Looped) ∧
    (sourcesOf history task).Pairwise SourceEvent.Precedes
  first : (∃ source ∈ sourcesOf history task, source.Failed history) →
    ∃ source, (sourcesOf history task).head? = some source ∧ source.Failed history ∧
      source.entry.status ≠ .detached

/-! ## Children of a loop -/

namespace SourceEvent

variable {source : SourceEvent} {history : List HistoryEvent}

/-- A child is no activity, and its entry begins scheduled or detached. -/
theorem Looped.child (hLooped : source.Looped) : source.activityId? = none ∧
    (source.entry.status = .scheduled ∨ source.entry.status = .detached) := by
  have hSome : source.entry.loopIndex ≠ none := Option.isSome_iff_ne_none.mp hLooped
  rcases (source_kinds source.begins).2 with hActivity | hChild | hWorkflow
  · exact absurd hActivity.1 hSome
  · exact ⟨hChild.1, hChild.2.2⟩
  · exact absurd hWorkflow.1 hSome

theorem Looped.record_eq_settled (hLooped : source.Looped) (pending : List PendingActivity) :
    source.record history pending = source.settled history := by
  have hRunning : source.running pending = [] := by
    unfold running
    rw [List.filter_eq_nil_iff]
    intro activity _
    rw [hLooped.child.1]
    simp
  unfold record
  rw [hRunning]
  rfl

theorem actionResult_of_masked (hMasked : source.entry.maskOutput) :
    source.entry.actionResult = .none := by
  rcases (source_kinds source.begins).2 with hActivity | hChild | hWorkflow
  · exact hActivity.2
  · exact hChild.2.1
  · rw [hWorkflow.2] at hMasked
    cases hMasked

theorem followUp?_of_mem {later : EventType × HistoryEvent}
    (hLater : later ∈ source.followUps history) :
    later.2 ∈ history ∧ followUp? later.2.attributes = some (source.id, later.1) := by
  obtain ⟨event, hEvent, hBind⟩ := List.mem_filterMap.mp hLater
  obtain ⟨reference, hReference, hIf⟩ := Option.bind_eq_some_iff.mp hBind
  split at hIf
  · rename_i hSame
    rw [← Option.some.inj hIf, hReference, ← hSame]
    exact ⟨hEvent, rfl⟩
  · cases hIf

/-- Only an event that starts an attempt is followed by another. -/
theorem pairwise_followUps (hProduced : Produced history) (source : SourceEvent) :
    (source.followUps history).Pairwise fun later _ => later.1.isStart := by
  unfold followUps
  rw [List.pairwise_filterMap]
  refine hProduced.closed.imp ?_
  intro event later hClosed first hFirst second hSecond
  obtain ⟨reference, hReference, hIf⟩ := Option.bind_eq_some_iff.mp hFirst
  obtain ⟨other, hOther, hOtherIf⟩ := Option.bind_eq_some_iff.mp hSecond
  split at hIf
  · rename_i hSame
    split at hOtherIf
    · rename_i hOtherSame
      rw [← Option.some.inj hIf]
      exact hClosed reference hReference other hOther (hSame.trans hOtherSame.symm)
    · cases hOtherIf
  · cases hIf

theorem errorOf?_of_failed {attributes : Attributes} {sourceId : Nat} {type : EventType}
    (hFollow : followUp? attributes = some (sourceId, type)) (hFailed : type.toStatus = .failed) :
    (errorOf? attributes).isSome := by
  unfold followUp? at hFollow
  split at hFollow <;> cases hFollow <;> first | rfl | cases hFailed

theorem isStart_of_failed {type : EventType} (hFailed : type.toStatus = .failed) :
    type.isStart = false := by
  cases type <;> first | rfl | cases hFailed

theorem getLast?_of_failed (hProduced : Produced history) {later : EventType × HistoryEvent}
    (hLater : later ∈ source.followUps history) (hFailed : later.1.toStatus = .failed) :
    (source.followUps history).getLast? = some later := by
  obtain ⟨before, after, hSplit⟩ := List.append_of_mem hLater
  have hPairwise := source.pairwise_followUps hProduced
  rw [hSplit] at hPairwise ⊢
  cases after with
  | nil => exact List.getLast?_concat
  | cons next after =>
      have hStart := List.rel_of_pairwise_cons (List.pairwise_append.mp hPairwise).2.1
        (List.mem_cons_self (a := next) (l := after))
      rw [isStart_of_failed hFailed] at hStart
      cases hStart

/-- The entry of a child shows a failure exactly where the child failed and is followed. -/
theorem settled_failed_iff (hProduced : Produced history) (hLooped : source.Looped) :
    (source.settled history).status = .failed ∧ (source.settled history).actionError.isSome ↔
      source.Failed history ∧ source.entry.status ≠ .detached := by
  rw [settled_status, settled_actionError]
  constructor
  · rintro ⟨hStatus, -⟩
    split at hStatus
    · cases hStatus
    · rename_i hDetached
      refine ⟨?_, hDetached⟩
      have hScheduled := hLooped.child.2.resolve_right hDetached
      cases hLast : source.latest history fun later => some later.1.toStatus with
      | none =>
          rw [hLast, Option.getD_none, hScheduled] at hStatus
          cases hStatus
      | some status =>
          obtain ⟨later, hLater, hSome⟩ := List.mem_filterMap.mp (List.mem_of_getLast? hLast)
          refine ⟨later, hLater, ?_⟩
          rw [hLast, Option.getD_some] at hStatus
          rw [Option.some.inj hSome, hStatus]
  · rintro ⟨⟨later, hLater, hFailed⟩, hDetached⟩
    rw [if_neg hDetached]
    constructor
    · unfold latest
      obtain ⟨before, hBefore⟩ :=
        List.getLast?_eq_some_iff.mp (getLast?_of_failed hProduced hLater hFailed)
      rw [hBefore, List.filterMap_append]
      show ((_ ++ [later.1.toStatus]).getLast?).getD _ = _
      rw [List.getLast?_concat, Option.getD_some, hFailed]
    · have hError := errorOf?_of_failed (followUp?_of_mem hLater).2 hFailed
      obtain ⟨failure, hFailure⟩ := Option.isSome_iff_exists.mp hError
      have hMem : failure ∈ (source.followUps history).filterMap fun later =>
          errorOf? later.2.attributes := List.mem_filterMap.mpr ⟨later, hLater, hFailure⟩
      unfold effectiveError latest
      rw [List.getLast?_eq_some_getLast (List.ne_nil_of_mem hMem)]
      rfl

end SourceEvent

/-! ## What the entries show -/

section Shown

variable {history : List HistoryEvent} {pending : List PendingActivity} {task : Task}
  {entry : CompactEvent}

theorem entryOf_direct (hNumbered : Numbered history)
    (hDirect : ∀ source ∈ sourcesOf history task, ¬ source.Looped)
    (hEntry : entryOf history pending task = some entry) :
    ∃ source, (sourcesOf history task).getLast? = some source ∧
      entry = source.record history pending := by
  rw [entryOf, foldAll_latest, List.getLast?_map] at hEntry
  · obtain ⟨source, hLast, hRecord⟩ := Option.map_eq_some_iff.mp hEntry
    exact ⟨source, hLast, hRecord.symm⟩
  · intro event hEvent
    obtain ⟨source, hSource, rfl⟩ := List.mem_map.mp hEvent
    rw [SourceEvent.record_loopIndex]
    exact Option.not_isSome_iff_eq_none.mp (hDirect source hSource)
  · rw [List.pairwise_map]
    refine (hNumbered.pairwise_sources.filter _).imp ?_
    intro source later hLess
    rwa [SourceEvent.record_sourceEventId, SourceEvent.record_sourceEventId]

theorem entryOf_loop (hProduced : Produced history)
    (hLoop : ∃ source ∈ sourcesOf history task, source.Looped)
    (hEntry : entryOf history pending task = some entry) :
    ∃ first rest, sourcesOf history task = first :: rest ∧ first.Looped ∧
      Collected entry (first.record history pending)
        ((first :: rest).map fun source => source.record history pending) := by
  obtain ⟨source, hSource, hLooped⟩ := hLoop
  have hTask (other : SourceEvent) (hOther : other ∈ sourcesOf history task) :
      other.task = task := of_decide_eq_true (List.mem_filter.mp hOther).2
  have hOrder := hProduced.childrenFirst.filter fun source => source.task = task
  cases hSources : sourcesOf history task with
  | nil =>
      rw [hSources] at hSource
      cases hSource
  | cons first rest =>
      have hFirst : first.Looped := by
        have hFirstTask := hTask first (by rw [hSources]; exact List.mem_cons_self)
        have hSourceTask := hTask source hSource
        replace hOrder : (sourcesOf history task).Pairwise _ := hOrder
        rw [hSources] at hSource hOrder
        rcases List.mem_cons.mp hSource with rfl | hRest
        · exact hLooped
        · exact List.rel_of_pairwise_cons hOrder hRest (hFirstTask.trans hSourceTask.symm) hLooped
      refine ⟨first, rest, rfl, hFirst, ?_⟩
      have hRecord : (first.record history pending).loopIndex.isSome := by
        rw [SourceEvent.record_loopIndex]
        exact hFirst
      obtain ⟨group, hGroup, hCollected⟩ := foldAll_children (first.record history pending)
        (rest.map fun source => source.record history pending) hRecord
      rw [entryOf, hSources, List.map_cons, hGroup, Option.some.injEq] at hEntry
      rw [← hEntry]
      exact hCollected

theorem actionResult_loop (hProduced : Produced history)
    (hLoop : ∃ source ∈ sourcesOf history task, source.Looped)
    (hEntry : entryOf history pending task = some entry) :
    entry.actionResult = .list ((sourcesOf history task).map fun source =>
      source.effectiveResult history) := by
  obtain ⟨first, rest, hSources, -, hCollected⟩ := entryOf_loop hProduced hLoop hEntry
  rw [hCollected.results, hSources, List.map_map]
  congr 1
  apply List.map_congr_left
  intro source _
  exact (source.record_shows history pending).result

theorem failed_loop_iff (hProduced : Produced history)
    (hLoop : ∃ source ∈ sourcesOf history task, source.Looped)
    (hEntry : entryOf history pending task = some entry) :
    (entry.status = .failed ∧ entry.actionError.isSome) ↔
      ∃ source, (sourcesOf history task).head? = some source ∧ source.Failed history ∧
        source.entry.status ≠ .detached := by
  obtain ⟨first, rest, hSources, hFirst, hCollected⟩ := entryOf_loop hProduced hLoop hEntry
  rw [hCollected.status, hCollected.error, hFirst.record_eq_settled,
    SourceEvent.settled_failed_iff hProduced hFirst, hSources]
  constructor
  · intro hFailed
    exact ⟨first, rfl, hFailed⟩
  · rintro ⟨source, hHead, hFailed⟩
    rwa [Option.some.inj hHead]

theorem coversLoop_iff (hProduced : Produced history)
    (hLoop : ∃ source ∈ sourcesOf history task, source.Looped)
    (hEntry : entryOf history pending task = some entry) :
    CoversLoop entry history task ↔ ShownLoop history task := by
  have hResult := actionResult_loop hProduced hLoop hEntry
  have hFailed := failed_loop_iff hProduced hLoop hEntry
  -- Where the latest run is all there is, the children of the run are the source events.
  have hSuffix := latestRun_suffix
    ((sourcesOf history task).filter fun source => decide source.Looped)
  have hSublist : (latestChildren history task).Sublist (sourcesOf history task) :=
    hSuffix.sublist.trans List.filter_sublist
  constructor
  · intro hCovers
    have hLength : (latestChildren history task).length = (sourcesOf history task).length := by
      have hSame := hCovers.results.symm.trans hResult
      rw [Value.list.injEq] at hSame
      simpa using congrArg List.length hSame
    have hAll := hSublist.eq_of_length hLength
    refine ⟨latestChildren_eq_iff.mp hLength, ?_⟩
    rintro ⟨source, hSource, hSourceFailed⟩
    apply hFailed.mp
    rw [hCovers.failure, hAll]
    exact ⟨source, hSource, hSourceFailed⟩
  · intro hShown
    have hAll := hSublist.eq_of_length (latestChildren_eq_iff.mpr hShown.once)
    refine ⟨by rw [hResult, hAll], ?_⟩
    rw [hFailed, hAll]
    constructor
    · rintro ⟨source, hHead, hSourceFailed, -⟩
      exact ⟨source, List.mem_of_mem_head? hHead, hSourceFailed⟩
    · exact hShown.first

mutual

theorem leaves_redactLeafValues : ∀ value : Value, ∀ leaf ∈ (redactLeafValues value).leaves,
    leaf = .str redactedActionResult
  | .model fields => leaves_redactEntries fields
  | .dict entries => leaves_redactEntries entries
  | .list items => leaves_redactItems items
  | .tuple items => leaves_redactItems items
  | .none => fun _ hLeaf => List.mem_singleton.mp hLeaf
  | .bool _ => fun _ hLeaf => List.mem_singleton.mp hLeaf
  | .int _ => fun _ hLeaf => List.mem_singleton.mp hLeaf
  | .str _ => fun _ hLeaf => List.mem_singleton.mp hLeaf
  | .other _ => fun _ hLeaf => List.mem_singleton.mp hLeaf

theorem leaves_redactItems : ∀ items : List Value, ∀ leaf ∈ leavesItems (redactItems items),
    leaf = .str redactedActionResult
  | [] => fun _ hLeaf => (List.not_mem_nil hLeaf).elim
  | item :: items => fun leaf hLeaf => (List.mem_append.mp hLeaf).elim
      (leaves_redactLeafValues item leaf) (leaves_redactItems items leaf)

theorem leaves_redactEntries : ∀ entries : List (String × Value),
    ∀ leaf ∈ leavesEntries (redactEntries entries), leaf = .str redactedActionResult
  | [] => fun _ hLeaf => (List.not_mem_nil hLeaf).elim
  | (_, child) :: entries => fun leaf hLeaf => (List.mem_append.mp hLeaf).elim
      (leaves_redactLeafValues child leaf) (leaves_redactEntries entries leaf)

end

theorem redacted_effectiveResult {source : SourceEvent} (hMasked : source.entry.maskOutput) :
    Redacted (source.effectiveResult history) := by
  unfold SourceEvent.effectiveResult
  cases hLatest : source.latest history fun later =>
      (closeResult? later.2.attributes).map (sanitizeActionResult source.entry.maskOutput) with
  | none =>
      rw [Option.getD_none, SourceEvent.actionResult_of_masked hMasked]
      intro leaf hLeaf
      exact Or.inr (List.mem_singleton.mp hLeaf)
  | some shown =>
      obtain ⟨later, -, hShown⟩ := List.mem_filterMap.mp (List.mem_of_getLast? hLatest)
      obtain ⟨rawResult, -, hSanitize⟩ := Option.map_eq_some_iff.mp hShown
      rw [Option.getD_some, ← hSanitize, sanitizeActionResult, if_pos hMasked]
      intro leaf hLeaf
      exact Or.inl (leaves_redactLeafValues rawResult leaf hLeaf)

theorem redacted_list {items : List Value} (hItems : ∀ item ∈ items, Redacted item) :
    Redacted (.list items) := by
  intro leaf hLeaf
  replace hLeaf : leaf ∈ leavesItems items := hLeaf
  induction items with
  | nil => cases hLeaf
  | cons item items ih =>
      rcases List.mem_append.mp hLeaf with hItem | hRest
      · exact hItems item List.mem_cons_self leaf hItem
      · exact ih (fun other hOther => hItems other (List.mem_cons_of_mem _ hOther)) hRest

end Shown

theorem shownLoop_of_effective {history : List HistoryEvent} (hProduced : Produced history)
    {pending : List PendingActivity} (hEffective : Effective history pending
      (listWorkflowExecutionEventsCompact history pending))
    {task : Task} (hLoop : ∃ source ∈ sourcesOf history task, source.Looped) :
    ShownLoop history task := by
  obtain ⟨source, hSource, hLooped⟩ := hLoop
  obtain ⟨hIn, hTask⟩ := List.mem_filter.mp hSource
  obtain ⟨entry, hEntry, rfl⟩ := List.mem_map.mp
    ((hEffective.covered task).mpr ⟨source, hIn, of_decide_eq_true hTask⟩)
  rw [← coversLoop_iff hProduced ⟨source, hSource, hLooped⟩
    ((mem_list_iff hProduced.toRecorded pending).mp hEntry)]
  exact hEffective.loops entry hEntry ⟨source, hSource, hLooped⟩

/-- The compact history is the effective state of the run if and only if every loop of
child workflows in it ran once and, where a child failed, the first child did. -/
theorem compact_history_effective_iff {history : List HistoryEvent}
    (hProduced : Produced history) (pending : List PendingActivity) :
    Effective history pending (listWorkflowExecutionEventsCompact history pending) ↔
      ∀ task, (∃ source ∈ sourcesOf history task, source.Looped) → ShownLoop history task := by
  have hMem := @mem_list_iff history hProduced.toRecorded pending
  constructor
  · intro hEffective task hLoop
    exact shownLoop_of_effective hProduced hEffective hLoop
  · intro hShown
    refine ⟨nodup_list hProduced.toRecorded pending, mem_tasks_iff hProduced.toRecorded pending,
      ?_, ?_, ?_⟩
    · intro entry hEntry hDirect
      obtain ⟨source, hLast, rfl⟩ :=
        entryOf_direct hProduced.toNumbered hDirect (hMem.mp hEntry)
      exact ⟨source, hLast, source.record_shows history pending⟩
    · intro entry hEntry hLoop
      rw [coversLoop_iff hProduced hLoop (hMem.mp hEntry)]
      exact hShown entry.task hLoop
    · intro entry hEntry hMasked
      by_cases hLoop : ∃ source ∈ sourcesOf history entry.task, source.Looped
      · rw [actionResult_loop hProduced hLoop (hMem.mp hEntry)]
        apply redacted_list
        intro result hResult
        obtain ⟨source, hSource, rfl⟩ := List.mem_map.mp hResult
        exact redacted_effectiveResult (hMasked source hSource)
      · have hDirect : ∀ source ∈ sourcesOf history entry.task, ¬ source.Looped :=
          fun source hSource hLooped => hLoop ⟨source, hSource, hLooped⟩
        obtain ⟨source, hLast, hRecord⟩ :=
          entryOf_direct hProduced.toNumbered hDirect (hMem.mp hEntry)
        rw [hRecord, (source.record_shows history pending).result]
        exact redacted_effectiveResult (hMasked source (List.mem_of_getLast? hLast))

/-! ## Loops that are not shown -/

instance SourceEvent.decidableFailed (source : SourceEvent) (history : List HistoryEvent) :
    Decidable (source.Failed history) :=
  inferInstanceAs (Decidable (∃ later ∈ source.followUps history, later.1.toStatus = .failed))

/-- The task of a loop of child workflows. -/
def notifyTask : Task where
  ref := "notify"
  stream := rootStream

def workflowStarted : HistoryEvent where
  eventId := 1
  eventTime := 1
  attributes := .workflowExecutionStarted .none

def childInitiated (eventId loopIndex : Nat) : HistoryEvent where
  eventId := eventId
  eventTime := eventId
  attributes := .startChildWorkflowExecutionInitiated "wf/exec" false
    (.dslWorkflow { actionRef := notifyTask.ref, loopIndex := loopIndex } .none)

def childCompleted (eventId initiatedEventId : Nat) : HistoryEvent where
  eventId := eventId
  eventTime := eventId
  attributes := .childWorkflowExecutionCompleted initiatedEventId (.inline (.str "sent"))

def childFailed (eventId initiatedEventId : Nat) : HistoryEvent where
  eventId := eventId
  eventTime := eventId
  attributes := .childWorkflowExecutionFailed initiatedEventId { message := "refused" }

/-- A do-while loop around a loop with one child: two runs. -/
def rerunHistory : List HistoryEvent :=
  [workflowStarted, childInitiated 5 0, childCompleted 9 5, childInitiated 15 0,
    childCompleted 19 15]

/-- The second of two children fails. -/
def failedChildHistory : List HistoryEvent :=
  [workflowStarted, childInitiated 5 0, childInitiated 6 1, childCompleted 9 5, childFailed 10 6]

/-- The first of two children fails. -/
def failedFirstHistory : List HistoryEvent :=
  [workflowStarted, childInitiated 5 0, childInitiated 6 1, childFailed 9 5, childCompleted 10 6]

theorem produced_rerunHistory : Produced rerunHistory where
  increasing := by decide
  refers := by decide
  positive := by decide
  activities := by decide
  closed := by decide
  childrenFirst := by decide

theorem produced_failedChildHistory : Produced failedChildHistory where
  increasing := by decide
  refers := by decide
  positive := by decide
  activities := by decide
  closed := by decide
  childrenFirst := by decide

theorem produced_failedFirstHistory : Produced failedFirstHistory where
  increasing := by decide
  refers := by decide
  positive := by decide
  activities := by decide
  closed := by decide
  childrenFirst := by decide

/-- A loop that ran once and failed at its first child is shown as it is. -/
theorem failedFirstHistory_effective : Effective failedFirstHistory []
    (listWorkflowExecutionEventsCompact failedFirstHistory []) := by
  refine (compact_history_effective_iff produced_failedFirstHistory []).mpr ?_
  rintro task ⟨source, hSource, hLooped⟩
  obtain ⟨hIn, hTask⟩ := List.mem_filter.mp hSource
  have hLoops : ∀ source ∈ sources failedFirstHistory, source.Looped →
      source.task = notifyTask := by decide
  have hNotify : task = notifyTask := (of_decide_eq_true hTask).symm.trans
    (hLoops source hIn hLooped)
  subst hNotify
  refine ⟨by decide, fun _ => ?_⟩
  have hFirst : ∃ source ∈ (sourcesOf failedFirstHistory notifyTask).head?,
      source.Failed failedFirstHistory ∧ source.entry.status ≠ .detached := by decide
  exact hFirst

/-- The entry of a rerun loop covers both runs, and the entry of a loop whose second child
failed shows no failure. -/
theorem rerun_and_failure_not_effective :
    (Produced rerunHistory ∧ ¬ Effective rerunHistory []
      (listWorkflowExecutionEventsCompact rerunHistory [])) ∧
    (Produced failedChildHistory ∧ ¬ Effective failedChildHistory []
      (listWorkflowExecutionEventsCompact failedChildHistory [])) := by
  refine ⟨⟨produced_rerunHistory, ?_⟩, produced_failedChildHistory, ?_⟩
  · intro hEffective
    have hLoop : ∃ source ∈ sourcesOf rerunHistory notifyTask, source.Looped := by decide
    have hShown := shownLoop_of_effective produced_rerunHistory hEffective hLoop
    have hTwice : ¬ (sourcesOf rerunHistory notifyTask).Pairwise SourceEvent.Precedes := by decide
    exact hTwice hShown.once.2
  · intro hEffective
    have hLoop : ∃ source ∈ sourcesOf failedChildHistory notifyTask, source.Looped := by decide
    have hShown := shownLoop_of_effective produced_failedChildHistory hEffective hLoop
    have hFailed : ∃ source ∈ sourcesOf failedChildHistory notifyTask,
        source.Failed failedChildHistory := by decide
    have hFirst : ∀ source ∈ (sourcesOf failedChildHistory notifyTask).head?,
        ¬ source.Failed failedChildHistory := by decide
    obtain ⟨source, hHead, hSourceFailed, -⟩ := hShown.first hFailed
    exact hFirst source hHead hSourceFailed

end CompactHistory
end Tracecat
