import Tracecat.Dsl.StreamTexts
import Tracecat.Scheduler.QueueStreams
import Tracecat.Scheduler.Regions
import Tracecat.Scheduler.Move

/-!
# Stream identifiers encode the stream tree

The streams that a run of the scheduler creates, with the parents that `stream_hierarchy` gives
them, are a tree.  Their texts tell them apart, and the text of a stream begins with the text of
another one and a slash exactly when the other one is above it.
-/

namespace Tracecat

/-! ## Streams of a run -/

namespace DSLScheduler

section Run

variable (scheduler : DSLScheduler) (context : ExecutionContext) (events : List Event)

/-- The states that a run goes through. -/
def Visits (state : State) : Prop :=
  ∃ done, done <+: events ∧ scheduler.run (State.init scheduler context) done = some state

/-- `stream_hierarchy` gets the entry in the run. -/
def HierarchyEntry (stream : StreamID) (parent : Option StreamID) : Prop :=
  ∃ state, scheduler.Visits context events state ∧
    state.streamHierarchy.lookup stream = some parent

/-- The stream is created in the run. -/
def Creates (stream : StreamID) : Prop :=
  ∃ parent, scheduler.HierarchyEntry context events stream parent

/-- The first stream is the second, or above it by the entries of `stream_hierarchy`. -/
def Above : StreamID → StreamID → Prop :=
  Relation.ReflTransGen fun parent stream =>
    scheduler.HierarchyEntry context events stream (some parent)

end Run

/-- Identifiers of the streams that a run creates, as strings, against the tree. -/
structure FaithfulIdentifiers (scheduler : DSLScheduler) (context : ExecutionContext)
    (events : List Event) (unicodeDigit : Char → Option (Fin 10)) : Prop where
  /-- `new` and `skip` -/
  injective : ∀ scope scope' index index' base base' text, IsSlug scope → IsSlug scope' →
    StreamText.new scope index base = .ok text → StreamText.new scope' index' base' = .ok text →
      base = base' ∧ scope = scope' ∧ index = index'
  distinct : ∀ first second, scheduler.Creates context events first →
    scheduler.Creates context events second → first.text = second.text → first = second
  /-- `ROOT_STREAM` -/
  root : StreamText.new "<root>" (.int 0) none = .ok rootStream.text ∧
    StreamText.leaf unicodeDigit rootStream.text = .ok ("<root>", .int 0)
  leaf : ∀ base scope index text, scheduler.Creates context events (.child base scope index) →
    StreamText.new scope (.ofIndex index) (some base.text) = .ok text →
      text = (StreamID.child base scope index).text ∧
        StreamText.leaf unicodeDigit text = .ok (scope, .ofIndex index)
  within : ∀ stream base, scheduler.Creates context events stream →
    scheduler.Creates context events base →
      (StreamText.streamWithin stream.text base.text = true ↔
        scheduler.Above context events base stream)

variable {scheduler : DSLScheduler} {context : ExecutionContext} {events : List Event}
  {state next : State} {event : Event}

/-! ## One step -/

theorem run_concat (start : State) (done : List Event) (event : Event) :
    scheduler.run start (done ++ [event]) =
      (scheduler.run start done).bind fun state => scheduler.step state event := by
  induction done generalizing start with
  | nil =>
      show (scheduler.step start event).bind some = scheduler.step start event
      exact Option.bind_fun_some _
  | cons first done ih =>
      show (scheduler.step start first).bind _ = ((scheduler.step start first).bind _).bind _
      rw [Option.bind_assoc]
      congr 1
      funext state
      exact ih state

theorem reachable_of_run {done : List Event}
    (hRun : scheduler.run (State.init scheduler context) done = some state) :
    scheduler.Reachable context state := by
  induction done using List.reverseRecOn generalizing state with
  | nil =>
      cases hRun
      exact .init
  | append_singleton done event ih =>
      rw [run_concat] at hRun
      obtain ⟨before, hBefore, hStep⟩ := Option.bind_eq_some_iff.mp hRun
      exact .step event (ih hBefore) hStep

theorem visits_concat {done : List Event} (hStep : scheduler.step state event = some next)
    (hRun : scheduler.run (State.init scheduler context) done = some state) {visited : State} :
    scheduler.Visits context (done ++ [event]) visited ↔
      scheduler.Visits context done visited ∨ visited = next := by
  have hNext : scheduler.run (State.init scheduler context) (done ++ [event]) = some next := by
    rw [run_concat, hRun]
    exact hStep
  constructor
  · rintro ⟨before, hBefore, hVisited⟩
    rcases List.prefix_concat_iff.mp hBefore with rfl | hBefore
    · rw [hNext] at hVisited
      exact Or.inr (Option.some.inj hVisited).symm
    · exact Or.inl ⟨before, hBefore, hVisited⟩
  · rintro (⟨before, hBefore, hVisited⟩ | rfl)
    · exact ⟨before, hBefore.trans (List.prefix_append _ _), hVisited⟩
    · exact ⟨done ++ [event], List.prefix_rfl, hNext⟩

/-- What a step of `task` puts into the hierarchy. -/
theorem hierarchy_of_touches {task : Task} {stmt : ActionStatement} {attempt : Prop}
    {tables after : Tables} (hTouches : Touches task stmt attempt tables after)
    {stream : StreamID} {parent : Option StreamID}
    (hEntry : after.hierarchy.lookup stream = some parent) :
    tables.hierarchy.lookup stream = some parent ∨
      (∃ index, stream = .child task.stream task.ref index) ∧ parent = some task.stream := by
  induction hTouches with
  | refl => exact Or.inl hEntry
  | write result _ _ ih =>
      rw [Tables.write_hierarchy] at hEntry
      exact ih hEntry
  | openStream index actions _ ih =>
      simp only [Tables.openStream, Dict.lookup_insert_eq] at hEntry
      split at hEntry
      · next hStream => exact Or.inr ⟨⟨index, hStream⟩, (Option.some.inj hEntry).symm⟩
      · exact ih hEntry
  | list _ _ _ ih => exact ih hEntry
  | drop _ _ _ ih =>
      simp only [Tables.drop, Dict.lookup_filterKeys] at hEntry
      split at hEntry
      · exact ih hEntry
      · cases hEntry

theorem task_of_settle (index : Nat) {coroutine other : Coroutine} {segment : Segment}
    (hCoroutine : coroutine ∈ state.pending) (hPending : segment.state.pending = state.pending)
    (hOther : other ∈ (scheduler.settle index coroutine segment).pending) :
    ∃ old ∈ state.pending, old.task = other.task := by
  have hTables := congrArg Tables.pending (tables_settle scheduler index coroutine segment)
  have hIn : other ∈ (scheduler.settle index coroutine segment).tables.pending := hOther
  rw [hTables] at hIn
  cases segment with
  | suspend after pc =>
      rcases List.mem_or_eq_of_mem_set hIn with hOld | rfl
      · exact ⟨other, hPending ▸ hOld, rfl⟩
      · exact ⟨coroutine, hCoroutine, rfl⟩
  | finish after => exact ⟨other, hPending ▸ List.mem_of_mem_eraseIdx hIn, rfl⟩
  | raise after exc platform => exact ⟨other, hPending ▸ List.mem_of_mem_eraseIdx hIn, rfl⟩

/-! ## The streams of a run are a tree -/

/-- What holds of the streams after some events: the tasks run in created streams, and the base
of a created stream is created and is its entry. -/
structure Rooted (scheduler : DSLScheduler) (context : ExecutionContext) (events : List Event)
    (state : State) : Prop where
  queued : ∀ queued ∈ state.queue, scheduler.Creates context events queued.task.stream
  pending : ∀ coroutine ∈ state.pending, scheduler.Creates context events coroutine.task.stream
  base : ∀ stream parent, scheduler.HierarchyEntry context events stream parent →
    parent = stream.base?
  closed : ∀ base scope index, scheduler.Creates context events (.child base scope index) →
    scheduler.Creates context events base ∧ ∃ stmt ∈ scheduler.dsl.actions, stmt.ref = scope

theorem HierarchyEntry.mono {done : List Event} (hDone : done <+: events) {stream : StreamID}
    {parent : Option StreamID} (hEntry : scheduler.HierarchyEntry context done stream parent) :
    scheduler.HierarchyEntry context events stream parent := by
  obtain ⟨visited, ⟨before, hBefore, hVisited⟩, hLookup⟩ := hEntry
  exact ⟨visited, ⟨before, hBefore.trans hDone, hVisited⟩, hLookup⟩

theorem Creates.mono {done : List Event} (hDone : done <+: events) {stream : StreamID}
    (hCreates : scheduler.Creates context done stream) :
    scheduler.Creates context events stream := by
  obtain ⟨parent, hEntry⟩ := hCreates
  exact ⟨parent, hEntry.mono hDone⟩

theorem rooted_init : scheduler.Rooted context [] (State.init scheduler context) := by
  have hVisits {visited : State} (hVisited : scheduler.Visits context [] visited) :
      visited = State.init scheduler context := by
    obtain ⟨before, hBefore, hRun⟩ := hVisited
    rw [List.prefix_nil.mp hBefore] at hRun
    exact (Option.some.inj hRun).symm
  have hEntries (stream : StreamID) (parent : Option StreamID)
      (hEntry : scheduler.HierarchyEntry context [] stream parent) :
      stream = rootStream ∧ parent = none := by
    obtain ⟨visited, hVisited, hLookup⟩ := hEntry
    rw [hVisits hVisited] at hLookup
    simp only [State.init, Dict.lookup_insert_eq] at hLookup
    split at hLookup
    · next hRoot => exact ⟨hRoot, (Option.some.inj hLookup).symm⟩
    · simp at hLookup
  have hRoot : scheduler.Creates context [] rootStream := by
    refine ⟨none, State.init scheduler context, ⟨[], List.prefix_rfl, rfl⟩, ?_⟩
    simp only [State.init, Dict.lookup_insert_eq, if_true]
  refine ⟨fun queued hQueued => ?_, fun coroutine hCoroutine => (by cases hCoroutine),
    fun stream parent hEntry => ?_, fun base scope index hCreates => ?_⟩
  · obtain ⟨stmt, -, rfl⟩ := List.mem_map.mp hQueued
    exact hRoot
  · obtain ⟨rfl, rfl⟩ := hEntries stream parent hEntry
    rfl
  · obtain ⟨parent, hEntry⟩ := hCreates
    cases (hEntries _ _ hEntry).1

theorem rooted_concat {done : List Event}
    (hRun : scheduler.run (State.init scheduler context) done = some state)
    (hStep : scheduler.step state event = some next)
    (hRooted : scheduler.Rooted context done state) :
    scheduler.Rooted context (done ++ [event]) next := by
  have hDone : done <+: done ++ [event] := List.prefix_append _ _
  have hTracked := tracked_of_reachable (reachable_of_run hRun)
  have hEntry {stream : StreamID} {parent : Option StreamID} :
      scheduler.HierarchyEntry context (done ++ [event]) stream parent ↔
        scheduler.HierarchyEntry context done stream parent ∨
          next.streamHierarchy.lookup stream = some parent := by
    constructor
    · rintro ⟨visited, hVisited, hLookup⟩
      rcases (visits_concat hStep hRun).mp hVisited with hOld | rfl
      · exact Or.inl ⟨visited, hOld, hLookup⟩
      · exact Or.inr hLookup
    · rintro (hOld | hLookup)
      · exact hOld.mono hDone
      · exact ⟨next, (visits_concat hStep hRun).mpr (Or.inr rfl), hLookup⟩
  -- what the step adds to the hierarchy lies below a stream that is there
  have hNew (stream : StreamID) (parent : Option StreamID)
      (hLookup : next.streamHierarchy.lookup stream = some parent) :
      scheduler.HierarchyEntry context done stream parent ∨
        ∃ (task : Task) (index : StreamIndex) (stmt : ActionStatement),
          scheduler.Creates context done task.stream ∧
          scheduler.dsl.stmt? task.ref = some stmt ∧
            stream = .child task.stream task.ref index ∧ parent = some task.stream := by
    have hState : ∀ {other : StreamID} {above : Option StreamID},
        state.streamHierarchy.lookup other = some above →
          scheduler.HierarchyEntry context done other above :=
      fun hKnown => ⟨state, ⟨done, List.prefix_rfl, hRun⟩, hKnown⟩
    rcases scheduler.step_eq_some.mp hStep with ⟨rfl, hSpawn⟩ | ⟨resumption, hResumed, rfl⟩
    · obtain ⟨task, delay, hTables⟩ := tables_spawn hSpawn
      have hSame : next.streamHierarchy = state.streamHierarchy := congrArg Tables.hierarchy hTables
      rw [hSame] at hLookup
      exact Or.inl (hState hLookup)
    · obtain ⟨hTouches, -⟩ := resumed_touches hTracked hResumed
      obtain ⟨outcome, -, hPending, hStmt, -⟩ := scheduler.resumed?_eq_some hResumed
      have hTables := congrArg Tables.hierarchy (tables_settle scheduler resumption.index
        resumption.coroutine resumption.segment)
      have hAfter : resumption.segment.state.tables.hierarchy.lookup stream = some parent := by
        rw [← hTables]
        exact hLookup
      rcases hierarchy_of_touches hTouches hAfter with hOld | ⟨⟨index, hStream⟩, hParent⟩
      · exact Or.inl (hState hOld)
      · exact Or.inr ⟨resumption.coroutine.task, index, resumption.stmt,
          hRooted.pending _ (List.mem_of_getElem? hPending), hStmt, hStream, hParent⟩
  have hBase (stream : StreamID) (parent : Option StreamID)
      (hKnown : scheduler.HierarchyEntry context (done ++ [event]) stream parent) :
      parent = stream.base? := by
    rcases hEntry.mp hKnown with hOld | hLookup
    · exact hRooted.base stream parent hOld
    · rcases hNew stream parent hLookup with hOld | ⟨task, index, stmt, -, -, rfl, rfl⟩
      · exact hRooted.base stream parent hOld
      · rfl
  have hClosed (base : StreamID) (scope : Ref) (index : StreamIndex)
      (hCreates : scheduler.Creates context (done ++ [event]) (.child base scope index)) :
      scheduler.Creates context (done ++ [event]) base ∧
        ∃ stmt ∈ scheduler.dsl.actions, stmt.ref = scope := by
    have hOldClosed {parent : Option StreamID}
        (hOld : scheduler.HierarchyEntry context done (.child base scope index) parent) :
        scheduler.Creates context (done ++ [event]) base ∧
          ∃ stmt ∈ scheduler.dsl.actions, stmt.ref = scope :=
      (hRooted.closed base scope index ⟨parent, hOld⟩).imp_left (Creates.mono hDone)
    obtain ⟨parent, hKnown⟩ := hCreates
    rcases hEntry.mp hKnown with hOld | hLookup
    · exact hOldClosed hOld
    · rcases hNew _ parent hLookup with hOld | ⟨task, position, stmt, hTask, hStmt, hStream, -⟩
      · exact hOldClosed hOld
      · obtain ⟨rfl, rfl, rfl⟩ := StreamID.child.inj hStream
        exact ⟨hTask.mono hDone, stmt, DSLInput.stmt?_some_mem hStmt⟩
  refine ⟨?_, ?_, hBase, hClosed⟩
  · intro queued hQueued
    rcases scheduler.step_eq_some.mp hStep with ⟨rfl, hSpawn⟩ | ⟨resumption, hResumed, rfl⟩
    · obtain ⟨head, rest, hQueue, -, -, rfl⟩ := step_spawn_eq_some hSpawn
      exact (hRooted.queued queued (hQueue ▸ List.mem_cons_of_mem _ hQueued)).mono hDone
    · obtain ⟨outcome, -, hPending, hStmt, hResume⟩ := scheduler.resumed?_eq_some hResumed
      have hMem := List.mem_of_getElem? hPending
      have hWaits := hTracked.waits _ hMem _ hStmt
      have hTask := hRooted.pending _ hMem
      rcases sends_settle resumption.index (resume_sends hWaits.2 hResume) queued hQueued with
        hOld | hOwn | ⟨scope, index, hAbove⟩ | ⟨-, hKnown⟩
      · exact (hRooted.queued queued hOld).mono hDone
      · rw [hOwn]
        exact hTask.mono hDone
      · rw [hAbove] at hTask
        exact (hRooted.closed _ scope index hTask).1.mono hDone
      · obtain ⟨parent, hLookup⟩ := Option.ne_none_iff_exists'.mp hKnown
        exact ⟨parent, hEntry.mpr (Or.inr hLookup)⟩
  · intro coroutine hCoroutine
    rcases scheduler.step_eq_some.mp hStep with ⟨rfl, hSpawn⟩ | ⟨resumption, hResumed, rfl⟩
    · obtain ⟨head, rest, hQueue, -, -, rfl⟩ := step_spawn_eq_some hSpawn
      rcases List.mem_append.mp hCoroutine with hOld | hHead
      · exact (hRooted.pending coroutine hOld).mono hDone
      · rw [List.mem_singleton.mp hHead]
        exact (hRooted.queued _ (hQueue ▸ List.mem_cons_self)).mono hDone
    · obtain ⟨hTouches, -⟩ := resumed_touches hTracked hResumed
      obtain ⟨outcome, -, hPending, -, -⟩ := scheduler.resumed?_eq_some hResumed
      obtain ⟨old, hOld, hTask⟩ := task_of_settle resumption.index (List.mem_of_getElem? hPending)
        hTouches.pending_eq hCoroutine
      rw [← hTask]
      exact (hRooted.pending old hOld).mono hDone

theorem rooted_of_run {done : List Event}
    (hRun : scheduler.run (State.init scheduler context) done = some state) :
    scheduler.Rooted context done state := by
  induction done using List.reverseRecOn generalizing state with
  | nil =>
      cases hRun
      exact rooted_init
  | append_singleton done event ih =>
      rw [run_concat] at hRun
      obtain ⟨before, hBefore, hStep⟩ := Option.bind_eq_some_iff.mp hRun
      exact rooted_concat hBefore hStep (ih hBefore)

/-! ## Texts of created streams -/

theorem base_of_entry {stream : StreamID} {parent : Option StreamID}
    (hEntry : scheduler.HierarchyEntry context events stream parent) : parent = stream.base? := by
  obtain ⟨visited, ⟨done, hDone, hRun⟩, hLookup⟩ := hEntry
  exact (rooted_of_run hRun).base stream parent ⟨visited, ⟨done, List.prefix_rfl, hRun⟩, hLookup⟩

/-- A created stream below another one: that one is created, and the scope is an action. -/
theorem Creates.base {base : StreamID} {scope : Ref} {index : StreamIndex}
    (hCreates : scheduler.Creates context events (.child base scope index)) :
    scheduler.Creates context events base ∧ ∃ stmt ∈ scheduler.dsl.actions, stmt.ref = scope := by
  obtain ⟨parent, visited, ⟨done, hDone, hRun⟩, hLookup⟩ := hCreates
  have hThere : scheduler.Creates context done (.child base scope index) :=
    ⟨parent, visited, ⟨done, List.prefix_rfl, hRun⟩, hLookup⟩
  exact ((rooted_of_run hRun).closed base scope index hThere).imp_left (Creates.mono hDone)

theorem Creates.slugs (hSlugs : ∀ stmt ∈ scheduler.dsl.actions, IsSlug stmt.ref)
    {stream : StreamID} (hCreates : scheduler.Creates context events stream) :
    ∀ scope ∈ stream.scopes, IsSlug scope := by
  induction stream with
  | root => exact fun scope hScope => absurd hScope List.not_mem_nil
  | child base scope index ih =>
      obtain ⟨hBase, stmt, hStmt, rfl⟩ := hCreates.base
      intro other hOther
      rcases List.mem_append.mp hOther with hOld | hLast
      · exact ih hBase other hOld
      · rw [List.mem_singleton.mp hLast]
        exact hSlugs stmt hStmt

theorem prefix_of_above {base stream : StreamID}
    (hAbove : scheduler.Above context events base stream) : base.segments <+: stream.segments := by
  induction hAbove with
  | refl => exact List.prefix_rfl
  | @tail parent stream _ hEntry ih =>
      have hBase := base_of_entry hEntry
      cases stream with
      | root => cases hBase
      | child parent' scope index =>
          cases hBase
          exact ih.trans (List.prefix_append _ _)

theorem above_of_prefix (hSlugs : ∀ stmt ∈ scheduler.dsl.actions, IsSlug stmt.ref)
    {base stream : StreamID} (hBase : scheduler.Creates context events base)
    (hStream : scheduler.Creates context events stream)
    (hPrefix : base.segments <+: stream.segments) :
    scheduler.Above context events base stream := by
  -- the whole path is the stream itself
  have hWhole {other : StreamID} (hOther : scheduler.Creates context events other)
      (hSame : base.segments = other.segments) : scheduler.Above context events base other := by
    rw [StreamID.segments_injective (hBase.slugs hSlugs) (hOther.slugs hSlugs) hSame]
    exact .refl
  induction stream with
  | root =>
      have hOne : base.segments <+: [] ++ ["<root>:0"] := hPrefix
      rcases List.prefix_concat_iff.mp hOne with hSame | hNil
      · exact hWhole hStream hSame
      · exact absurd (List.prefix_nil.mp hNil) base.segments_ne_nil
  | child parent scope index ih =>
      rcases List.prefix_concat_iff.mp hPrefix with hSame | hParent
      · exact hWhole hStream hSame
      · refine .tail (ih hStream.base.1 hParent) ?_
        obtain ⟨above, hEntry⟩ := hStream
        cases base_of_entry hEntry
        exact hEntry

theorem streamWithin_text (hSlugs : ∀ stmt ∈ scheduler.dsl.actions, IsSlug stmt.ref)
    {base stream : StreamID} (hBase : scheduler.Creates context events base)
    (hStream : scheduler.Creates context events stream) :
    StreamText.streamWithin stream.text base.text = true ↔
      scheduler.Above context events base stream := by
  rw [stream.text_eq, base.text_eq, StreamText.streamWithin_join stream.segments_ne_nil
    base.segments_ne_nil (StreamID.slash_not_mem_segments (hStream.slugs hSlugs))
    (StreamID.slash_not_mem_segments (hBase.slugs hSlugs))]
  exact ⟨ above_of_prefix hSlugs hBase hStream, prefix_of_above⟩

theorem text_of_new {base : StreamID} {scope : Ref} {index : StreamIndex} {text : String}
    (hNew : StreamText.new scope (.ofIndex index) (some base.text) = .ok text) :
    text = (StreamID.child base scope index).text := by
  obtain ⟨number, hNumber, hText⟩ := StreamText.new_eq_ok.mp hNew
  have hIndex : number = StreamID.indexText index := by
    cases index with
    | skip => exact (Except.ok.inj hNumber).symm
    | item index =>
        unfold StreamText.indexText SegmentIndex.ofIndex at hNumber
        dsimp only at hNumber
        split at hNumber
        · exact (Except.ok.inj hNumber).symm
        · cases hNumber
  apply String.toList_injective
  rw [hText, hIndex, StreamID.text]
  simp [StreamText.front]

end DSLScheduler

def twoItemScatter : Scenario where
  dsl := {
    actions := [
      { ref := "scatter_1", action := .transformScatter,
        args := .scatter { collection := {} } },
      { ref := "body", action := .udf "core.noop", dependsOn := ["scatter_1"] }] }
  events := [.spawn, .resume 0 .resumed,
    .resume 0 (.collection (.inline (.arr [.null, .null]))), .resume 0 .resumed]

end Tracecat
