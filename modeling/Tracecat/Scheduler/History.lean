import Tracecat.Scheduler.Touches

/-!
# The contexts along a run

The tables of every reachable state are linked, every context is what the
history of its entries says, and every entry of the history was written where
its writer may write.
-/

namespace Tracecat

/-- A suspended coroutine waits at a point of its action, and a gather that
waits to store its result runs below the stream it stores it in. -/
def Coroutine.Waits (stmt : ActionStatement) (task : Task) (pc : PC) : Prop :=
  pc.fits stmt.action ∧ ∀ parent, pc.parent? = some parent →
    ∃ scope index, task.stream = .child parent scope index

/-- The result of an attempt is in the context of its task and in the root
context. -/
def State.Attempted (state : State) (task : Task) (result : TaskResult) : Prop :=
  state.entryAt? task.stream task.ref = some result ∧
    (state.streams.lookup rootStream ≠ none →
      state.entryAt? rootStream task.ref = some result)

/-- The point where a segment suspends its coroutine. -/
def Segment.Waits (segment : Segment) (stmt : ActionStatement) (task : Task) : Prop :=
  ∀ after pc, segment = .suspend after pc → Coroutine.Waits stmt task pc ∧
    ∀ result, pc = .retryUntil result → after.Attempted task result

namespace Segment

variable {stmt : ActionStatement} {task : Task} {state : State}

@[simp] theorem waits_finish : (finish state).Waits stmt task := by
  simp [Waits]

@[simp] theorem waits_raise (exc : Exn) (platform : Bool) :
    (raise state exc platform).Waits stmt task := by
  simp [Waits]

@[simp] theorem waits_suspend (pc : PC) :
    (suspend state pc).Waits stmt task ↔ Coroutine.Waits stmt task pc ∧
      ∀ result, pc = .retryUntil result → state.Attempted task result := by
  simp [Waits]

end Segment

/-- A write neither creates nor drops a context. -/
theorem State.lookup_writeAction_ne_none (state : State) (writer : Task) (stream : StreamID)
    (ref : Ref) (result : TaskResult) (other : StreamID) :
    (state.writeAction writer stream ref result).streams.lookup other ≠ none ↔
      state.streams.lookup other ≠ none := by
  have hLookup := Tables.lookup_write state.tables writer stream ref result other
  rw [← State.tables_writeAction] at hLookup
  have hStreams : (state.writeAction writer stream ref result).streams.lookup other = _ :=
    hLookup
  have hSame : state.tables.streams = state.streams := rfl
  rw [hStreams, hSame]
  by_cases hOther : other = stream
  · subst hOther
    simp
  · simp [hOther]

theorem State.entryAt?_writeAction (state : State) (writer : Task) (stream : StreamID)
    (ref : Ref) (result : TaskResult) (other : StreamID) (otherRef : Ref) :
    (state.writeAction writer stream ref result).entryAt? other otherRef =
      if other = stream ∧ otherRef = ref ∧ state.streams.lookup stream ≠ none then some result
      else state.entryAt? other otherRef := by
  unfold entryAt?
  have hLookup := Tables.lookup_write state.tables writer stream ref result other
  rw [← State.tables_writeAction] at hLookup
  have hStreams : (state.writeAction writer stream ref result).streams.lookup other = _ :=
    hLookup
  rw [hStreams]
  have hSame : state.tables.streams = state.streams := rfl
  by_cases hOther : other = stream
  · subst hOther
    cases hContext : state.streams.lookup other with
    | none => simp [hSame, hContext]
    | some context =>
        simp only [hSame, if_true, hContext, Option.map_some, Option.bind_some,
          Dict.lookup_insert_eq]
        by_cases hRef : otherRef = ref <;> simp [hRef]
  · simp [hOther, hSame]

namespace DSLScheduler

variable {scheduler : DSLScheduler} {state : State} {stmt : ActionStatement}

theorem waits_handleLoopStart (task : DelayedTask) (hAction : stmt.action = .loopStart)
    (isSkipping : Bool) :
    (scheduler.handleLoopStart state task isSkipping).Waits stmt task.task := by
  unfold handleLoopStart
  simp only
  split
  · simp
  · split <;> simp [Coroutine.Waits, PC.fits, PC.parent?, hAction]

theorem waits_handleLoopEnd (task : DelayedTask) (hAction : stmt.action = .loopEnd)
    (isSkipping : Bool) :
    (scheduler.handleLoopEnd state task stmt isSkipping).Waits stmt task.task := by
  unfold handleLoopEnd
  split
  · simp
  · split
    · simp
    · simp only
      split
      · split
        · simp
        · split <;> simp
      · simp [Coroutine.Waits, PC.fits, PC.parent?, hAction]

theorem waits_decideLoopEnd (task : Task) (hAction : stmt.action = .loopEnd)
    (currentIndex : Nat) (shouldContinue : Bool) :
    (decideLoopEnd state task currentIndex shouldContinue).Waits stmt task := by
  unfold decideLoopEnd
  split <;> simp [Coroutine.Waits, PC.fits, PC.parent?, hAction]

theorem waits_finishLoopEnd (task : DelayedTask) (currentIndex : Nat) (shouldContinue : Bool) :
    (scheduler.finishLoopEnd state task stmt currentIndex shouldContinue).Waits stmt
      task.task := by
  unfold finishLoopEnd
  split
  · simp only
    split
    · split <;> simp
    · simp
  · simp
  · simp

theorem waits_handleScatter (task : Task) (hAction : stmt.action = .transformScatter)
    (isSkipping : Bool) :
    (scheduler.handleScatter state task stmt isSkipping).Waits stmt task := by
  unfold handleScatter
  split
  · simp
  · split
    · simp
    · split <;> simp [Coroutine.Waits, PC.fits, PC.parent?, hAction]

theorem waits_scatterNext (task : Task) (hAction : stmt.action = .transformScatter)
    (collection : StoredObject Json) (size : Nat) (streams : List StreamID) :
    (scheduler.scatterNext state task stmt collection size streams).Waits stmt task := by
  unfold scatterNext
  split <;> simp [Coroutine.Waits, PC.fits, PC.parent?, hAction]

theorem waits_beginScatter (task : Task) (hAction : stmt.action = .transformScatter)
    (collection : StoredObject Json) :
    (scheduler.beginScatter state task stmt collection).Waits stmt task := by
  unfold beginScatter
  simp only
  split
  · simp
  · simp
  · exact waits_scatterNext task hAction _ _ _

theorem waits_gathers {task : Task} {parent : StreamID} {scope : Ref} {index : StreamIndex}
    {segment : Segment} (hGathers : segment.Gathers task parent state)
    (hAction : stmt.action = .transformGather) (hStream : task.stream = .child parent scope index) :
    segment.Waits stmt task := by
  cases hGathers <;> simp [Coroutine.Waits, PC.fits, PC.parent?, hAction, hStream]

theorem waits_beginsGather (hLinked : state.tables.Linked) {task : DelayedTask}
    {segment : Segment} (hBegins : BeginsGather scheduler state task segment)
    (hAction : stmt.action = .transformGather) : segment.Waits stmt task.task := by
  cases hBegins with
  | raise | skip => simp
  | empty hParent | item hParent =>
      obtain ⟨scope, index, hStream⟩ := parentStream_ok hLinked hParent
      simp [Coroutine.Waits, PC.fits, PC.parent?, hAction, hStream]
  | close hParent hGathers =>
      obtain ⟨scope, index, hStream⟩ := parentStream_ok hLinked hParent
      exact waits_gathers hGathers hAction hStream

theorem waits_finishGatherResult {task : Task} {parent : StreamID} {scope : Ref}
    {index : StreamIndex} (hAction : stmt.action = .transformGather)
    (hStream : task.stream = .child parent scope index) (taskResult : TaskResult)
    (result : StoredObject Datum) (errors : List ActionErrorInfo) :
    (finishGatherResult state task stmt parent taskResult result errors).Waits stmt task := by
  unfold finishGatherResult
  simp only
  split
  · simp
  · simp [Coroutine.Waits, PC.fits, PC.parent?, hAction, hStream]

variable (state) in
theorem waits_handles {task : DelayedTask} {isSkipping : Bool} {segment : Segment}
    (hHandles : Handles scheduler stmt state task isSkipping segment)
    (hLinked : state.tables.Linked) :
    segment.Waits stmt task.task := by
  cases hHandles with
  | loopStart hAction => exact waits_handleLoopStart _ hAction _
  | loopEnd hAction => exact waits_handleLoopEnd _ hAction _
  | scatter hAction => exact waits_handleScatter _ hAction _
  | gather hAction => exact waits_beginsGather hLinked (beginsGather ..) hAction
  | skip => simp
  | execute _ hPlain => simp [Coroutine.Waits, PC.fits, PC.parent?, hPlain]

theorem waits_begins (hLinked : state.tables.Linked) {coroutine : Coroutine} {segment : Segment}
    (hBegins : Begins scheduler coroutine stmt state segment) :
    segment.Waits stmt coroutine.task := by
  induction hBegins with
  | record _ ih => exact ih hLinked
  | raise => simp
  | wait hWait => rcases hWait with rfl | rfl <;> simp [Coroutine.Waits, PC.fits, PC.parent?]
  | @skip state _ hHandles | @dispatch state _ hHandles =>
      exact waits_handles (state.record _) hHandles hLinked

theorem waits_finishExecute (task : DelayedTask) (hPlain : stmt.action.isPlain)
    (result : TaskResult) :
    (scheduler.finishExecute state task stmt result).Waits stmt task.task := by
  unfold finishExecute
  split
  · simp
  · rename_i context hContext
    simp only
    split
    · simp
    · rw [Segment.waits_suspend]
      refine ⟨by simp [Coroutine.Waits, PC.fits, PC.parent?, hPlain], fun other hOther => ?_⟩
      cases hOther
      have hRoot := State.lookup_writeAction_ne_none
        (state.writeAction task.task task.task.stream task.task.ref result) task.task
        rootStream task.task.ref result rootStream
      refine ⟨?_, fun hSome => ?_⟩
      · simp [State.entryAt?_writeAction, hContext]
      · rw [State.entryAt?_writeAction, if_pos ⟨rfl, rfl, hRoot.mp hSome⟩]

theorem waits_failExecute (task : Task) (written : Option TaskResult) (exc : Exn)
    (platform : Bool) : (failExecute state task written exc platform).Waits stmt task := by
  unfold failExecute
  split
  · simp
  · split <;> simp

/-- Where a resumed coroutine is suspended next. -/
theorem resume_waits {coroutine : Coroutine} {outcome : Outcome} {segment : Segment}
    (hLinked : state.tables.Linked)
    (hWaits : Coroutine.Waits stmt coroutine.task coroutine.pc)
    (hResume : scheduler.resume state coroutine stmt coroutine.pc outcome = some segment) :
    segment.Waits stmt coroutine.task := by
  obtain ⟨hFits, hParent⟩ := hWaits
  have hResumes := resumes_of_resume hResume
  generalize coroutine.pc = pc at hFits hParent hResumes
  cases hResumes with
  | starts => exact waits_begins hLinked begins_scheduleTask
  | skips => exact waits_begins hLinked (.skip handles_handleSkipPath)
  | runs | runIfRaises => exact waits_begins hLinked (begins_checkReachable _)
  | wakes => exact waits_begins hLinked (.dispatch handles_dispatch)
  | returns result =>
      exact waits_finishExecute coroutine.delayed (by simpa [PC.fits] using hFits) _
  | fails written exc platform => exact waits_failExecute _ _ _ _
  | retries result =>
      have hPlain : stmt.action.isPlain := by simpa [PC.fits] using hFits
      simp [Coroutine.Waits, PC.fits, PC.parent?, hPlain]
  | loopStarts => simp [finishLoopStart]
  | loopDecides currentIndex value =>
      exact waits_decideLoopEnd _ (by simpa [PC.fits] using hFits) _ _
  | loopEnds currentIndex shouldContinue => exact waits_finishLoopEnd coroutine.delayed _ _
  | scatters stored => exact waits_beginScatter _ (by simpa [PC.fits] using hFits) _
  | scattersNext collection size streams =>
      exact waits_scatterNext _ (by simpa [PC.fits] using hFits) _ _ _
  | gathers parent stored =>
      obtain ⟨scope, index, hStream⟩ := hParent parent rfl
      exact waits_gathers (gathers_storeGatherItem _) (by simpa [PC.fits] using hFits) hStream
  | finalizes parent taskResult items result errors =>
      obtain ⟨scope, index, hStream⟩ := hParent parent rfl
      exact waits_finishGatherResult (by simpa [PC.fits] using hFits) hStream _ _ _
  | finalizesEmpty parent result errors => simp [finishEmptyGather]
  | gathered parent => simp [finishGather]
  | succeeds | raises => simp

end DSLScheduler

/-! ## The history -/

/-- The `ACTIONS` of a stream after a history, newest entry first. -/
def actionsAfter (initial : Dict Ref TaskResult) :
    List LogEntry → StreamID → Option (Dict Ref TaskResult)
  | [], stream => if stream = rootStream then some initial else none
  | entry :: older, stream =>
      match entry with
      | .opened _ opened actions =>
          if stream = opened then some actions else actionsAfter initial older stream
      | .wrote _ written ref result =>
          if stream = written then
            (actionsAfter initial older stream).map fun actions => actions.insert ref result
          else actionsAfter initial older stream
      | .dropped _ removed =>
          if stream ∈ removed then none else actionsAfter initial older stream
      | _ => actionsAfter initial older stream

/-- The entries of a history that a step of `task` adds. -/
inductive LogEntry.By (task : Task) (stmt : ActionStatement) (attempt : Prop) :
    LogEntry → Prop
  | opened (index : StreamIndex) (actions : Dict Ref TaskResult) :
      By task stmt attempt (.opened task (.child task.stream task.ref index) actions)
  | wrote {writer : Task} {stream : StreamID} {ref : Ref} (result : TaskResult)
      (hWrites : Writes task stmt attempt writer stream ref) :
      By task stmt attempt (.wrote writer stream ref result)
  | dropped (endRef : Ref) {removed : List StreamID}
      (hBelow : ∀ stream ∈ removed, task.stream.within stream ∧ stream ≠ task.stream) :
      By task stmt attempt (.dropped ⟨endRef, task.stream⟩ removed)

namespace Tables

/-- The contexts are what the history says, the trigger inputs and the
environment of the workflow are in the root context only, and that one is
always there. -/
structure Recorded (context : ExecutionContext) (tables : Tables) : Prop where
  actions : ∀ stream, (tables.streams.lookup stream).map ExecutionContext.actions =
    actionsAfter context.actions tables.history stream
  root : ∃ root, tables.streams.lookup rootStream = some root ∧
    root.trigger = context.trigger ∧ root.env = context.env
  bare : ∀ stream other, tables.streams.lookup stream = some other → stream ≠ rootStream →
    other.trigger = none ∧ other.env = none

end Tables

section Relation

variable {task : Task} {stmt : ActionStatement} {attempt : Prop} {tables after : Tables}

/-- The new entries of the history are those of the task. -/
theorem Touches.history (hTouches : Touches task stmt attempt tables after) :
    ∃ added, after.history = added ++ tables.history ∧
      ∀ entry ∈ added, entry.By task stmt attempt := by
  induction hTouches with
  | refl => exact ⟨[], rfl, by simp⟩
  | @write after writer stream ref result _ hWrites ih =>
      obtain ⟨added, hHistory, hBy⟩ := ih
      unfold Tables.write
      cases after.streams.lookup stream with
      | none => exact ⟨added, hHistory, hBy⟩
      | some context =>
          refine ⟨.wrote writer stream ref result :: added, by simp [hHistory], ?_⟩
          exact List.forall_mem_cons.mpr ⟨.wrote result hWrites, hBy⟩
  | openStream index actions _ ih =>
      obtain ⟨added, hHistory, hBy⟩ := ih
      refine ⟨.opened task (.child task.stream task.ref index) actions :: added,
        by simp [Tables.openStream, hHistory], ?_⟩
      exact List.forall_mem_cons.mpr ⟨.opened index actions, hBy⟩
  | list listed _ _ ih => exact ih
  | @drop after endRef removed _ hBelow ih =>
      obtain ⟨added, hHistory, hBy⟩ := ih
      refine ⟨.dropped ⟨endRef, task.stream⟩ removed :: added,
        by simp [Tables.drop, hHistory], ?_⟩
      exact List.forall_mem_cons.mpr ⟨.dropped endRef hBelow, hBy⟩

/-- The contexts stay what the history says. -/
theorem Touches.recorded (hTouches : Touches task stmt attempt tables after)
    {context : ExecutionContext} (hRecorded : tables.Recorded context) :
    after.Recorded context := by
  induction hTouches with
  | refl => exact hRecorded
  | @write after writer stream ref result _ hWrites ih =>
      obtain ⟨root, hRoot, hTrigger, hEnv⟩ := ih.root
      refine ⟨fun other => ?_, ?_, fun other found hFound hOther => ?_⟩
      · rw [Tables.lookup_write]
        unfold Tables.write
        have hActions := ih.actions other
        cases hStream : after.streams.lookup stream with
        | none =>
            by_cases hOther : other = stream
            · subst hOther
              simpa [hStream] using hActions
            · simpa [hOther] using hActions
        | some current =>
            by_cases hOther : other = stream
            · subst hOther
              rw [hStream] at hActions
              simp [actionsAfter, ← hActions]
            · simpa [hOther, actionsAfter] using hActions
      · rw [Tables.lookup_write]
        by_cases hStream : rootStream = stream
        · subst hStream
          exact ⟨{ root with actions := root.actions.insert ref result }, by simp [hRoot],
            hTrigger, hEnv⟩
        · exact ⟨root, by simp [hStream, hRoot], hTrigger, hEnv⟩
      · rw [Tables.lookup_write] at hFound
        split at hFound
        · rename_i hStream
          obtain ⟨current, hCurrent, rfl⟩ := Option.map_eq_some_iff.mp hFound
          exact ih.bare stream current hCurrent (hStream ▸ hOther)
        · exact ih.bare other found hFound hOther
  | @openStream after index actions _ ih =>
      obtain ⟨root, hRoot, hTrigger, hEnv⟩ := ih.root
      refine ⟨fun other => ?_, ⟨root, ?_, hTrigger, hEnv⟩, fun other found hFound hOther => ?_⟩
      · simp only [Tables.openStream, Dict.lookup_insert_eq, actionsAfter]
        split
        · rfl
        · exact ih.actions other
      · simpa [Tables.openStream, Dict.lookup_insert_eq] using hRoot
      · simp only [Tables.openStream, Dict.lookup_insert_eq] at hFound
        split at hFound
        · cases hFound
          exact ⟨rfl, rfl⟩
        · exact ih.bare other found hFound hOther
  | list listed _ _ ih => exact ⟨ih.actions, ih.root, ih.bare⟩
  | @drop after endRef removed _ hBelow ih =>
      obtain ⟨root, hRoot, hTrigger, hEnv⟩ := ih.root
      have hKept : rootStream ∉ removed := by
        intro hRemoved
        obtain ⟨hWithin, hNe⟩ := hBelow _ hRemoved
        simp only [StreamID.within, decide_eq_true_eq] at hWithin
        exact hNe hWithin
      refine ⟨fun other => ?_, ⟨root, ?_, hTrigger, hEnv⟩, fun other found hFound hOther => ?_⟩
      · simp only [Tables.drop, Dict.lookup_filterKeys, actionsAfter]
        by_cases hOther : other ∈ removed
        · simp [hOther]
        · simpa [hOther] using ih.actions other
      · simpa [Tables.drop, hKept] using hRoot
      · simp only [Tables.drop, Dict.lookup_filterKeys] at hFound
        split at hFound
        · exact ih.bare other found hFound hOther
        · cases hFound

end Relation

/-! ## Runs -/

/-- What holds of the contexts in every reachable state. -/
structure State.Tracked (scheduler : DSLScheduler) (context : ExecutionContext)
    (state : State) : Prop where
  linked : state.tables.Linked
  recorded : state.tables.Recorded context
  waits : ∀ coroutine ∈ state.pending, ∀ stmt,
    scheduler.dsl.stmt? coroutine.task.ref = some stmt →
      Coroutine.Waits stmt coroutine.task coroutine.pc

namespace DSLScheduler

variable {scheduler : DSLScheduler} {context : ExecutionContext} {state next : State}
  {event : Event}

theorem tables_settle (scheduler : DSLScheduler) (index : Nat) (coroutine : Coroutine)
    (segment : Segment) :
    (scheduler.settle index coroutine segment).tables =
      { segment.state.tables with
        pending :=
          match segment with
          | .suspend after pc => after.pending.set index { coroutine with pc := pc }
          | _ => segment.state.pending.eraseIdx index } := by
  cases segment with
  | suspend after pc => rfl
  | finish after => rfl
  | raise after exc platform =>
      have hError := scheduler.tables_handleErrorPath after coroutine.delayed exc platform
      have hPending : (scheduler.handleErrorPath after coroutine.delayed exc platform).pending =
          after.pending := congrArg Tables.pending hError
      have hSettle : (scheduler.settle index coroutine (.raise after exc platform)).tables =
          { (scheduler.handleErrorPath after coroutine.delayed exc platform).tables with
            pending := (scheduler.handleErrorPath after coroutine.delayed exc
              platform).pending.eraseIdx index } := rfl
      rw [hSettle, hError, hPending]
      rfl

theorem tables_spawn (hSpawn : scheduler.step state .spawn = some next) :
    ∃ task delay, next.tables =
      { state.tables with pending := state.pending ++ [⟨task, delay, .start⟩] } := by
  obtain ⟨head, rest, -, -, -, rfl⟩ := step_spawn_eq_some hSpawn
  exact ⟨_, _, rfl⟩

/-- What a resumed coroutine does, in a state whose contexts are tracked. -/
theorem resumed_touches (hTracked : state.Tracked scheduler context)
    {resumption : Resumption} (hResumed : scheduler.resumed? state event = some resumption) :
    Touches resumption.coroutine.task resumption.stmt
        (resumption.coroutine.pc = .executing ∧ resumption.stmt.retryUntil ≠ none ∧
          ∃ result, event = .resume resumption.index (.returned result))
        state.tables resumption.segment.state.tables ∧
      resumption.segment.Waits resumption.stmt resumption.coroutine.task := by
  obtain ⟨outcome, rfl, hPending, hStmt, hResume⟩ := scheduler.resumed?_eq_some hResumed
  have hWaits := hTracked.waits _ (List.mem_of_getElem? hPending) _ hStmt
  refine ⟨?_, resume_waits hTracked.linked hWaits hResume⟩
  have hTouches := resume_touches hTracked.linked hWaits.1 hWaits.2 hResume
  simpa using hTouches

theorem tracked_step (hTracked : state.Tracked scheduler context)
    (hStep : scheduler.step state event = some next) : next.Tracked scheduler context := by
  rcases scheduler.step_eq_some.mp hStep with ⟨rfl, hSpawn⟩ | ⟨resumption, hResumed, rfl⟩
  · obtain ⟨task, delay, hTables⟩ := tables_spawn hSpawn
    have hPending : next.pending = state.pending ++ [⟨task, delay, .start⟩] :=
      congrArg Tables.pending hTables
    refine ⟨?_, ?_, fun coroutine hMem stmt hStmt => ?_⟩
    · rw [hTables]
      exact ⟨hTracked.linked.hierarchy, hTracked.linked.listed⟩
    · rw [hTables]
      exact ⟨hTracked.recorded.actions, hTracked.recorded.root, hTracked.recorded.bare⟩
    · rw [hPending] at hMem
      rcases List.mem_append.mp hMem with hOld | hNew
      · exact hTracked.waits coroutine hOld stmt hStmt
      · rw [List.mem_singleton.mp hNew]
        simp [Coroutine.Waits, PC.fits, PC.parent?]
  · obtain ⟨hTouches, hWaits⟩ := resumed_touches hTracked hResumed
    obtain ⟨outcome, -, -, hStmt, -⟩ := scheduler.resumed?_eq_some hResumed
    have hLinked := hTouches.linked hTracked.linked
    have hRecorded := hTouches.recorded hTracked.recorded
    have hTables := tables_settle scheduler resumption.index
      resumption.coroutine resumption.segment
    have hSame : resumption.segment.state.pending = state.pending := hTouches.pending_eq
    refine ⟨?_, ?_, fun coroutine hMem stmt hOther => ?_⟩
    · rw [hTables]
      exact ⟨hLinked.hierarchy, hLinked.listed⟩
    · rw [hTables]
      exact ⟨hRecorded.actions, hRecorded.root, hRecorded.bare⟩
    · have hPending := congrArg Tables.pending hTables
      have hIn : coroutine ∈ (scheduler.settle resumption.index resumption.coroutine
          resumption.segment).tables.pending := hMem
      rw [hPending] at hIn
      cases hKind : resumption.segment with
      | suspend after pc =>
          rw [hKind] at hIn hSame
          rcases List.mem_or_eq_of_mem_set hIn with hOld | rfl
          · exact hTracked.waits coroutine (hSame ▸ hOld) stmt hOther
          · rw [hStmt] at hOther
            cases hOther
            exact (hWaits after pc hKind).1
      | finish after =>
          rw [hKind] at hIn hSame
          exact hTracked.waits coroutine (hSame ▸ List.mem_of_mem_eraseIdx hIn) stmt hOther
      | raise after exc platform =>
          rw [hKind] at hIn hSame
          exact hTracked.waits coroutine (hSame ▸ List.mem_of_mem_eraseIdx hIn) stmt hOther

theorem tracked_init (scheduler : DSLScheduler) (context : ExecutionContext) :
    (State.init scheduler context).Tracked scheduler context := by
  have hStreams (stream : StreamID) :
      (State.init scheduler context).tables.streams.lookup stream =
        if stream = rootStream then some context else none :=
    Dict.lookup_insert_eq _ _ _ _
  have hHierarchy (stream : StreamID) :
      (State.init scheduler context).tables.hierarchy.lookup stream =
        if stream = rootStream then some none else none :=
    Dict.lookup_insert_eq _ _ _ _
  refine ⟨⟨fun stream => ?_, ?_⟩, ⟨fun stream => ?_, ⟨context, by simp [hStreams], rfl, rfl⟩,
    fun stream other hOther hNe => ?_⟩, by simp [State.init]⟩
  · rw [hStreams, hHierarchy]
    by_cases hRoot : stream = rootStream
    · subst hRoot
      rfl
    · simp [hRoot]
  · simp [State.tables, State.init]
  · rw [hStreams]
    by_cases hRoot : stream = rootStream <;>
      simp [State.tables, State.init, actionsAfter, hRoot]
  · rw [hStreams, if_neg hNe] at hOther
    cases hOther

theorem tracked_of_reachable (hReach : scheduler.Reachable context state) :
    state.Tracked scheduler context := by
  induction hReach with
  | init => exact tracked_init scheduler context
  | step event _ hStep ih => exact tracked_step ih hStep

end DSLScheduler

end Tracecat
