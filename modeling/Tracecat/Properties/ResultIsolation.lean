import Tracecat.Scheduler.History
import Tracecat.Scheduler.Move

/-!
# Isolation of action results

What a task in a stream can read is decided by the writes of tasks on the line
of the stream: in it, above it and below it.  This holds of runs in which no
attempt of a `retry_until` action ends below the root stream, for references
that are not to the accumulator of a gather that is still collecting from
streams off the line.
-/

namespace Tracecat

/-- The other stream is the stream, an ancestor or a descendant of it. -/
def StreamID.onLine (stream other : StreamID) : Bool :=
  other.within stream || stream.within other

/-- What an entry of the log says about the contexts of a stream and its
ancestors, when its task is on the line of the stream. -/
def LogEntry.seenFrom (stream : StreamID) : LogEntry → Option LogEntry
  | .opened writer created actions =>
      if stream.onLine writer.stream && created.within stream then
        some (.opened writer created actions)
      else none
  | .wrote writer written ref result =>
      if stream.onLine writer.stream && written.within stream then
        some (.wrote writer written ref result)
      else none
  | .dropped writer removed =>
      let kept := removed.filter fun other => other.within stream
      if stream.onLine writer.stream && !kept.isEmpty then some (.dropped writer kept) else none
  | _ => none

/-- The part of the history of a run that concerns a stream. -/
def State.seenFrom (state : State) (stream : StreamID) : List LogEntry :=
  state.tables.history.filterMap (LogEntry.seenFrom stream)

/-- The task whose result is the `ACTIONS` entry of `ref` in a stream after a
history, newest entry first. -/
def lastWriter : List LogEntry → StreamID → Ref → Option Task
  | [], _, _ => none
  | entry :: older, stream, ref =>
      match entry with
      | .opened _ created _ => if stream = created then none else lastWriter older stream ref
      | .wrote writer written other _ =>
          if stream = written ∧ ref = other then some writer else lastWriter older stream ref
      | .dropped _ removed => if stream ∈ removed then none else lastWriter older stream ref
      | _ => lastWriter older stream ref

/-- No context that `stream` can read holds, for `ref`, the accumulator of a
gather that collects from a stream off the line: an entry of a task below the
stream that holds it, where that task is off the line. -/
def State.Settled (state : State) (stream : StreamID) (ref : Ref) : Prop :=
  ∀ holder writer, holder.within stream →
    lastWriter state.tables.history holder ref = some writer → writer.stream ≠ holder →
    stream.onLine writer.stream

/-- The isolation of results in the runs whose steps are `allowed`, for the
references that are `readable`. -/
structure ResultIsolation (scheduler : DSLScheduler) (context : ExecutionContext)
    (allowed : State → Event → Prop) (readable : State → StreamID → Ref → Prop) : Prop where
  /-- runs that agree on the line of a stream give its tasks the same results -/
  results : ∀ state other stream ref,
    scheduler.ReachableWith context allowed state →
    scheduler.ReachableWith context allowed other →
    state.seenFrom stream = other.seenFrom stream →
    readable state stream ref → readable other stream ref →
    state.streamAwareActionResult ref stream = other.streamAwareActionResult ref stream
  /-- and the same contexts -/
  contexts : ∀ state other stream stmt,
    scheduler.ReachableWith context allowed state →
    scheduler.ReachableWith context allowed other →
    state.seenFrom stream = other.seenFrom stream →
    (∀ ref ∈ stmt.actionRefs, readable state stream ref ∧ readable other stream ref) →
    state.buildStreamAwareContext stmt stream = other.buildStreamAwareContext stmt stream
  /-- an action that is no gather writes to the context of its stream only -/
  writes : ∀ state writer stream ref result,
    scheduler.ReachableWith context allowed state →
    .wrote writer stream ref result ∈ state.log →
    (∀ stmt, scheduler.dsl.stmt? writer.ref = some stmt → stmt.action ≠ .transformGather) →
    stream = writer.stream

/-- No attempt of an action with `retry_until` ends in a stream below the
root. -/
def DSLScheduler.AttemptsInRoot (scheduler : DSLScheduler) (state : State) (event : Event) :
    Prop :=
  ∀ resumption, scheduler.resumed? state event = some resumption →
    resumption.coroutine.pc = .executing → resumption.stmt.retryUntil ≠ none →
    (∃ result, event = .resume resumption.index (.returned result)) →
    resumption.coroutine.task.stream = rootStream

/-! ## Lines -/

namespace StreamID

theorem within_trans {first second third : StreamID} (hFirst : first.within second = true)
    (hSecond : second.within third = true) : first.within third = true := by
  induction third with
  | root =>
      simp only [within, decide_eq_true_eq] at hSecond
      rwa [← hSecond] at hFirst
  | child base scope index ih =>
      simp only [within, Bool.or_eq_true, decide_eq_true_eq] at hSecond
      rcases hSecond with hEq | hBelow
      · rwa [← hEq] at hFirst
      · exact within_child (ih hBelow) scope index

theorem base_within_child (base : StreamID) (scope : Ref) (index : StreamIndex) :
    base.within (child base scope index) = true :=
  within_child base.within_refl scope index

theorem onLine_of_within {stream other : StreamID} (hWithin : other.within stream = true) :
    stream.onLine other = true := by
  simp [onLine, hWithin]

end StreamID

/-- The log entries that open and drop streams belong to tasks above them. -/
def LogEntry.FromAbove : LogEntry → Prop
  | .opened writer created _ => writer.stream.within created = true
  | .dropped writer removed => ∀ stream ∈ removed, writer.stream.within stream = true
  | _ => True

section Replay

variable {stream holder : StreamID}

theorem actionsAfter_isSome_seen (initial : Dict Ref TaskResult) {log : List LogEntry}
    (hAbove : ∀ entry ∈ log, entry.FromAbove) (hLine : holder.within stream = true) :
    (actionsAfter initial (log.filterMap (LogEntry.seenFrom stream)) holder).isSome =
      (actionsAfter initial log holder).isSome := by
  induction log with
  | nil => rfl
  | cons entry older ih =>
      obtain ⟨hEntry, hOlder⟩ := List.forall_mem_cons.mp hAbove
      replace ih := ih hOlder
      rw [List.filterMap_cons]
      cases entry with
      | opened writer created actions =>
          by_cases hSeen : (stream.onLine writer.stream && created.within stream) = true
          · simp only [LogEntry.seenFrom, hSeen, if_true, actionsAfter]
            split
            · rfl
            · exact ih
          · have hHolder : holder ≠ created := by
              rintro rfl
              have hOn := StreamID.onLine_of_within (StreamID.within_trans hEntry hLine)
              simp [hOn, hLine] at hSeen
            simp only [LogEntry.seenFrom, hSeen, Bool.false_eq_true, if_false, actionsAfter,
              hHolder]
            exact ih
      | wrote writer written ref result =>
          by_cases hSeen : (stream.onLine writer.stream && written.within stream) = true
          · simp only [LogEntry.seenFrom, hSeen, if_true, actionsAfter]
            split
            · simpa using ih
            · exact ih
          · simp only [LogEntry.seenFrom, hSeen, Bool.false_eq_true, if_false, actionsAfter]
            rw [ih]
            split <;> simp
      | dropped writer removed =>
          by_cases hHolder : holder ∈ removed
          · have hOn := StreamID.onLine_of_within
              (StreamID.within_trans (hEntry _ hHolder) hLine)
            have hKept : holder ∈ removed.filter fun other => other.within stream :=
              List.mem_filter.mpr ⟨hHolder, hLine⟩
            have hSome : (removed.filter fun other => other.within stream).isEmpty = false :=
              List.isEmpty_eq_false_iff.mpr (List.ne_nil_of_mem hKept)
            simp only [LogEntry.seenFrom, hOn, hSome, Bool.not_false, Bool.and_self, if_true,
              actionsAfter, hKept, hHolder]
          · have hKept : holder ∉ removed.filter fun other => other.within stream :=
              fun hMem => hHolder (List.mem_filter.mp hMem).1
            simp only [LogEntry.seenFrom, actionsAfter, hHolder, if_false]
            split
            · exact ih
            · rename_i seen hSeen
              split at hSeen
              · cases hSeen
                simp only [actionsAfter, hKept, if_false]
                exact ih
              · cases hSeen
      | _ => exact ih

/-- The entry of a context on the line is decided by what is seen, where a task
on the line wrote it. -/
theorem lookup_actionsAfter_seen (initial : Dict Ref TaskResult) {log : List LogEntry}
    (hAbove : ∀ entry ∈ log, entry.FromAbove) (hLine : holder.within stream = true) {ref : Ref}
    (hWriter : ∀ writer, lastWriter log holder ref = some writer →
      stream.onLine writer.stream = true) :
    (actionsAfter initial (log.filterMap (LogEntry.seenFrom stream)) holder).bind
        (fun actions => actions.lookup ref) =
      (actionsAfter initial log holder).bind fun actions => actions.lookup ref := by
  induction log with
  | nil => rfl
  | cons entry older ih =>
      have hExists := actionsAfter_isSome_seen initial
        (fun other hOther => hAbove other (List.mem_cons_of_mem _ hOther)) hLine
      obtain ⟨hEntry, hOlder⟩ := List.forall_mem_cons.mp hAbove
      replace ih := ih hOlder
      rw [List.filterMap_cons]
      cases entry with
      | opened writer created actions =>
          by_cases hHolder : holder = created
          · subst hHolder
            have hOn := StreamID.onLine_of_within (StreamID.within_trans hEntry hLine)
            simp [LogEntry.seenFrom, hOn, hLine, actionsAfter]
          · simp only [lastWriter, hHolder, if_false] at hWriter
            simp only [LogEntry.seenFrom, actionsAfter, hHolder, if_false]
            split
            · exact ih hWriter
            · rename_i seen hSeen
              split at hSeen
              · cases hSeen
                simp only [actionsAfter, hHolder, if_false]
                exact ih hWriter
              · cases hSeen
      | wrote writer written other result =>
          by_cases hHolder : holder = written ∧ ref = other
          · -- the newest write of the entry, which is seen
            obtain ⟨rfl, rfl⟩ := hHolder
            have hOn := hWriter writer (by simp [lastWriter])
            have hSame : ∀ first second : Option (Dict Ref TaskResult),
                first.isSome = second.isSome →
                ((first.map fun actions => actions.insert ref result).bind
                    fun actions => actions.lookup ref) =
                  (second.map fun actions => actions.insert ref result).bind
                    fun actions => actions.lookup ref := by
              rintro (_ | first) (_ | second) <;> simp
            simpa [LogEntry.seenFrom, hOn, hLine, actionsAfter] using hSame _ _ hExists
          · simp only [lastWriter, hHolder, if_false] at hWriter
            have hSkip : ∀ found : Option (Dict Ref TaskResult),
                ((if holder = written then
                    found.map fun actions => actions.insert other result
                  else found).bind fun actions => actions.lookup ref) =
                  found.bind fun actions => actions.lookup ref := by
              intro found
              split
              · rename_i hWritten
                have hRef : ref ≠ other := fun hRef => hHolder ⟨hWritten, hRef⟩
                cases found <;> simp [AList.lookup_insert_ne hRef]
              · rfl
            simp only [LogEntry.seenFrom, actionsAfter]
            rw [hSkip]
            split
            · exact ih hWriter
            · rename_i seen hSeen
              split at hSeen
              · cases hSeen
                simp only [actionsAfter]
                rw [hSkip]
                exact ih hWriter
              · cases hSeen
      | dropped writer removed =>
          by_cases hHolder : holder ∈ removed
          · have hNone : actionsAfter initial (.dropped writer removed :: older) holder = none := by
              simp [actionsAfter, hHolder]
            have hSeenNone := actionsAfter_isSome_seen initial hAbove hLine
            rw [hNone, List.filterMap_cons] at hSeenNone
            rw [hNone, Option.isSome_eq_false_iff.mp hSeenNone |> Option.isNone_iff_eq_none.mp]
          · simp only [lastWriter, hHolder, if_false] at hWriter
            have hKept : holder ∉ removed.filter fun other => other.within stream :=
              fun hMem => hHolder (List.mem_filter.mp hMem).1
            simp only [LogEntry.seenFrom, actionsAfter, hHolder, if_false]
            split
            · exact ih hWriter
            · rename_i seen hSeen
              split at hSeen
              · cases hSeen
                simp only [actionsAfter, hKept, if_false]
                exact ih hWriter
              · cases hSeen
      | _ => exact ih hWriter

end Replay

/-! ## Signed histories -/

/-- Every entry of the history was added by a step of some task.  `attempts`
holds of the tasks that have ended an attempt of a `retry_until` action. -/
def State.Signed (scheduler : DSLScheduler) (attempts : Task → Prop) (state : State) : Prop :=
  ∀ entry ∈ state.tables.history, ∃ task stmt, scheduler.dsl.stmt? task.ref = some stmt ∧
    entry.By task stmt (attempts task)

theorem Writes.mono {task writer : Task} {stmt : ActionStatement} {attempt other : Prop}
    {stream : StreamID} {ref : Ref} (hWrites : Writes task stmt attempt writer stream ref)
    (hImplies : attempt → other) : Writes task stmt other writer stream ref := by
  cases hWrites with
  | own => exact .own
  | attempt hAttempt => exact .attempt (hImplies hAttempt)
  | gather hAction hStream hWriter => exact .gather hAction hStream hWriter

theorem LogEntry.By.mono {entry : LogEntry} {task : Task} {stmt : ActionStatement}
    {attempt other : Prop} (hBy : entry.By task stmt attempt) (hImplies : attempt → other) :
    entry.By task stmt other := by
  cases hBy with
  | opened index actions => exact .opened index actions
  | wrote result hWrites => exact .wrote result (hWrites.mono hImplies)
  | dropped endRef hBelow => exact .dropped endRef hBelow

theorem LogEntry.By.fromAbove {entry : LogEntry} {task : Task} {stmt : ActionStatement}
    {attempt : Prop} (hBy : entry.By task stmt attempt) : entry.FromAbove := by
  cases hBy with
  | opened index actions => exact StreamID.base_within_child _ _ _
  | wrote result hWrites => trivial
  | dropped endRef hBelow => exact fun stream hStream => (hBelow stream hStream).1

theorem Writes.stream_eq {task writer : Task} {stmt : ActionStatement} {stream : StreamID}
    {ref : Ref} (hWrites : Writes task stmt (task.stream = rootStream) writer stream ref) :
    stream = writer.stream ∨ stmt.action = .transformGather ∧ writer.ref = task.ref := by
  cases hWrites with
  | own => exact Or.inl rfl
  | attempt hRoot => exact Or.inl hRoot.symm
  | gather hAction hStream hWriter =>
      rcases hWriter with rfl | rfl
      · exact Or.inr ⟨hAction, rfl⟩
      · exact Or.inr ⟨hAction, rfl⟩

namespace DSLScheduler

variable {scheduler : DSLScheduler} {context : ExecutionContext} {state next : State}
  {event : Event}

theorem signed_step {attempts : Task → Prop} (hTracked : state.Tracked scheduler context)
    (hSigned : state.Signed scheduler attempts)
    (hAttempts : ∀ resumption, scheduler.resumed? state event = some resumption →
      resumption.coroutine.pc = .executing → resumption.stmt.retryUntil ≠ none →
      (∃ result, event = .resume resumption.index (.returned result)) →
      attempts resumption.coroutine.task)
    (hStep : scheduler.step state event = some next) : next.Signed scheduler attempts := by
  rcases scheduler.step_eq_some.mp hStep with ⟨rfl, hSpawn⟩ | ⟨resumption, hResumed, rfl⟩
  · obtain ⟨task, delay, hTables⟩ := tables_spawn hSpawn
    unfold State.Signed
    rw [hTables]
    exact hSigned
  · obtain ⟨hTouches, -⟩ := resumed_touches hTracked hResumed
    obtain ⟨outcome, -, -, hStmt, -⟩ := scheduler.resumed?_eq_some hResumed
    obtain ⟨added, hHistory, hBy⟩ := hTouches.history
    intro entry hEntry
    rw [tables_settle] at hEntry
    simp only [hHistory, List.mem_append] at hEntry
    rcases hEntry with hAdded | hOld
    · exact ⟨_, _, hStmt, (hBy entry hAdded).mono fun hAttempt =>
        hAttempts resumption hResumed hAttempt.1 hAttempt.2.1 hAttempt.2.2⟩
    · exact hSigned entry hOld

theorem signed_of_reachable (hReach : scheduler.ReachableWith context
    scheduler.AttemptsInRoot state) :
    state.Signed scheduler fun task => task.stream = rootStream := by
  induction hReach with
  | init =>
      intro entry hEntry
      simp [State.tables, State.init] at hEntry
  | step event hReach hAllowed hStep ih =>
      exact signed_step (tracked_of_reachable (ReachableWith.reachable scheduler hReach)) ih
        hAllowed hStep

end DSLScheduler

/-! ## Two runs -/

/-- Two states whose contexts agree along a stream give it the same results. -/
theorem State.streamAwareActionResult_congr {state other : State} {stream : StreamID} {ref : Ref}
    (hHierarchy : ∀ holder, holder.within stream = true →
      state.streamHierarchy.lookup holder = other.streamHierarchy.lookup holder)
    (hEntries : ∀ holder, holder.within stream = true →
      state.entryAt? holder ref = other.entryAt? holder ref)
    (hLinked : state.tables.Linked) :
    state.streamAwareActionResult ref stream = other.streamAwareActionResult ref stream := by
  have hWalk : ∀ fuel holder, holder.within stream = true →
      state.resultFrom ref fuel holder = other.resultFrom ref fuel holder := by
    intro fuel
    induction fuel with
    | zero => exact fun _ _ => rfl
    | succ fuel ih =>
        intro holder hHolder
        unfold resultFrom
        rw [← hEntries holder hHolder, ← hHierarchy holder hHolder]
        cases state.entryAt? holder ref with
        | some result => rfl
        | none =>
            cases hParent : state.streamHierarchy.lookup holder with
            | none => rfl
            | some parent? =>
                cases parent? with
                | none => rfl
                | some parent =>
                    obtain ⟨scope, index, rfl⟩ := hLinked.eq_child hParent
                    exact ih parent (StreamID.within_trans
                      (StreamID.base_within_child parent scope index) hHolder)
  exact hWalk _ stream stream.within_refl

section Seen

variable {scheduler : DSLScheduler} {context : ExecutionContext} {state : State}
  {stream holder : StreamID}

theorem State.Signed.fromAbove {attempts : Task → Prop}
    (hSigned : state.Signed scheduler attempts) :
    ∀ entry ∈ state.tables.history, entry.FromAbove := by
  intro entry hEntry
  obtain ⟨task, stmt, -, hBy⟩ := hSigned entry hEntry
  exact hBy.fromAbove

theorem State.Tracked.hierarchy_seen {attempts : Task → Prop}
    (hTracked : state.Tracked scheduler context) (hSigned : state.Signed scheduler attempts)
    (hLine : holder.within stream = true) :
    state.streamHierarchy.lookup holder =
      (actionsAfter context.actions (state.seenFrom stream) holder).map
        fun _ => holder.base? := by
  have hExists := actionsAfter_isSome_seen context.actions hSigned.fromAbove hLine
  have hLinked : state.streamHierarchy.lookup holder = _ := hTracked.linked.hierarchy holder
  rw [← hTracked.recorded.actions, Option.isSome_map] at hExists
  unfold seenFrom
  rw [hLinked]
  cases hContext : state.tables.streams.lookup holder with
  | none =>
      rw [hContext, Option.isSome_none, Option.isSome_eq_false_iff,
        Option.isNone_iff_eq_none] at hExists
      rw [hExists]
      rfl
  | some found =>
      rw [hContext, Option.isSome_some] at hExists
      obtain ⟨actions, hActions⟩ := Option.isSome_iff_exists.mp hExists
      rw [hActions]
      rfl

theorem State.Tracked.entryAt?_seen {attempts : Task → Prop}
    (hTracked : state.Tracked scheduler context) (hSigned : state.Signed scheduler attempts)
    (hLine : holder.within stream = true) {ref : Ref} (hSettled : state.Settled stream ref) :
    state.entryAt? holder ref =
      (actionsAfter context.actions (state.seenFrom stream) holder).bind
        fun actions => actions.lookup ref := by
  have hWriter (writer : Task)
      (hLast : lastWriter state.tables.history holder ref = some writer) :
      stream.onLine writer.stream = true := by
    by_cases hOwn : writer.stream = holder
    · exact hOwn ▸ StreamID.onLine_of_within hLine
    · exact hSettled holder writer hLine hLast hOwn
  have hSeen := lookup_actionsAfter_seen context.actions hSigned.fromAbove hLine hWriter
  have hStreams : state.tables.streams = state.streams := rfl
  unfold seenFrom entryAt?
  rw [hSeen, ← hTracked.recorded.actions, Option.bind_map, hStreams]
  rfl

end Seen

/-- Runs whose attempts end in the root stream isolate the results of streams,
up to the accumulators of gathers in progress. -/
theorem result_isolation (scheduler : DSLScheduler) (context : ExecutionContext) :
    ResultIsolation scheduler context scheduler.AttemptsInRoot State.Settled := by
  have hResults (state other : State) (stream : StreamID) (ref : Ref)
      (hState : scheduler.ReachableWith context scheduler.AttemptsInRoot state)
      (hOther : scheduler.ReachableWith context scheduler.AttemptsInRoot other)
      (hSeen : state.seenFrom stream = other.seenFrom stream)
      (hSettled : state.Settled stream ref) (hOtherSettled : other.Settled stream ref) :
      state.streamAwareActionResult ref stream = other.streamAwareActionResult ref stream := by
    have hTracked := DSLScheduler.tracked_of_reachable
      (DSLScheduler.ReachableWith.reachable scheduler hState)
    have hOtherTracked := DSLScheduler.tracked_of_reachable
      (DSLScheduler.ReachableWith.reachable scheduler hOther)
    have hSigned := DSLScheduler.signed_of_reachable hState
    have hOtherSigned := DSLScheduler.signed_of_reachable hOther
    refine State.streamAwareActionResult_congr (fun holder hLine => ?_)
      (fun holder hLine => ?_) hTracked.linked
    · rw [hTracked.hierarchy_seen hSigned hLine, hSeen,
        hOtherTracked.hierarchy_seen hOtherSigned hLine]
    · rw [hTracked.entryAt?_seen hSigned hLine hSettled, hSeen,
        hOtherTracked.entryAt?_seen hOtherSigned hLine hOtherSettled]
  refine ⟨hResults, fun state other stream stmt hState hOther hSeen hReadable => ?_,
    fun state writer stream ref result hState hWrote hPlain => ?_⟩
  · -- the contexts share trigger inputs and environment, and their actions agree
    have hTracked := DSLScheduler.tracked_of_reachable
      (DSLScheduler.ReachableWith.reachable scheduler hState)
    have hOtherTracked := DSLScheduler.tracked_of_reachable
      (DSLScheduler.ReachableWith.reachable scheduler hOther)
    have hActions : state.resolvedActions stmt stream = other.resolvedActions stmt stream := by
      unfold State.resolvedActions
      refine List.foldl_ext _ _ _ fun actions ref hRef => ?_
      rw [hResults state other stream ref hState hOther hSeen (hReadable ref hRef).1
        (hReadable ref hRef).2]
    obtain ⟨root, hRoot, hTrigger, hEnv⟩ := hTracked.recorded.root
    obtain ⟨otherRoot, hOtherRoot, hOtherTrigger, hOtherEnv⟩ := hOtherTracked.recorded.root
    have hStateRoot : state.streams.lookup rootStream = some root := hRoot
    have hOtherStateRoot : other.streams.lookup rootStream = some otherRoot := hOtherRoot
    unfold State.buildStreamAwareContext
    rw [hStateRoot, hOtherStateRoot, hActions]
    simp [hTrigger, hEnv, hOtherTrigger, hOtherEnv]
  · have hEntry : LogEntry.wrote writer stream ref result ∈ state.tables.history :=
      List.mem_filter.mpr ⟨hWrote, rfl⟩
    obtain ⟨task, stmt, hStmt, hBy⟩ := DSLScheduler.signed_of_reachable hState _ hEntry
    cases hBy with
    | wrote result hWrites =>
        rcases hWrites.stream_eq with hStream | ⟨hAction, hRef⟩
        · exact hStream
        · exact absurd hAction (hPlain stmt (hRef ▸ hStmt))

namespace DSLScheduler

/-- A step off the line of a stream is not seen from it, unless a gather takes it. -/
theorem seenFrom_step {scheduler : DSLScheduler} {context : ExecutionContext} {state next : State}
    {event : Event} {stream : StreamID} (hTracked : state.Tracked scheduler context)
    {resumption : Resumption} (hResumed : scheduler.resumed? state event = some resumption)
    (hPlain : resumption.stmt.action ≠ .transformGather)
    (hOff : stream.onLine resumption.coroutine.task.stream = false)
    (hStep : scheduler.step state event = some next) :
    next.seenFrom stream = state.seenFrom stream := by
  rcases scheduler.step_eq_some.mp hStep with ⟨rfl, -⟩ | ⟨taken, hTaken, rfl⟩
  · cases hResumed
  · obtain rfl : taken = resumption := Option.some.inj (hTaken.symm.trans hResumed)
    obtain ⟨hTouches, -⟩ := resumed_touches hTracked hResumed
    obtain ⟨added, hHistory, hBy⟩ := hTouches.history
    have hUnseen : added.filterMap (LogEntry.seenFrom stream) = [] := by
      rw [List.filterMap_eq_nil_iff]
      intro entry hEntry
      cases hBy entry hEntry with
      | opened index actions => simp [LogEntry.seenFrom, hOff]
      | dropped endRef hBelow => simp [LogEntry.seenFrom, hOff]
      | wrote result hWrites =>
          cases hWrites with
          | own => simp [LogEntry.seenFrom, hOff]
          | attempt _ => simp [LogEntry.seenFrom, hOff]
          | gather hAction _ _ => exact absurd hAction hPlain
    unfold State.seenFrom
    rw [tables_settle]
    simp only [hHistory, List.filterMap_append, hUnseen, List.nil_append]

/-- The step ends no attempt of an action with `retry_until`. -/
def attemptless (scheduler : DSLScheduler) (state : State) (event : Event) : Bool :=
  match scheduler.resumed? state event with
  | none => true
  | some resumption => resumption.stmt.retryUntil.isNone

theorem attemptsInRoot_of_attemptless {scheduler : DSLScheduler} {state : State} {event : Event}
    (hAllowed : scheduler.attemptless state event = true) :
    scheduler.AttemptsInRoot state event := by
  intro resumption hResumed _ hAttempt
  simp only [attemptless, hResumed, Option.isNone_iff_eq_none] at hAllowed
  exact absurd hAllowed hAttempt

end DSLScheduler

/-- A scatter over two items.  The body of the first has returned. -/
def twoBodies : Scenario where
  dsl := {
    actions := [
      { ref := "scatter", action := .transformScatter,
        args := .scatter { collection := {} } },
      { ref := "body", action := .udf "core.noop", dependsOn := ["scatter"] }] }
  events := [.spawn, .resume 0 .resumed,
    .resume 0 (.collection (.inline (.arr [.null, .null]))), .resume 0 .resumed,
    .resume 0 .resumed, .spawn, .spawn, .resume 0 .resumed, .resume 1 .resumed,
    .resume 0 (.returned { result := .external "first" })]

def itemStream (index : Nat) : StreamID := .child .root "scatter" (.item index)

def secondReturns : Event := .resume 0 (.returned { result := .external "second" })

/-- The run goes on with a step of the second body, which writes to its own context only. -/
def secondApart (scheduler : DSLScheduler) (state : State) : Bool :=
  match scheduler.resumed? state secondReturns, scheduler.step state secondReturns with
  | some resumption, some next =>
      scheduler.attemptless state secondReturns &&
        decide (resumption.stmt.action ≠ .transformGather) &&
        decide (resumption.coroutine.task = ⟨"body", itemStream 1⟩) &&
        [state, next].all (fun reached =>
          decide (lastWriter reached.tables.history .root "body" = none) &&
            decide (lastWriter reached.tables.history (itemStream 0) "body" =
              some ⟨"body", itemStream 0⟩)) &&
        decide (lastWriter state.tables.history (itemStream 1) "body" = none) &&
        decide (lastWriter next.tables.history (itemStream 1) "body" =
          some ⟨"body", itemStream 1⟩)
  | _, _ => false

theorem settled_of_own {state : State}
    (hRoot : lastWriter state.tables.history .root "body" = none)
    (hOwn : lastWriter state.tables.history (itemStream 0) "body" =
      some ⟨"body", itemStream 0⟩) : state.Settled (itemStream 0) "body" := by
  intro holder writer hHolder hWriter hOther
  have hCases : itemStream 0 = holder ∨ .root = holder := by
    simpa [itemStream, StreamID.within] using hHolder
  rcases hCases with rfl | rfl
  · rw [hOwn] at hWriter
    cases hWriter
    exact absurd rfl hOther
  · rw [hRoot] at hWriter
    cases hWriter

set_option maxRecDepth 20000 in
/-- Two runs that differ in what the second body has written: the first stream sees the
same result in both. -/
theorem twoBodies_isolated : ∃ (scheduler : DSLScheduler) (state next : State),
    DSLScheduler.new twoBodies.dsl 8 (fun _ => none) = .ok scheduler ∧
      scheduler.ReachableWith {} scheduler.AttemptsInRoot state ∧
      scheduler.ReachableWith {} scheduler.AttemptsInRoot next ∧
      lastWriter state.tables.history (itemStream 1) "body" = none ∧
      lastWriter next.tables.history (itemStream 1) "body" = some ⟨"body", itemStream 1⟩ ∧
      state.streamAwareActionResult "body" (itemStream 0) =
        next.streamAwareActionResult "body" (itemStream 0) := by
  have hReaches : twoBodies.reaches DSLScheduler.attemptless secondApart = true := by
    decide +kernel
  obtain ⟨-, scheduler, state, hNew, hReach, hApart⟩ := Scenario.exists_of_reaches hReaches
  have hState : scheduler.ReachableWith {} scheduler.AttemptsInRoot state :=
    DSLScheduler.ReachableWith.mono scheduler hReach fun _ _ hAllowed =>
      DSLScheduler.attemptsInRoot_of_attemptless hAllowed
  unfold secondApart at hApart
  cases hResumed : scheduler.resumed? state secondReturns with
  | none => simp [hResumed] at hApart
  | some resumption =>
      cases hStep : scheduler.step state secondReturns with
      | none => simp [hResumed, hStep] at hApart
      | some next =>
          simp only [hResumed, hStep, Bool.and_eq_true, decide_eq_true_eq, List.all_cons,
            List.all_nil, and_true] at hApart
          obtain ⟨⟨⟨⟨⟨hAllowed, hPlain⟩, hTask⟩, ⟨hRoot, hOwn⟩, hNextRoot, hNextOwn⟩, hBefore⟩,
            hAfter⟩ := hApart
          have hNext : scheduler.ReachableWith {} scheduler.AttemptsInRoot next :=
            .step secondReturns hState (DSLScheduler.attemptsInRoot_of_attemptless hAllowed) hStep
          have hTracked := DSLScheduler.tracked_of_reachable
            (DSLScheduler.ReachableWith.reachable scheduler hState)
          have hSeen := DSLScheduler.seenFrom_step hTracked hResumed hPlain
            (show (itemStream 0).onLine resumption.coroutine.task.stream = false by
              rw [hTask]; rfl) hStep
          exact ⟨scheduler, state, next, hNew, hState, hNext, hBefore, hAfter,
            (result_isolation scheduler {}).results state next _ _ hState hNext hSeen.symm
              (settled_of_own hRoot hOwn) (settled_of_own hNextRoot hNextOwn)⟩

/-- A run in which the stream of a scatter ends an attempt of an action with
`retry_until`. -/
def attemptInStream : Scenario where
  dsl := {
    actions := [
      { ref := "scatter", action := .transformScatter,
        args := .scatter { collection := {} } },
      { ref := "poll", action := .udf "core.noop", dependsOn := ["scatter"],
        retryUntil := some {} }] }
  events := [.spawn, .resume 0 .resumed,
    .resume 0 (.collection (.inline (.arr [.null]))), .spawn, .resume 1 .resumed,
    .resume 1 (.returned { result := .external "result" })]

/-- The entry is a write of `writer` in the context of `stream`. -/
def LogEntry.writes (writer : Task) (stream : StreamID) : LogEntry → Bool
  | .wrote by_ target _ _ => by_ = writer && target = stream
  | _ => false

set_option maxRecDepth 20000 in
/-- Results are not isolated on accepted definitions: the attempt is written to
the root context. -/
theorem not_forall_result_isolation : ¬ ∀ (dsl : DSLInput) (maxPendingTasks : Nat)
    (scheduler : DSLScheduler) (context : ExecutionContext), dsl.Accepted →
    DSLScheduler.new dsl maxPendingTasks (fun _ => none) = .ok scheduler →
    ResultIsolation scheduler context (fun _ _ => True) fun _ _ _ => True := by
  intro hAll
  have hReaches : attemptInStream.reaches (fun _ _ _ => true)
      (fun scheduler state =>
        decide ((scheduler.dsl.stmt? "poll").map ActionStatement.action =
          some (.udf "core.noop")) &&
        state.log.any
          (LogEntry.writes ⟨"poll", .child .root "scatter" (.item 0)⟩ rootStream)) = true := by
    decide +kernel
  obtain ⟨hAccepted, scheduler, state, hNew, hReach, hCheck⟩ :=
    Scenario.exists_of_reaches hReaches
  have hIsolation := hAll _ _ scheduler attemptInStream.context hAccepted hNew
  simp only [Bool.and_eq_true, decide_eq_true_eq, List.any_eq_true] at hCheck
  obtain ⟨hPlain, entry, hMem, hEntry⟩ := hCheck
  cases entry <;>
    simp only [LogEntry.writes, Bool.and_eq_true, decide_eq_true_eq, Bool.false_eq_true] at hEntry
  obtain ⟨rfl, rfl⟩ := hEntry
  have hStream := hIsolation.writes state _ _ _ _
    (DSLScheduler.ReachableWith.mono scheduler hReach fun _ _ _ => trivial) hMem
    fun stmt hStmt hGather => by
      rw [hStmt] at hPlain
      simp [hGather] at hPlain
  cases hStream

end Tracecat
