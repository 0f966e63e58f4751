import Tracecat.Scheduler.Shape

/-!
# Contexts of streams

`get_stream_aware_action_result` and `build_stream_aware_context`, and the part
of the state that they read: the context of every stream, the stream hierarchy,
the streams that scatters have listed, and the history of all three.
-/

namespace Tracecat

/-! ## The lookup along the hierarchy -/

/-- The `ACTIONS` references that `extract_expressions(task.model_dump())`
finds in a statement. -/
def ActionStatement.actionRefs (stmt : ActionStatement) : List Ref :=
  stmt.exprFields.flatMap Prod.snd

def StreamID.depth : StreamID → Nat
  | root => 0
  | child base _ _ => base.depth + 1

namespace State

variable (state : State)

/-- `self.streams[stream]["ACTIONS"][ref]`, where there is one. -/
def entryAt? (stream : StreamID) (ref : Ref) : Option TaskResult :=
  (state.streams.lookup stream).bind fun context => context.actions.lookup ref

/-- The loop of `get_stream_aware_action_result`. -/
def resultFrom (ref : Ref) : Nat → StreamID → Option TaskResult
  | 0, _ => none
  | fuel + 1, stream =>
      match state.entryAt? stream ref with
      | some result => some result
      | none =>
          match state.streamHierarchy.lookup stream with
          | some (some parent) => resultFrom ref fuel parent
          | _ => none

/-- `get_stream_aware_action_result`.  The parent of a stream is its base, so
the loop has no more turns than the stream has segments, and one. -/
def streamAwareActionResult (ref : Ref) (stream : StreamID) : Option TaskResult :=
  state.resultFrom ref (stream.depth + 1) stream

/-- `resolved_actions` of `build_stream_aware_context`. -/
def resolvedActions (stmt : ActionStatement) (stream : StreamID) : Dict Ref TaskResult :=
  stmt.actionRefs.foldl
    (fun actions ref =>
      match state.streamAwareActionResult ref stream with
      | some result => actions.insert ref result
      | none => actions) ∅

/-- `build_stream_aware_context`; `none` stands for the `KeyError` of a run
without a root context. -/
def buildStreamAwareContext (stmt : ActionStatement) (stream : StreamID) :
    Option ExecutionContext :=
  (state.streams.lookup rootStream).map fun root =>
    { root with actions := state.resolvedActions stmt stream }

end State

/-- The result of `ref` in the nearest stream, from `stream` upwards along the
hierarchy, that has one. -/
inductive State.Nearest (state : State) (ref : Ref) : StreamID → TaskResult → Prop
  | here {stream : StreamID} {result : TaskResult}
      (hEntry : state.entryAt? stream ref = some result) : Nearest state ref stream result
  | above {stream parent : StreamID} {result : TaskResult}
      (hNone : state.entryAt? stream ref = none)
      (hParent : state.streamHierarchy.lookup stream = some (some parent))
      (hNearest : Nearest state ref parent result) : Nearest state ref stream result

theorem lookup_foldl_resolved (results : Ref → Option TaskResult) (refs : List Ref)
    (actions : Dict Ref TaskResult) (ref : Ref) :
    (refs.foldl
      (fun actions ref =>
        match results ref with
        | some result => actions.insert ref result
        | none => actions) actions).lookup ref =
      if ref ∈ refs then (results ref).or (actions.lookup ref) else actions.lookup ref := by
  induction refs generalizing actions with
  | nil => simp
  | cons head rest ih =>
      rw [List.foldl_cons, ih]
      by_cases hHead : ref = head
      · subst hHead
        cases hResult : results ref <;> simp
      · cases hResult : results head with
        | none => simp [hHead]
        | some result => simp [hHead, AList.lookup_insert_ne hHead]

theorem State.lookup_resolvedActions (state : State) {stmt : ActionStatement} {ref : Ref}
    (hRef : ref ∈ stmt.actionRefs) (stream : StreamID) :
    (state.resolvedActions stmt stream).lookup ref =
      state.streamAwareActionResult ref stream := by
  unfold resolvedActions
  rw [lookup_foldl_resolved fun ref => state.streamAwareActionResult ref stream]
  simp [hRef]

/-! ## The tables -/

namespace LogEntry

/-- The entry reports a change of contexts. -/
def isContext : LogEntry → Bool
  | opened _ _ _ | wrote _ _ _ _ | dropped _ _ => true
  | _ => false

end LogEntry

/-- The attributes that decide what an expression refers to, the log of their
changes, newest first, and the pending coroutines, which no handler changes. -/
structure Tables where
  pending : List Coroutine
  streams : Dict StreamID ExecutionContext
  hierarchy : Dict StreamID (Option StreamID)
  listed : Dict Task (List StreamID)
  history : List LogEntry

def State.tables (state : State) : Tables where
  pending := state.pending
  streams := state.streams
  hierarchy := state.streamHierarchy
  listed := state.taskStreams
  history := state.log.filter LogEntry.isContext

namespace Tables

/-- An `ACTIONS` entry is written. -/
def write (tables : Tables) (writer : Task) (stream : StreamID) (ref : Ref)
    (result : TaskResult) : Tables :=
  match tables.streams.lookup stream with
  | none => tables
  | some context =>
      { tables with
        streams := tables.streams.insert stream
          { context with actions := context.actions.insert ref result }
        history := .wrote writer stream ref result :: tables.history }

def openStream (tables : Tables) (writer : Task) (stream parent : StreamID)
    (actions : Dict Ref TaskResult) : Tables :=
  { tables with
    hierarchy := tables.hierarchy.insert stream (some parent)
    streams := tables.streams.insert stream { actions := actions }
    history := .opened writer stream actions :: tables.history }

def drop (tables : Tables) (writer : Task) (removed : List StreamID) : Tables where
  pending := tables.pending
  streams := tables.streams.filterKeys fun stream => decide (stream ∉ removed)
  hierarchy := tables.hierarchy.filterKeys fun stream => decide (stream ∉ removed)
  listed := tables.listed.filterKeys fun task => decide (task.stream ∉ removed)
  history := .dropped writer removed :: tables.history

end Tables

namespace State

variable (state : State)

@[simp] theorem tables_record (entry : LogEntry) :
    (state.record entry).tables =
      if entry.isContext then { state.tables with history := entry :: state.tables.history }
      else state.tables := by
  unfold tables record
  rw [List.filter_cons]
  split <;> rfl

@[simp] theorem tables_complete (task : Task) : (state.complete task).tables = state.tables :=
  rfl

@[simp] theorem tables_writeAction (writer : Task) (stream : StreamID) (ref : Ref)
    (result : TaskResult) :
    (state.writeAction writer stream ref result).tables =
      state.tables.write writer stream ref result := by
  have hStreams : state.tables.streams = state.streams := rfl
  unfold writeAction Tables.write
  rw [hStreams]
  cases state.streams.lookup stream <;> rfl

@[simp] theorem tables_openStream (writer : Task) (stream parent : StreamID)
    (actions : Dict Ref TaskResult) :
    (state.openStream writer stream parent actions).tables =
      state.tables.openStream writer stream parent actions := rfl

end State

namespace DSLScheduler

variable (scheduler : DSLScheduler) (state : State)

@[simp] theorem tables_queueTasks (task : DelayedTask) (unreachable : List DSLEdge) :
    (scheduler.queueTasks state task unreachable).tables = state.tables := by
  rw [queueTasks_frame]
  rfl

@[simp] theorem tables_handleSuccessPath (task : DelayedTask) :
    (scheduler.handleSuccessPath state task).tables = state.tables := by
  simp [handleSuccessPath, LogEntry.isContext]

@[simp] theorem tables_queueSkipped (task : DelayedTask) :
    (scheduler.queueSkipped state task).tables = state.tables := by
  simp [queueSkipped]

@[simp] theorem tables_handleErrorPath (task : DelayedTask) (exc : Exn) (failWorkflow : Bool) :
    (scheduler.handleErrorPath state task exc failWorkflow).tables = state.tables := by
  unfold handleErrorPath
  simp only
  split
  · simp [LogEntry.isContext]
  · split
    · rfl
    · rw [tables_queueSkipped]
      rfl

end DSLScheduler

end Tracecat
