import Tracecat.Scheduler.Effect
import Tracecat.Scheduler.Regions

/-!
# Passes of a loop

What the log says about one loop in one stream: where control is with respect
to the loop, and which iteration index every pass of every entry has been
given.  An entry begins when `_handle_loop_start` runs other than on behalf of
the loop end, and each restart by the loop end adds a pass to it.
-/

namespace Tracecat

/-- Where control is with respect to a loop in a stream. -/
inductive LoopPhase
  /-- the loop has not been entered, or has been left -/
  | outside
  /-- a pass has begun -/
  | inside
  /-- the loop end has sent control back to the loop start -/
  | again
  deriving DecidableEq

/-- The result that `_handle_loop_start` stores for its own ref. -/
def iterationResult (index : Nat) : TaskResult :=
  .fromResult (.json (.obj [("iteration", .int index)]))

namespace LogEntry

/-- The result that begins a pass of the loop in the stream. -/
def pass? (region : LoopRegion) (stream : StreamID) : LogEntry → Option TaskResult
  | wrote _ written ref result =>
      if written = stream ∧ ref = region.startRef then some result else none
  | _ => none

end LogEntry

namespace DSLScheduler

variable (scheduler : DSLScheduler)

/-- A restart of the loop of `startRef` in `base` ends every entry of the
region in `stream`: the region lies in that loop, and the stream in `base`. -/
def restartsAround (startRef : Ref) (base : StreamID) (region : LoopRegion)
    (stream : StreamID) : Bool :=
  (scheduler.loopRegions.lookup startRef).any fun outer =>
    decide (region.startRef ∈ outer.members) && base.within stream

/-- What a log entry makes of the phase of a loop. -/
def nextPhase (region : LoopRegion) (stream : StreamID) (entry : LogEntry)
    (phase : LoopPhase) : LoopPhase :=
  match entry with
  | .wrote _ written ref _ =>
      if written = stream ∧ ref = region.startRef then .inside else phase
  | .succeeded task | .skipping task =>
      if task = ⟨region.endRef, stream⟩ then .outside else phase
  | .reset startRef base =>
      if startRef = region.startRef ∧ base = stream then .again
      else if scheduler.restartsAround startRef base region stream then .outside
      else phase
  | _ => phase

/-- The phase of a loop in a stream after a log, newest entry first. -/
def loopPhase (region : LoopRegion) (stream : StreamID) (log : List LogEntry) : LoopPhase :=
  log.foldr (scheduler.nextPhase region stream) .outside

/-- The entries of a loop in a stream, newest first, each as the results that
its passes have been given. -/
def loopEntries (region : LoopRegion) (stream : StreamID) :
    List LogEntry → List (List TaskResult)
  | [] => []
  | entry :: older =>
      match entry.pass? region stream, scheduler.loopPhase region stream older,
          loopEntries region stream older with
      | none, _, entries => entries
      | some result, .again, current :: entries => (current ++ [result]) :: entries
      | some result, _, entries => [result] :: entries

/-- The iteration law of one loop in one stream: the passes of every entry are
given the indices `0, 1, 2, ...`, and there are at most `max_iterations`. -/
structure LoopLaw (region : LoopRegion) (stream : StreamID) (log : List LogEntry) : Prop where
  consecutive : ∀ entry ∈ scheduler.loopEntries region stream log,
    entry = (List.range entry.length).map iterationResult
  bounded : ∀ entry ∈ scheduler.loopEntries region stream log, ∀ stmt args,
    scheduler.dsl.stmt? region.endRef = some stmt → stmt.args = .loopEnd args →
      entry.length ≤ args.maxIterations

/-! ## The log entries that matter -/

/-- The action of `ref` is of the given type. -/
def hasType (ref : Ref) (action : ActionType) : Bool :=
  (scheduler.dsl.stmt? ref).any fun stmt => stmt.action = action

/-- The log entries that the phase of some loop depends on. -/
def isLoopEvent : LogEntry → Bool
  | .wrote _ _ ref _ => scheduler.hasType ref .loopStart
  | .succeeded task | .skipping task => scheduler.hasType task.ref .loopEnd
  | .reset _ _ => true
  | _ => false

/-- The loop events of a state, newest first. -/
def loopEvents (state : State) : List LogEntry :=
  state.log.filter scheduler.isLoopEvent

variable {scheduler}

namespace HasRegion

variable {region : LoopRegion} {startStmt endStmt : ActionStatement}

theorem hasType_start (hRegion : scheduler.HasRegion region startStmt endStmt) :
    scheduler.hasType region.startRef .loopStart = true := by
  simp [hasType, hRegion.start_stmt, hRegion.joins.start_action]

theorem hasType_end (hRegion : scheduler.HasRegion region startStmt endStmt) :
    scheduler.hasType region.endRef .loopEnd = true := by
  simp [hasType, hRegion.end_stmt, hRegion.joins.end_action]

variable {stream : StreamID} {entry : LogEntry}

/-- An entry that is no loop event begins no pass and leaves the phase alone. -/
theorem quiet_entry (hRegion : scheduler.HasRegion region startStmt endStmt)
    (hQuiet : scheduler.isLoopEvent entry = false) :
    entry.pass? region stream = none ∧
      ∀ phase, scheduler.nextPhase region stream entry phase = phase := by
  cases entry with
  | wrote writer written ref result =>
      have hRef : ref ≠ region.startRef := by
        rintro rfl
        simp [isLoopEvent, hRegion.hasType_start] at hQuiet
      exact ⟨by simp [LogEntry.pass?, hRef], fun phase => by simp [nextPhase, hRef]⟩
  | succeeded task | skipping task =>
      have hTask : task ≠ ⟨region.endRef, stream⟩ := by
        rintro rfl
        simp [isLoopEvent, hRegion.hasType_end] at hQuiet
      exact ⟨rfl, fun phase => by simp [nextPhase, hTask]⟩
  | reset startRef base => simp [isLoopEvent] at hQuiet
  | _ => exact ⟨rfl, fun _ => rfl⟩

theorem loopPhase_filter (hRegion : scheduler.HasRegion region startStmt endStmt)
    (log : List LogEntry) :
    scheduler.loopPhase region stream (log.filter scheduler.isLoopEvent) =
      scheduler.loopPhase region stream log := by
  induction log with
  | nil => rfl
  | cons entry older ih =>
      unfold loopPhase at ih ⊢
      cases hEvent : scheduler.isLoopEvent entry with
      | true => rw [List.filter_cons_of_pos hEvent, List.foldr_cons, List.foldr_cons, ih]
      | false =>
          rw [List.filter_cons_of_neg (by simp [hEvent]), List.foldr_cons, ih,
            (hRegion.quiet_entry hEvent).2]

theorem loopEntries_filter (hRegion : scheduler.HasRegion region startStmt endStmt)
    (log : List LogEntry) :
    scheduler.loopEntries region stream (log.filter scheduler.isLoopEvent) =
      scheduler.loopEntries region stream log := by
  induction log with
  | nil => rfl
  | cons entry older ih =>
      cases hEvent : scheduler.isLoopEvent entry with
      | true =>
          rw [List.filter_cons_of_pos hEvent, loopEntries, loopEntries,
            hRegion.loopPhase_filter, ih]
      | false =>
          rw [List.filter_cons_of_neg (by simp [hEvent]), ih, loopEntries,
            (hRegion.quiet_entry hEvent).1]

end HasRegion
end DSLScheduler

end Tracecat
