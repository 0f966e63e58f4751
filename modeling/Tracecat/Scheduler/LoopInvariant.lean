import Mathlib.Data.List.Perm.Basic
import Tracecat.Scheduler.LoopSteps
import Tracecat.Scheduler.History

/-!
# The invariant of a loop in a stream

A loop start is due or on its way to its handler at most once, and not at all
while a pass runs.  The iteration index of the stream counts the passes of the
current entry.  Every step keeps this, a restart under the condition that
nothing is left over from the loops inside the restarted one.
-/

namespace Tracecat

/-- How often the task is due, or has a coroutine at one of the points. -/
def State.claims (scheduler : DSLScheduler) (state : State) (points : PC → Bool)
    (task : Task) : Nat :=
  (state.control scheduler).due task +
    state.pending.countP fun coroutine =>
      decide (coroutine.task = task) && points coroutine.pc

/-- A spawn turns a claim of the queue into one of a coroutine. -/
theorem State.claims_spawn (scheduler : DSLScheduler) {state : State} {head : DelayedTask}
    {rest : List DelayedTask} (hQueue : state.queue = head :: rest) (points : PC → Bool)
    (hPoint : points .start = true) (task : Task) :
    State.claims scheduler { state with
      queue := rest
      pending := state.pending ++ [⟨head.task, head.delay, .start⟩] } points task =
      state.claims scheduler points task := by
  have hDegree : State.indegree scheduler { state with
      queue := rest
      pending := state.pending ++ [⟨head.task, head.delay, .start⟩] } task =
      state.indegree scheduler task := rfl
  unfold State.claims
  rw [State.control_due, State.control_due, hDegree, hQueue, List.countP_append]
  by_cases hTask : head.task = task
  · simp only [List.countP_cons, List.countP_nil, hTask, decide_true, if_true,
      Bool.true_and, hPoint]
    omega
  · simp only [List.countP_cons, List.countP_nil, hTask, decide_false,
      Bool.false_eq_true, if_false, Bool.false_and]
    omega

/-! ## Settling -/

section Counts

variable {pending : List Coroutine} {index : Nat} {coroutine : Coroutine}

theorem countP_split (hPending : pending[index]? = some coroutine) (test : Coroutine → Bool) :
    pending.countP test =
      (if test coroutine then 1 else 0) + (pending.eraseIdx index).countP test := by
  obtain ⟨hLt, hGet⟩ := List.getElem?_eq_some_iff.mp hPending
  have hPerm : (pending[index] :: pending.eraseIdx index).Perm pending :=
    List.getElem_cons_eraseIdx_perm hLt
  rw [← hPerm.countP_eq, List.countP_cons, hGet]
  omega

theorem countP_set (hPending : pending[index]? = some coroutine) (next : Coroutine)
    (test : Coroutine → Bool) :
    (pending.set index next).countP test =
      (if test next then 1 else 0) + (pending.eraseIdx index).countP test := by
  obtain ⟨hLt, -⟩ := List.getElem?_eq_some_iff.mp hPending
  rw [(List.set_perm_cons_eraseIdx hLt next).countP_eq, List.countP_cons]
  omega

end Counts

namespace DSLScheduler

variable (scheduler : DSLScheduler) {state : State} {index : Nat} {coroutine : Coroutine}
  {segment : Segment}

/-- A coroutine that settles changes what the loops depend on as its segment
does; only the coroutine itself goes on or is gone. -/
theorem settle_loops (index : Nat) (coroutine : Coroutine) (segment : Segment) :
    let next := scheduler.settle index coroutine segment
    (∀ task, (next.control scheduler).due task =
      (segment.state.control scheduler).due task) ∧
    next.loopIndices = segment.state.loopIndices ∧
    scheduler.loopEvents next = scheduler.loopEvents segment.state ∧
    next.streams = segment.state.streams ∧
    next.pending =
      match segment with
      | .suspend after pc => after.pending.set index { coroutine with pc := pc }
      | _ => segment.state.pending.eraseIdx index := by
  have hTables := tables_settle scheduler index coroutine segment
  refine ⟨?_, ?_, ?_, congrArg Tables.streams hTables, congrArg Tables.pending hTables⟩
  all_goals cases segment with
    | finish after => first | exact fun _ => rfl | rfl
    | suspend after pc => first | exact fun _ => rfl | rfl
    | raise after exc platform =>
        have hSteady := scheduler.steady_handleErrorPath after coroutine.delayed exc platform
        first | exact hSteady.due | exact hSteady.indices | exact hSteady.events

theorem claims_settle (hPending : segment.state.pending = state.pending) (points : PC → Bool)
    (task : Task) (hIndex : state.pending[index]? = some coroutine) :
    (scheduler.settle index coroutine segment).claims scheduler points task =
      (segment.state.control scheduler).due task +
        (match segment with
          | .suspend _ pc => if coroutine.task = task ∧ points pc then 1 else 0
          | _ => 0) +
        (state.pending.eraseIdx index).countP fun coroutine =>
          decide (coroutine.task = task) && points coroutine.pc := by
  obtain ⟨hDue, -, -, -, hRest⟩ := scheduler.settle_loops index coroutine segment
  unfold State.claims
  rw [hDue, hRest]
  cases segment with
  | suspend after pc =>
      have hSame : after.pending = state.pending := hPending
      simp only [hSame, countP_set hIndex, Bool.and_eq_true, decide_eq_true_eq]
      omega
  | finish after | raise after exc platform =>
      have hSame : after.pending = state.pending := hPending
      simp only [Segment.state, hSame]
      omega

theorem claims_settle_le (hKeeps : KeepsDue scheduler state segment.state)
    {points : PC → Bool} (task : Task) (hIndex : state.pending[index]? = some coroutine)
    (hPoints : ∀ after pc, segment = .suspend after pc → points pc → points coroutine.pc) :
    (scheduler.settle index coroutine segment).claims scheduler points task ≤
      state.claims scheduler points task := by
  rw [scheduler.claims_settle hKeeps.pending points task hIndex, hKeeps.due]
  unfold State.claims
  rw [countP_split hIndex]
  simp only [Bool.and_eq_true, decide_eq_true_eq]
  cases segment with
  | suspend after pc =>
      simp only
      by_cases hOwn : coroutine.task = task ∧ points pc
      · rw [if_pos hOwn, if_pos ⟨hOwn.1, hPoints after pc rfl hOwn.2⟩]
        omega
      · rw [if_neg hOwn]
        omega
  | finish after | raise after exc platform =>
      simp only
      omega

end DSLScheduler

/-! ## The invariant -/

/-- `self.loop_indices[(start_ref, stream)]`. -/
def State.loopIndex (state : State) (region : LoopRegion) (stream : StreamID) : Nat :=
  state.loopIndices.getD (region.startRef, stream) 0

/-- The iteration index counts the passes of the current entry: those before
the running one, or all of them when the loop has been restarted. -/
def PassesCounted (index : Nat) (entries : List (List TaskResult)) : LoopPhase → Prop
  | .outside => index = 0
  | .inside => ∃ current rest, entries = current :: rest ∧ current.length = index + 1
  | .again => ∃ current rest, entries = current :: rest ∧ current.length = index

/-- The invariant of a loop in a stream. -/
structure LoopTracked (scheduler : DSLScheduler) (region : LoopRegion) (stream : StreamID)
    (state : State) : Prop where
  starts : state.claims scheduler PC.isEarly ⟨region.startRef, stream⟩ ≤ 1
  idle : scheduler.loopPhase region stream (scheduler.loopEvents state) = .inside →
    state.claims scheduler PC.isEarly ⟨region.startRef, stream⟩ = 0
  ends : state.claims scheduler (fun _ => true) ⟨region.endRef, stream⟩ ≤ 1
  counted : PassesCounted (state.loopIndex region stream)
    (scheduler.loopEntries region stream (scheduler.loopEvents state))
    (scheduler.loopPhase region stream (scheduler.loopEvents state))
  captured : ∀ coroutine ∈ state.pending, coroutine.task = ⟨region.endRef, stream⟩ →
    ∀ index, coroutine.pc.captured? = some index → index = state.loopIndex region stream
  alive : scheduler.loopPhase region stream (scheduler.loopEvents state) ≠ .outside →
    (state.streams.lookup stream).isSome
  capped : state.loopIndex region stream = 0 ∨ ∃ stmt args,
    scheduler.dsl.stmt? region.endRef = some stmt ∧
      DSLScheduler.loopEndArgs stmt = .ok args ∧
      (state.loopIndex region stream : Int) < args.maxIterations
  law : scheduler.LoopLaw region stream (scheduler.loopEvents state)

namespace LoopTracked

variable {scheduler : DSLScheduler} {region : LoopRegion} {stream : StreamID}
  {state next : State}

theorem congr (hTracked : LoopTracked scheduler region stream state)
    (hStarts : next.claims scheduler PC.isEarly ⟨region.startRef, stream⟩ ≤
      state.claims scheduler PC.isEarly ⟨region.startRef, stream⟩)
    (hEnds : next.claims scheduler (fun _ => true) ⟨region.endRef, stream⟩ ≤
      state.claims scheduler (fun _ => true) ⟨region.endRef, stream⟩)
    (hPhase : scheduler.loopPhase region stream (scheduler.loopEvents next) =
      scheduler.loopPhase region stream (scheduler.loopEvents state))
    (hEntries : scheduler.loopEntries region stream (scheduler.loopEvents next) =
      scheduler.loopEntries region stream (scheduler.loopEvents state))
    (hIndex : next.loopIndex region stream = state.loopIndex region stream)
    (hAlive : (state.streams.lookup stream).isSome → (next.streams.lookup stream).isSome)
    (hCaptured : ∀ coroutine ∈ next.pending, coroutine.task = ⟨region.endRef, stream⟩ →
      ∀ index, coroutine.pc.captured? = some index → index = state.loopIndex region stream) :
    LoopTracked scheduler region stream next where
  starts := hStarts.trans hTracked.starts
  idle hInside := Nat.le_zero.mp (hStarts.trans (hTracked.idle (hPhase ▸ hInside)).le)
  ends := hEnds.trans hTracked.ends
  counted := by
    rw [hIndex, hEntries, hPhase]
    exact hTracked.counted
  captured coroutine hMem hTask index hPoint :=
    (hCaptured coroutine hMem hTask index hPoint).trans hIndex.symm
  alive hSome := hAlive (hTracked.alive (hPhase ▸ hSome))
  capped := by
    rw [hIndex]
    exact hTracked.capped
  law := by
    refine ⟨?_, ?_⟩
    · rw [hEntries]
      exact hTracked.law.consecutive
    · rw [hEntries]
      exact hTracked.law.bounded

theorem left (hTracked : LoopTracked scheduler region stream state)
    (hStarts : next.claims scheduler PC.isEarly ⟨region.startRef, stream⟩ ≤ 1)
    (hEnds : next.claims scheduler (fun _ => true) ⟨region.endRef, stream⟩ ≤ 1)
    (hPhase : scheduler.loopPhase region stream (scheduler.loopEvents next) = .outside)
    (hEntries : scheduler.loopEntries region stream (scheduler.loopEvents next) =
      scheduler.loopEntries region stream (scheduler.loopEvents state))
    (hIndex : next.loopIndex region stream = 0)
    (hNone : ∀ coroutine ∈ next.pending, coroutine.task ≠ ⟨region.endRef, stream⟩) :
    LoopTracked scheduler region stream next where
  starts := hStarts
  idle hInside := by
    rw [hPhase] at hInside
    cases hInside
  ends := hEnds
  counted := by
    rw [hPhase]
    exact hIndex
  captured coroutine hMem hTask := absurd hTask (hNone coroutine hMem)
  alive hSome := absurd hPhase hSome
  capped := Or.inl hIndex
  law := by
    refine ⟨?_, ?_⟩
    · rw [hEntries]
      exact hTracked.law.consecutive
    · rw [hEntries]
      exact hTracked.law.bounded

end LoopTracked

/-! ## What the loop events do -/

namespace DSLScheduler

variable {scheduler : DSLScheduler} {region : LoopRegion} {stream : StreamID}

theorem loopPhase_cons (entry : LogEntry) (older : List LogEntry) :
    scheduler.loopPhase region stream (entry :: older) =
      scheduler.nextPhase region stream entry (scheduler.loopPhase region stream older) := rfl

variable (scheduler region stream) in
/-- The reports of a loop end begin no pass; those of the end of the loop in the
stream leave it, and others do not concern it. -/
theorem loopPhase_reports {task : Task} {added : List LogEntry} (older : List LogEntry)
    (hOwn : ∀ entry ∈ added, entry = .succeeded task ∨ entry = .skipping task) :
    scheduler.loopEntries region stream (added ++ older) =
        scheduler.loopEntries region stream older ∧
      scheduler.loopPhase region stream (added ++ older) =
        if task = ⟨region.endRef, stream⟩ ∧ added ≠ [] then .outside
        else scheduler.loopPhase region stream older := by
  induction added with
  | nil => simp
  | cons entry rest ih =>
      obtain ⟨hEntries, hPhase⟩ := ih fun other hOther => hOwn other (List.mem_cons_of_mem _ hOther)
      rw [List.cons_append, loopPhase_cons, hPhase]
      rcases hOwn entry List.mem_cons_self with rfl | rfl
      all_goals
        refine ⟨hEntries, ?_⟩
        by_cases hTask : task = ⟨region.endRef, stream⟩
        · simp [nextPhase, hTask]
        · simp [nextPhase, hTask]

variable (scheduler region stream) in
/-- A pass of another loop, or in another stream, does not concern the loop. -/
theorem loopPhase_other_pass {task : Task} (result : TaskResult) (older : List LogEntry)
    (hTask : task ≠ ⟨region.startRef, stream⟩) :
    scheduler.loopEntries region stream (.wrote task task.stream task.ref result :: older) =
        scheduler.loopEntries region stream older ∧
      scheduler.loopPhase region stream (.wrote task task.stream task.ref result :: older) =
        scheduler.loopPhase region stream older := by
  have hNot : ¬ (task.stream = stream ∧ task.ref = region.startRef) := by
    rintro ⟨rfl, hRef⟩
    obtain ⟨ref, own⟩ := task
    exact hTask (by rw [← hRef])
  constructor
  · rw [loopEntries]
    simp [LogEntry.pass?, hNot]
  · rw [loopPhase_cons]
    simp [nextPhase, hNot]

theorem args_of_loopEndArgs {stmt : ActionStatement} {args : LoopEndArgs}
    (hArgs : loopEndArgs stmt = .ok args) : stmt.args = .loopEnd args := by
  unfold loopEndArgs at hArgs
  split at hArgs
  · rename_i found hFound
    split at hArgs
    · cases hArgs
    · split at hArgs
      · cases hArgs
      · cases hArgs
        exact hFound
  · cases hArgs

/-- A pass that begins outside the loop, or on behalf of the loop end, is given
the next index. -/
theorem loopLaw_pass {older : List LogEntry} {index : Nat} (writer : Task)
    (hCounted : PassesCounted index (scheduler.loopEntries region stream older)
      (scheduler.loopPhase region stream older))
    (hPhase : scheduler.loopPhase region stream older ≠ .inside)
    (hLaw : scheduler.LoopLaw region stream older)
    (hCap : ∀ stmt args, scheduler.dsl.stmt? region.endRef = some stmt →
      stmt.args = .loopEnd args → (index : Int) < args.maxIterations) :
    ∃ current rest, scheduler.loopEntries region stream
        (.wrote writer stream region.startRef (iterationResult index) :: older) =
          current :: rest ∧ current.length = index + 1 ∧
      scheduler.LoopLaw region stream
        (.wrote writer stream region.startRef (iterationResult index) :: older) := by
  have hPass : (LogEntry.wrote writer stream region.startRef
      (iterationResult index)).pass? region stream = some (iterationResult index) := by
    simp [LogEntry.pass?]
  -- the entry that the pass belongs to, and the older entries
  have hSplit : ∃ current rest, scheduler.loopEntries region stream
      (.wrote writer stream region.startRef (iterationResult index) :: older) =
        (current ++ [iterationResult index]) :: rest ∧ current.length = index ∧
      current = (List.range index).map iterationResult ∧
      ∀ entry ∈ rest, entry ∈ scheduler.loopEntries region stream older := by
    rw [loopEntries, hPass]
    cases hCase : scheduler.loopPhase region stream older with
    | inside => exact absurd hCase hPhase
    | outside =>
        rw [hCase] at hCounted
        obtain rfl : index = 0 := hCounted
        exact ⟨[], _, rfl, rfl, rfl, fun _ h => h⟩
    | again =>
        rw [hCase] at hCounted
        obtain ⟨current, rest, hEntries, hLength⟩ := hCounted
        have hCurrent := hLaw.consecutive current (by simp [hEntries])
        refine ⟨current, rest, ?_, hLength, ?_, fun entry hEntry => ?_⟩
        · rw [hEntries]
        · rwa [hLength] at hCurrent
        · rw [hEntries]
          exact List.mem_cons_of_mem _ hEntry
  obtain ⟨current, rest, hEntries, hLength, hRange, hRest⟩ := hSplit
  refine ⟨_, rest, hEntries, by simp [hLength], ?_, ?_⟩
  · rw [hEntries]
    intro entry hEntry
    rcases List.mem_cons.mp hEntry with rfl | hOld
    · rw [List.length_append, hLength, List.length_singleton, List.range_succ, List.map_append,
        ← hRange]
      rfl
    · exact hLaw.consecutive entry (hRest entry hOld)
  · rw [hEntries]
    intro entry hEntry stmt args hStmt hArgs
    rcases List.mem_cons.mp hEntry with rfl | hOld
    · have hLess := hCap stmt args hStmt hArgs
      rw [List.length_append, hLength, List.length_singleton]
      push_cast
      omega
    · exact hLaw.bounded entry (hRest entry hOld) stmt args hStmt hArgs

end DSLScheduler

/-! ## The steps -/

namespace LoopTracked

variable {scheduler : DSLScheduler} {region : LoopRegion} {stream : StreamID}
  {startStmt endStmt : ActionStatement} {state next : State} {index : Nat}
  {coroutine : Coroutine} {stmt : ActionStatement}

variable (hTracked : LoopTracked scheduler region stream state)
include hTracked

/-- A spawn turns a queued task into a coroutine. -/
theorem spawn (hStep : scheduler.step state .spawn = some next) :
    LoopTracked scheduler region stream next := by
  obtain ⟨head, rest, hQueue, -, -, rfl⟩ := DSLScheduler.step_spawn_eq_some hStep
  have hClaims (points : PC → Bool) (hPoint : points .start = true) (task : Task) :=
    State.claims_spawn scheduler hQueue points hPoint task
  refine hTracked.congr (hClaims _ rfl _).le (hClaims _ rfl _).le rfl rfl rfl (fun h => h)
    fun other hMem hTask index hPoint => ?_
  rcases List.mem_append.mp hMem with hOld | hNew
  · exact hTracked.captured other hOld hTask index hPoint
  · rw [List.mem_singleton.mp hNew] at hPoint
    cases hPoint

/-- A segment that leaves the loop events and the iteration index alone. -/
theorem unnoticed (hIndex : state.pending[index]? = some coroutine) {segment : Segment}
    (hKeeps : KeepsDue scheduler state segment.state)
    (hEarly : ∀ after pc, segment = .suspend after pc → pc.isEarly → coroutine.pc.isEarly)
    (hPhase : scheduler.loopPhase region stream (scheduler.loopEvents segment.state) =
      scheduler.loopPhase region stream (scheduler.loopEvents state))
    (hEntries : scheduler.loopEntries region stream (scheduler.loopEvents segment.state) =
      scheduler.loopEntries region stream (scheduler.loopEvents state))
    (hSame : segment.state.loopIndex region stream = state.loopIndex region stream)
    (hCaptured : ∀ after pc, segment = .suspend after pc →
      coroutine.task = ⟨region.endRef, stream⟩ → ∀ captured, pc.captured? = some captured →
      captured = state.loopIndex region stream) :
    LoopTracked scheduler region stream (scheduler.settle index coroutine segment) := by
  obtain ⟨-, hIndices, hEvents, hStreams, hPending⟩ :=
    scheduler.settle_loops index coroutine segment
  refine hTracked.congr (scheduler.claims_settle_le hKeeps _ hIndex hEarly)
    (scheduler.claims_settle_le hKeeps _ hIndex fun _ _ _ _ => rfl)
    (by rw [hEvents, hPhase]) (by rw [hEvents, hEntries]) ?_ ?_ ?_
  · unfold State.loopIndex at hSame ⊢
    rw [hIndices, hSame]
  · rw [hStreams]
    exact hKeeps.alive stream
  · intro other hMem hTask captured hPoint
    rw [hPending] at hMem
    cases segment with
    | suspend after pc =>
        have hKept : after.pending = state.pending := hKeeps.pending
        simp only [hKept] at hMem
        rcases List.mem_or_eq_of_mem_set hMem with hOld | rfl
        · exact hTracked.captured other hOld hTask captured hPoint
        · exact hCaptured after pc rfl hTask captured hPoint
    | finish after | raise after exc platform =>
        have hKept : after.pending = state.pending := hKeeps.pending
        simp only [Segment.state, hKept] at hMem
        exact hTracked.captured other (List.mem_of_mem_eraseIdx hMem) hTask captured hPoint

/-- While the end of the loop runs in the stream, nothing else of it is due or
running there. -/
theorem end_alone (hIndex : state.pending[index]? = some coroutine)
    (hTask : coroutine.task = ⟨region.endRef, stream⟩) :
    (state.control scheduler).due ⟨region.endRef, stream⟩ = 0 ∧
      ∀ other ∈ state.pending.eraseIdx index, other.task ≠ ⟨region.endRef, stream⟩ := by
  have hEnds := hTracked.ends
  unfold State.claims at hEnds
  rw [countP_split hIndex] at hEnds
  simp only [hTask, decide_true, Bool.and_self, if_true, Bool.and_true] at hEnds
  have hNone : (state.pending.eraseIdx index).countP
      (fun coroutine => decide (coroutine.task = ⟨region.endRef, stream⟩)) = 0 := by
    omega
  refine ⟨by omega, fun other hMem hOther => ?_⟩
  have hNot := List.countP_eq_zero.mp hNone other hMem
  exact hNot (by simpa using hOther)

theorem end_leaves (hIndex : state.pending[index]? = some coroutine)
    (hTask : coroutine.task = ⟨region.endRef, stream⟩) {segment : Segment}
    (hEnds : ∀ after pc, segment ≠ .suspend after pc)
    (hKeeps : KeepsDue scheduler state segment.state)
    (hPhase : scheduler.loopPhase region stream (scheduler.loopEvents segment.state) = .outside)
    (hEntries : scheduler.loopEntries region stream (scheduler.loopEvents segment.state) =
      scheduler.loopEntries region stream (scheduler.loopEvents state))
    (hZero : segment.state.loopIndex region stream = 0) :
    LoopTracked scheduler region stream (scheduler.settle index coroutine segment) := by
  obtain ⟨-, hIndices, hEvents, hStreams, hPending⟩ :=
    scheduler.settle_loops index coroutine segment
  have hNever (points : PC → Bool) (after : State) (pc : PC)
      (hSegment : segment = .suspend after pc) : points pc → points coroutine.pc :=
    absurd hSegment (hEnds after pc)
  refine hTracked.left
    ((scheduler.claims_settle_le hKeeps _ hIndex (hNever _)).trans hTracked.starts)
    ((scheduler.claims_settle_le hKeeps _ hIndex (hNever _)).trans hTracked.ends)
    (by rw [hEvents, hPhase]) (by rw [hEvents, hEntries]) ?_ fun other hMem => ?_
  · unfold State.loopIndex at hZero ⊢
    rw [hIndices, hZero]
  · refine (hTracked.end_alone hIndex hTask).2 other ?_
    rw [hPending] at hMem
    cases segment with
    | suspend after pc => exact absurd rfl (hEnds after pc)
    | finish after | raise after exc platform =>
        have hKept : after.pending = state.pending := hKeeps.pending
        simpa only [Segment.state, hKept] using hMem

theorem index_lt
    (hBounds : ∀ stmt args, scheduler.dsl.stmt? region.endRef = some stmt →
      stmt.args = .loopEnd args → 1 ≤ args.maxIterations) (stmt : ActionStatement)
    (args : LoopEndArgs) (hStmt : scheduler.dsl.stmt? region.endRef = some stmt)
    (hArgs : stmt.args = .loopEnd args) :
    (state.loopIndex region stream : Int) < args.maxIterations := by
  rcases hTracked.capped with hZero | ⟨found, capArgs, hFound, hCapArgs, hLess⟩
  · have hOne := hBounds stmt args hStmt hArgs
    rw [hZero]
    push_cast
    omega
  · rw [hStmt] at hFound
    cases hFound
    have hSame := DSLScheduler.args_of_loopEndArgs hCapArgs
    rw [hArgs] at hSame
    cases hSame
    exact hLess

theorem start_begins
    (hBounds : ∀ stmt args, scheduler.dsl.stmt? region.endRef = some stmt →
      stmt.args = .loopEnd args → 1 ≤ args.maxIterations)
    (hIndex : state.pending[index]? = some coroutine) (hEarly : coroutine.pc.isEarly)
    (hTask : coroutine.task = ⟨region.startRef, stream⟩) {after : State}
    (hBegins : Begins scheduler coroutine.task state after) :
    LoopTracked scheduler region stream
      (scheduler.settle index coroutine (.suspend after .loopStartExec)) := by
  obtain ⟨-, hIndices, hEvents, hStreams, hPending⟩ :=
    scheduler.settle_loops index coroutine (.suspend after .loopStartExec)
  have hKeeps := hBegins.toKeepsDue
  -- the coroutine is the only claim of the loop start, so no pass is running
  have hOnly : (state.control scheduler).due ⟨region.startRef, stream⟩ = 0 ∧
      ((state.pending.eraseIdx index).countP fun coroutine =>
        decide (coroutine.task = ⟨region.startRef, stream⟩) && coroutine.pc.isEarly) = 0 ∧
      state.claims scheduler PC.isEarly ⟨region.startRef, stream⟩ ≠ 0 := by
    have hStarts := hTracked.starts
    unfold State.claims at hStarts ⊢
    rw [countP_split hIndex] at hStarts ⊢
    simp only [hTask, hEarly, decide_true, Bool.and_self, if_true] at hStarts ⊢
    omega
  have hNext : (scheduler.settle index coroutine (.suspend after .loopStartExec)).claims
      scheduler PC.isEarly ⟨region.startRef, stream⟩ = 0 := by
    have hKept : (Segment.suspend after .loopStartExec).state.pending = state.pending :=
      hKeeps.pending
    have hDue : (after.control scheduler).due ⟨region.startRef, stream⟩ = 0 :=
      (hKeeps.due _).trans hOnly.1
    rw [scheduler.claims_settle hKept _ _ hIndex, hOnly.2.1]
    simp [Segment.state, hDue, PC.isEarly]
  have hResult : scheduler.loopEvents (scheduler.settle index coroutine
      (.suspend after .loopStartExec)) =
        .wrote coroutine.task stream region.startRef
          (iterationResult (state.loopIndex region stream)) :: scheduler.loopEvents state := by
    rw [hEvents]
    have hAdded := hBegins.events
    rw [hTask] at hAdded
    rw [hTask]
    exact hAdded
  have hSame : (scheduler.settle index coroutine (.suspend after .loopStartExec)).loopIndex
      region stream = state.loopIndex region stream := by
    have hKept : (Segment.suspend after .loopStartExec).state.loopIndices = state.loopIndices :=
      hBegins.indices
    unfold State.loopIndex
    rw [hIndices, hKept]
  have hIdle : scheduler.loopPhase region stream (scheduler.loopEvents state) ≠ .inside :=
    fun hInside => hOnly.2.2 (hTracked.idle hInside)
  obtain ⟨current, rest, hEntries, hLength, hLaw⟩ := DSLScheduler.loopLaw_pass
    coroutine.task hTracked.counted hIdle hTracked.law (hTracked.index_lt hBounds)
  have hPhase : scheduler.loopPhase region stream (scheduler.loopEvents
      (scheduler.settle index coroutine (.suspend after .loopStartExec))) = .inside := by
    rw [hResult, DSLScheduler.loopPhase_cons]
    simp [DSLScheduler.nextPhase]
  refine ⟨by omega, fun _ => hNext, ?_, ?_, ?_, fun _ => ?_, ?_, by rwa [hResult]⟩
  · exact (scheduler.claims_settle_le hKeeps _ hIndex fun _ _ _ _ => rfl).trans hTracked.ends
  · rw [hSame, hPhase, hResult]
    exact ⟨current, rest, hEntries, hLength⟩
  · intro other hMem hOther captured hPoint
    rw [hSame]
    rw [hPending] at hMem
    have hKept : after.pending = state.pending := hKeeps.pending
    simp only [hKept] at hMem
    rcases List.mem_or_eq_of_mem_set hMem with hOld | rfl
    · exact hTracked.captured other hOld hOther captured hPoint
    · cases hPoint
  · rw [hStreams]
    rw [hTask] at hBegins
    exact hBegins.live
  · rw [hSame]
    exact hTracked.capped

end LoopTracked

/-! ## Restarts -/

/-- Neither the start nor the end of the loop is queued or running in the
stream. -/
structure State.LoopIdle (state : State) (region : LoopRegion) (stream : StreamID) : Prop where
  queue : ∀ queued ∈ state.queue,
    queued.task ≠ ⟨region.startRef, stream⟩ ∧ queued.task ≠ ⟨region.endRef, stream⟩
  pending : ∀ coroutine ∈ state.pending,
    coroutine.task ≠ ⟨region.startRef, stream⟩ ∧ coroutine.task ≠ ⟨region.endRef, stream⟩

/-- A restart of `outer` in `base` is clean: the loop is running there, the
loops that the restart clears are idle, and in the streams that it removes no
loop is running that does not lie in the restarted one. -/
structure CleanRestart (scheduler : DSLScheduler) (state : State) (outer : LoopRegion)
    (base : StreamID) : Prop where
  running : scheduler.loopPhase outer base state.log = .inside
  idle : ∀ region stream, scheduler.loopRegions.lookup region.startRef = some region →
    (region.startRef, stream) ≠ (outer.startRef, base) →
    (region.startRef ∈ outer.members ∧ base.within stream) ∨
      stream ∈ state.removedStreams outer base → state.LoopIdle region stream
  left : ∀ region stream, scheduler.loopRegions.lookup region.startRef = some region →
    region.startRef ∉ outer.members → stream ∈ state.removedStreams outer base →
      scheduler.loopPhase region stream state.log = .outside

namespace DSLScheduler

variable (scheduler : DSLScheduler) (state : State) (outer : LoopRegion) (base : StreamID)
  (nextIndex : Nat)

theorem due_restart (task : Task) :
    ((scheduler.restart state outer base nextIndex).control scheduler).due task =
      state.queue.countP (fun queued => queued.task = task) +
        (if (⟨outer.startRef, base⟩ : Task) = task then 1 else 0) +
        if 0 < ((state.control scheduler).reset scheduler outer base
          (state.removedStreams outer base)).indegree task then 1 else 0 := by
  have hControl := scheduler.control_resetLoopIterationState state outer base
  have hQueue : (scheduler.resetLoopIterationState state outer base).queue = state.queue :=
    congrArg Control.queue hControl
  have hDegree : (scheduler.restart state outer base nextIndex).indegree scheduler task =
      ((state.control scheduler).reset scheduler outer base
        (state.removedStreams outer base)).indegree task :=
    congrFun (congrArg Control.indegree hControl) task
  have hAdded : (scheduler.restart state outer base nextIndex).queue =
      state.queue ++ [⟨⟨outer.startRef, base⟩, 0⟩] := by
    rw [← hQueue]
    rfl
  rw [State.control_due, hDegree, hAdded, List.countP_append, List.countP_singleton]
  simp only [decide_eq_true_eq]

theorem pending_restart :
    (scheduler.restart state outer base nextIndex).pending = state.pending :=
  congrArg Control.pending (scheduler.control_resetLoopIterationState state outer base)

theorem loopEvents_restart :
    scheduler.loopEvents (scheduler.restart state outer base nextIndex) =
      .reset outer.startRef base :: scheduler.loopEvents state := by
  have hCleanup : scheduler.loopEvents (state.cleanupLoopDescendantStreams outer base) =
      scheduler.loopEvents state := by
    unfold State.cleanupLoopDescendantStreams
    split
    · rfl
    · exact List.filter_cons_of_neg (by simp [isLoopEvent])
  rw [← hCleanup]
  exact List.filter_cons_of_pos rfl

theorem loopEvents_settle_restart (index : Nat) (coroutine : Coroutine) :
    scheduler.loopEvents (scheduler.settle index coroutine
      (.finish (scheduler.restart state outer base nextIndex))) =
        .reset outer.startRef base :: scheduler.loopEvents state :=
  (scheduler.settle_loops index coroutine _).2.2.1.trans
    (scheduler.loopEvents_restart state outer base nextIndex)

theorem streams_restart (stream : StreamID) :
    (scheduler.restart state outer base nextIndex).streams.lookup stream =
      if stream ∈ state.removedStreams outer base then none
      else state.streams.lookup stream := by
  show (state.cleanupLoopDescendantStreams outer base).streams.lookup stream = _
  unfold State.cleanupLoopDescendantStreams State.removedStreams
  split
  · simp
  · simp only [Dict.lookup_filterKeys]
    by_cases hRemoved : stream ∈ state.streamsToRemove outer base <;> simp [hRemoved]

theorem loopIndex_restart (region : LoopRegion) (stream : StreamID) :
    (scheduler.restart state outer base nextIndex).loopIndex region stream =
      if (region.startRef, stream) = (outer.startRef, base) then nextIndex
      else if region.startRef ∈ outer.members ∧ base.within stream then 0
      else state.loopIndex region stream := by
  have hCleanup : (state.cleanupLoopDescendantStreams outer base).loopIndices =
      state.loopIndices := by
    unfold State.cleanupLoopDescendantStreams
    split <;> rfl
  unfold State.loopIndex restart resetLoopIterationState
  simp only
  rw [Dict.getD_insert, hCleanup]
  split
  · rfl
  · unfold Dict.getD
    rw [Dict.lookup_filterKeys]
    by_cases hInside : region.startRef ∈ outer.members ∧ base.within stream
    · simp [hInside]
    · rw [if_neg hInside, if_pos]
      rcases not_and_or.mp hInside with hOutside | hOutside <;> simp [hOutside]

end DSLScheduler

namespace LoopTracked

variable {scheduler : DSLScheduler} {outer region : LoopRegion} {base stream : StreamID}
  {startStmt endStmt outerStart outerEnd : ActionStatement} {state : State} {index nextIndex : Nat}
  {coroutine : Coroutine}

theorem claims_restart (hIndex : state.pending[index]? = some coroutine) (points : PC → Bool)
    (task : Task) :
    (scheduler.settle index coroutine
        (.finish (scheduler.restart state outer base nextIndex))).claims scheduler points task =
      state.queue.countP (fun queued => queued.task = task) +
        (if (⟨outer.startRef, base⟩ : Task) = task then 1 else 0) +
        (if 0 < ((state.control scheduler).reset scheduler outer base
          (state.removedStreams outer base)).indegree task then 1 else 0) +
        (state.pending.eraseIdx index).countP fun coroutine =>
          decide (coroutine.task = task) && points coroutine.pc := by
  have hPending : (Segment.finish (scheduler.restart state outer base nextIndex)).state.pending =
      state.pending := scheduler.pending_restart state outer base nextIndex
  rw [scheduler.claims_settle hPending points task hIndex]
  simp only [Segment.state, Nat.add_zero]
  rw [scheduler.due_restart]

/-- The loop that is restarted goes on with the next index. -/
theorem restarted (hTracked : LoopTracked scheduler outer base state)
    (hRegion : scheduler.HasRegion outer outerStart outerEnd) (hBuilt : scheduler.Built)
    (hLinked : state.tables.Linked)
    (hIndex : state.pending[index]? = some coroutine)
    (hTask : coroutine.task = ⟨outer.endRef, base⟩) {current : Nat}
    (hPc : coroutine.pc.captured? = some current) {args : LoopEndArgs}
    (hArgs : DSLScheduler.loopEndArgs outerEnd = .ok args)
    (hBound : ((current + 1 : Nat) : Int) < args.maxIterations)
    (hInside : scheduler.loopPhase outer base (scheduler.loopEvents state) = .inside) :
    LoopTracked scheduler outer base (scheduler.settle index coroutine
      (.finish (scheduler.restart state outer base (current + 1)))) := by
  obtain ⟨-, hIndices, -, hStreams, hPending⟩ := scheduler.settle_loops index coroutine
    (.finish (scheduler.restart state outer base (current + 1)))
  have hNone := hTracked.idle hInside
  obtain ⟨hEndDue, hEndAlone⟩ := hTracked.end_alone hIndex hTask
  have hCurrent := hTracked.captured coroutine (List.mem_of_getElem? hIndex) hTask current hPc
  have hNext : (scheduler.settle index coroutine
      (.finish (scheduler.restart state outer base (current + 1)))).loopIndex outer base =
        current + 1 := by
    unfold State.loopIndex
    rw [hIndices]
    have hRestart := scheduler.loopIndex_restart state outer base (current + 1) outer base
    rw [if_pos rfl] at hRestart
    exact hRestart
  have hEvents := scheduler.loopEvents_settle_restart state outer base (current + 1) index coroutine
  have hPhase : scheduler.loopPhase outer base (scheduler.loopEvents
      (scheduler.settle index coroutine
        (.finish (scheduler.restart state outer base (current + 1))))) = .again := by
    rw [hEvents, DSLScheduler.loopPhase_cons]
    simp [DSLScheduler.nextPhase]
  have hEntries : scheduler.loopEntries outer base (scheduler.loopEvents
      (scheduler.settle index coroutine
        (.finish (scheduler.restart state outer base (current + 1))))) =
      scheduler.loopEntries outer base (scheduler.loopEvents state) := by
    rw [hEvents]
    rfl
  have hCounted := hTracked.counted
  rw [hInside] at hCounted
  obtain ⟨entry, rest, hEntry, hLength⟩ := hCounted
  refine ⟨?_, fun hPhase' => ?_, ?_, ?_, ?_, fun _ => ?_, ?_, ?_⟩
  · -- the restart queues the loop start, and its own counter is used up
    have hZero : ((state.control scheduler).reset scheduler outer base
        (state.removedStreams outer base)).indegree ⟨outer.startRef, base⟩ = 0 := by
      have hMember := hRegion.start_mem_members hBuilt
      simp [Control.reset, hMember, hRegion.start_stmt, hRegion.internalDeps_start hBuilt]
    unfold State.claims at hNone
    rw [State.control_due, countP_split hIndex] at hNone
    rw [claims_restart hIndex, hZero]
    simp only [lt_self_iff_false, if_false, if_true]
    omega
  · rw [hPhase] at hPhase'
    cases hPhase'
  · have hRest : (state.pending.eraseIdx index).countP (fun coroutine =>
        decide (coroutine.task = ⟨outer.endRef, base⟩) && true) = 0 :=
      List.countP_eq_zero.mpr fun other hMem => by simp [hEndAlone other hMem]
    have hNot : (⟨outer.startRef, base⟩ : Task) ≠ ⟨outer.endRef, base⟩ := fun hEq =>
      hRegion.endRef_ne hRegion (congrArg Task.ref hEq).symm
    rw [State.control_due] at hEndDue
    rw [claims_restart hIndex, hRest, if_neg hNot]
    split <;> omega
  · rw [hNext, hEntries, hPhase]
    exact ⟨entry, rest, hEntry, by omega⟩
  · intro other hMem hOther
    rw [hPending] at hMem
    have hKept := scheduler.pending_restart state outer base (current + 1)
    simp only [Segment.state, hKept] at hMem
    exact absurd hOther (hEndAlone other hMem)
  · have hAlive := hTracked.alive (by simp [hInside])
    have hStays : base ∉ state.removedStreams outer base := fun hRemoved =>
      (State.below_of_removed hLinked scheduler hRemoved).2 rfl
    rw [hStreams]
    have hLookup := scheduler.streams_restart state outer base (current + 1) base
    rw [if_neg hStays] at hLookup
    simpa only [Segment.state, hLookup] using hAlive
  · refine Or.inr ⟨outerEnd, args, hRegion.end_stmt, hArgs, ?_⟩
    rw [hNext]
    exact hBound
  · refine ⟨?_, ?_⟩
    · rw [hEntries]
      exact hTracked.law.consecutive
    · rw [hEntries]
      exact hTracked.law.bounded

theorem cleared (hTracked : LoopTracked scheduler region stream state)
    (hOuter : scheduler.HasRegion outer outerStart outerEnd)
    (hLinked : state.tables.Linked)
    (hIndex : state.pending[index]? = some coroutine)
    (hOther : (region.startRef, stream) ≠ (outer.startRef, base))
    (hIdle : state.LoopIdle region stream)
    (hClears : (region.startRef ∈ outer.members ∧ base.within stream) ∨
      stream ∈ state.removedStreams outer base)
    (hLeft : region.startRef ∉ outer.members → stream ∈ state.removedStreams outer base →
      scheduler.loopPhase region stream (scheduler.loopEvents state) = .outside)
    (hRefs : region.endRef ≠ outer.startRef) :
    LoopTracked scheduler region stream (scheduler.settle index coroutine
      (.finish (scheduler.restart state outer base nextIndex))) := by
  obtain ⟨-, hIndices, -, -, hPending⟩ := scheduler.settle_loops index coroutine
    (.finish (scheduler.restart state outer base nextIndex))
  have hEvents := scheduler.loopEvents_settle_restart state outer base nextIndex index coroutine
  have hKey : ¬ (outer.startRef = region.startRef ∧ base = stream) := by
    rintro ⟨hRef, rfl⟩
    exact hOther (by rw [hRef])
  have hNoClaims (points : PC → Bool) (ref : Ref)
      (hRef : ref = region.startRef ∨ ref = region.endRef) :
      (scheduler.settle index coroutine
        (.finish (scheduler.restart state outer base nextIndex))).claims scheduler points
          ⟨ref, stream⟩ ≤ 1 := by
    have hQueue : state.queue.countP (fun queued => queued.task = ⟨ref, stream⟩) = 0 := by
      refine List.countP_eq_zero.mpr fun queued hMem => ?_
      rcases hRef with rfl | rfl
      · simpa using (hIdle.queue queued hMem).1
      · simpa using (hIdle.queue queued hMem).2
    have hRest : (state.pending.eraseIdx index).countP (fun coroutine =>
        decide (coroutine.task = ⟨ref, stream⟩) && points coroutine.pc) = 0 := by
      refine List.countP_eq_zero.mpr fun other hMem => ?_
      have hPart := hIdle.pending other (List.mem_of_mem_eraseIdx hMem)
      rcases hRef with rfl | rfl
      · simp [hPart.1]
      · simp [hPart.2]
    have hNot : (⟨outer.startRef, base⟩ : Task) ≠ ⟨ref, stream⟩ := by
      intro hEq
      obtain ⟨hStart, hStream⟩ := Task.mk.inj hEq
      rcases hRef with rfl | rfl
      · exact hKey ⟨hStart, hStream⟩
      · exact hRefs hStart.symm
    rw [claims_restart hIndex, hQueue, hRest, if_neg hNot]
    split <;> omega
  -- the loop lies in the restarted one, or it is not running
  have hOutside : scheduler.loopPhase region stream (scheduler.loopEvents
      (scheduler.settle index coroutine
        (.finish (scheduler.restart state outer base nextIndex)))) = .outside ∧
      (scheduler.restart state outer base nextIndex).loopIndex region stream = 0 := by
    rw [hEvents, DSLScheduler.loopPhase_cons, scheduler.loopIndex_restart, if_neg hOther]
    simp only [DSLScheduler.nextPhase, if_neg hKey]
    by_cases hInside : region.startRef ∈ outer.members ∧ base.within stream
    · have hAround : scheduler.restartsAround outer.startRef base region stream = true := by
        simp [DSLScheduler.restartsAround, hOuter.lookup, hInside]
      rw [if_pos hAround, if_pos hInside]
      exact ⟨rfl, rfl⟩
    · have hRemoved := hClears.resolve_left hInside
      have hNot : region.startRef ∉ outer.members := fun hMember =>
        hInside ⟨hMember, (State.below_of_removed hLinked scheduler hRemoved).1⟩
      have hPhase := hLeft hNot hRemoved
      have hCounted := hTracked.counted
      rw [hPhase] at hCounted
      rw [if_neg hInside, hPhase]
      exact ⟨by split <;> rfl, hCounted⟩
  refine hTracked.left (hNoClaims _ _ (Or.inl rfl)) (hNoClaims _ _ (Or.inr rfl)) hOutside.1
    ?_ ?_ fun other hMem => ?_
  · rw [hEvents]
    rfl
  · unfold State.loopIndex
    rw [hIndices]
    exact hOutside.2
  · rw [hPending] at hMem
    have hKept := scheduler.pending_restart state outer base nextIndex
    simp only [Segment.state, hKept] at hMem
    exact (hIdle.pending other (List.mem_of_mem_eraseIdx hMem)).2

/-- A loop that the restart does not clear does not notice it. -/
theorem uncleared (hTracked : LoopTracked scheduler region stream state)
    (hRegion : scheduler.HasRegion region startStmt endStmt)
    (hOuter : scheduler.HasRegion outer outerStart outerEnd) (hBuilt : scheduler.Built)
    (hIndex : state.pending[index]? = some coroutine)
    (hOther : (region.startRef, stream) ≠ (outer.startRef, base))
    (hKept : ¬ ((region.startRef ∈ outer.members ∧ base.within stream) ∨
      stream ∈ state.removedStreams outer base)) :
    LoopTracked scheduler region stream (scheduler.settle index coroutine
      (.finish (scheduler.restart state outer base nextIndex))) := by
  obtain ⟨-, hIndices, -, hStreams, hPending⟩ := scheduler.settle_loops index coroutine
    (.finish (scheduler.restart state outer base nextIndex))
  obtain ⟨hOutside, hStays⟩ := not_or.mp hKept
  have hEvents := scheduler.loopEvents_settle_restart state outer base nextIndex index coroutine
  have hKey : ¬ (outer.startRef = region.startRef ∧ base = stream) := by
    rintro ⟨hRef, rfl⟩
    exact hOther (by rw [hRef])
  have hAround : scheduler.restartsAround outer.startRef base region stream = false := by
    rw [Bool.eq_false_iff]
    simpa [DSLScheduler.restartsAround, hOuter.lookup] using hOutside
  have hClaims (points : PC → Bool) (ref : Ref) (hMember : ref ∈ outer.members →
      region.startRef ∈ outer.members) (hRef : ref = outer.startRef → ref = region.startRef) :
      (scheduler.settle index coroutine
        (.finish (scheduler.restart state outer base nextIndex))).claims scheduler points
          ⟨ref, stream⟩ ≤ state.claims scheduler points ⟨ref, stream⟩ := by
    have hDegree : ((state.control scheduler).reset scheduler outer base
        (state.removedStreams outer base)).indegree ⟨ref, stream⟩ =
          state.indegree scheduler ⟨ref, stream⟩ := by
      have hNot : ¬ (stream = base ∧ ref ∈ outer.members) := by
        rintro ⟨rfl, hIn⟩
        exact hOutside ⟨hMember hIn, StreamID.within_refl _⟩
      simp [Control.reset, hNot, hStays, State.control]
    have hNot : (⟨outer.startRef, base⟩ : Task) ≠ ⟨ref, stream⟩ := by
      intro hEq
      obtain ⟨hStart, hStream⟩ := Task.mk.inj hEq
      exact hKey ⟨hStart.trans (hRef hStart.symm), hStream⟩
    rw [claims_restart hIndex, hDegree, if_neg hNot]
    unfold State.claims
    rw [State.control_due, countP_split hIndex]
    omega
  refine hTracked.congr (hClaims _ _ (fun h => h) fun _ => rfl)
    (hClaims _ _ (hRegion.start_mem_of_end_mem hOuter hBuilt)
      fun hEq => absurd hEq (hRegion.endRef_ne hOuter)) ?_ ?_ ?_ ?_ ?_
  · rw [hEvents, DSLScheduler.loopPhase_cons]
    simp [DSLScheduler.nextPhase, hKey, hAround]
  · rw [hEvents]
    rfl
  · have hSame := scheduler.loopIndex_restart state outer base nextIndex region stream
    rw [if_neg hOther, if_neg hOutside] at hSame
    unfold State.loopIndex at hSame ⊢
    rw [hIndices]
    exact hSame
  · rw [hStreams]
    have hLookup := scheduler.streams_restart state outer base nextIndex stream
    rw [if_neg hStays] at hLookup
    simp only [Segment.state, hLookup]
    exact fun h => h
  · intro other hMem hTask captured hPoint
    rw [hPending] at hMem
    have hSame := scheduler.pending_restart state outer base nextIndex
    simp only [Segment.state, hSame] at hMem
    exact hTracked.captured other (List.mem_of_mem_eraseIdx hMem) hTask captured hPoint

end LoopTracked

end Tracecat
