import Mathlib.Data.List.Perm.Basic
import Tracecat.Scheduler.DagSegments

/-!
# Runs of a plain workflow

The invariant of the runs of a workflow without scatters and loops, as long as
nothing has stopped it.  Every action is where its edges say: it waits for a
pending in-edge, it is queued or running with all its in-edges marked, or it
has ended with the verdict of its equation and has marked its out-edges.
-/

namespace Tracecat

def ActionStatement.rootTask (stmt : ActionStatement) : Task := ⟨stmt.ref, rootStream⟩

section Invariant

variable (scheduler : DSLScheduler) (oracle : Oracle) (control : Control)
  (notes : Task → List Note) (stmt : ActionStatement)

/-- The action waits for an in-edge. -/
structure Control.Waiting : Prop where
  notes_eq : notes stmt.rootTask = []
  deps_ne : control.pendingDeps stmt rootStream ≠ []
  unmarked : control.Unmarked scheduler.dsl stmt.ref rootStream

/-- The action has ended with the verdict of its equation. -/
structure Control.Ended : Prop where
  deps_eq : control.pendingDeps stmt rootStream = []
  ends : (stmt.verdict (control.marking rootStream) oracle).Ends (notes stmt.rootTask)
  caught : (stmt.verdict (control.marking rootStream) oracle).isFailure = true →
    scheduler.hasErrorEdge stmt.ref = true
  marked : ∀ next ∈ scheduler.dsl.adj stmt.ref, control.marking rootStream stmt.ref next =
    scheduler.dsl.outMarker stmt.ref (stmt.verdict (control.marking rootStream) oracle) next.2

/-- The invariant of a run that nothing has stopped. -/
structure Control.DagRun : Prop where
  once : control.active.Nodup
  home : ∀ task ∈ control.active, ∃ stmt ∈ scheduler.dsl.actions, task = stmt.rootTask
  counted : ∀ stmt ∈ scheduler.dsl.actions, control.Counted stmt rootStream
  queued : ∀ delayed ∈ control.queue, notes delayed.task = []
  running : ∀ coroutine ∈ control.pending, ∀ stmt ∈ scheduler.dsl.actions,
    coroutine.task = stmt.rootTask → notes coroutine.task = coroutine.pc.notes ∧
      coroutine.pc.Guards stmt (control.marking rootStream) oracle
  active : ∀ stmt ∈ scheduler.dsl.actions, stmt.rootTask ∈ control.active →
    control.pendingDeps stmt rootStream = [] ∧
      control.Unmarked scheduler.dsl stmt.ref rootStream
  idle : ∀ stmt ∈ scheduler.dsl.actions, stmt.rootTask ∉ control.active →
    control.Waiting scheduler notes stmt ∨ control.Ended scheduler oracle notes stmt

end Invariant

namespace Control

variable {scheduler : DSLScheduler} {oracle : Oracle} {control : Control}
  {notes : Task → List Note} {stmt : ActionStatement}

theorem rootTask_injective {other : ActionStatement}
    (hNodup : (scheduler.dsl.actions.map ActionStatement.ref).Nodup)
    (hStmt : stmt ∈ scheduler.dsl.actions) (hOther : other ∈ scheduler.dsl.actions)
    (hTask : stmt.rootTask = other.rootTask) : stmt = other :=
  List.inj_on_of_nodup_map hNodup hStmt hOther (congrArg Task.ref hTask)

/-! ## An emission and the other actions -/

section Emission

variable {ref : Ref} (delay : Int) (keep : EdgeType → Bool)

theorem emit_marking_of_ne (hRef : stmt.ref ≠ ref) (next : AdjDst) :
    (control.emit scheduler.dsl ref rootStream delay keep).marking rootStream stmt.ref next =
      control.marking rootStream stmt.ref next := by
  simp [Control.marking, Control.emit, hRef]

theorem Unmarked.emit (hRef : stmt.ref ≠ ref)
    (hUnmarked : control.Unmarked scheduler.dsl stmt.ref rootStream) :
    (control.emit scheduler.dsl ref rootStream delay keep).Unmarked scheduler.dsl stmt.ref
      rootStream := by
  intro next hNext
  have hSame : (control.emit scheduler.dsl ref rootStream delay keep).marking rootStream
      stmt.ref next = control.marking rootStream stmt.ref next :=
    emit_marking_of_ne delay keep hRef next
  exact hSame.trans (hUnmarked next hNext)

/-- The in-edges of an action that waits for nothing keep their markers. -/
theorem inMarker_emit (hStmt : stmt ∈ scheduler.dsl.actions)
    (hDeps : control.pendingDeps stmt rootStream = [])
    (hUnmarked : control.Unmarked scheduler.dsl ref rootStream) :
    ∀ dep ∈ stmt.deps, stmt.inMarker (control.marking rootStream) dep =
      stmt.inMarker ((control.emit scheduler.dsl ref rootStream delay keep).marking
        rootStream) dep := by
  intro dep hDep
  have hSource : dep.1 ≠ ref := by
    rintro rfl
    have hPending := hUnmarked (stmt.ref, dep.2) (mem_adj_of_dep hStmt hDep)
    have hMem : dep ∈ control.pendingDeps stmt rootStream :=
      mem_pendingDeps.mpr ⟨hDep, hPending⟩
    simp [hDeps] at hMem
  have hMarker : stmt.inMarker ((control.emit scheduler.dsl ref rootStream delay keep).marking
      rootStream) dep =
      if dep.1 = ref ∧ rootStream = rootStream then if keep dep.2 then .visited else .skipped
      else stmt.inMarker (control.marking rootStream) dep :=
    emit_marker_dep hStmt hDep rootStream
  rw [hMarker, if_neg fun h => hSource h.1]

theorem pendingDeps_emit_eq_nil (hStmt : stmt ∈ scheduler.dsl.actions)
    (hDeps : control.pendingDeps stmt rootStream = []) :
    (control.emit scheduler.dsl ref rootStream delay keep).pendingDeps stmt rootStream =
      [] := by
  rw [emit_pendingDeps hStmt, hDeps]
  rfl

end Emission

/-! ## The steps -/

variable {index : Nat} {coroutine : Coroutine}

/-- The active tasks but the coroutine at an index. -/
def others (control : Control) (index : Nat) : List Task :=
  control.queue.map DelayedTask.task ++ (control.pending.eraseIdx index).map Coroutine.task

theorem active_perm (hPending : control.pending[index]? = some coroutine) :
    control.active.Perm (coroutine.task :: control.others index) := by
  obtain ⟨hLt, hGet⟩ := List.getElem?_eq_some_iff.mp hPending
  have hErase : (control.pending[index] :: control.pending.eraseIdx index).Perm
      control.pending := List.getElem_cons_eraseIdx_perm hLt
  rw [hGet] at hErase
  have hActive := (hErase.symm.map Coroutine.task).append_left
    (control.queue.map DelayedTask.task)
  exact hActive.trans List.perm_middle

/-- The tasks that are active after an action has left: those that its emission
queues, and the others. -/
theorem active_leave_perm (dsl : DSLInput) (control : Control) (index : Nat)
    (coroutine : Coroutine) (ref : Ref) (delay : Int) (keep : EdgeType → Bool) :
    ((control.emit dsl ref rootStream delay keep).settle index coroutine none).active.Perm
      ((control.released dsl ref rootStream).map (⟨·, rootStream⟩) ++ control.others index) := by
  have hActive : ((control.emit dsl ref rootStream delay keep).settle index coroutine
      none).active =
      (control.queue.map DelayedTask.task ++
        (control.released dsl ref rootStream).map (⟨·, rootStream⟩)) ++
          (control.pending.eraseIdx index).map Coroutine.task := by
    simp [active, Control.settle, Control.emit, Function.comp_def]
  rw [hActive, others, ← List.append_assoc]
  exact List.perm_append_comm.append_right _

section Leave

variable {verdict : Verdict} {final : List Note} (delay : Int)

/-- An action that an emission queues was waiting, and waits for nothing more. -/
theorem DagRun.released_waiting (hRun : control.DagRun scheduler oracle notes)
    (hNodup : (scheduler.dsl.actions.map ActionStatement.ref).Nodup)
    (hDistinct : ∀ stmt ∈ scheduler.dsl.actions, stmt.deps.Nodup)
    {ref : Ref} (hUnmarked : control.Unmarked scheduler.dsl ref rootStream)
    {next : ActionStatement} (hNext : next ∈ scheduler.dsl.actions)
    (hReleased : next.ref ∈ control.released scheduler.dsl ref rootStream) :
    next.rootTask ∉ control.active ∧ control.Waiting scheduler notes next := by
  obtain ⟨⟨dep, hDep, rfl⟩, -⟩ := (mem_released_iff 0 (fun _ => false) hNodup hDistinct
    hRun.counted hUnmarked hNext).mp hReleased
  have hMem : dep ∈ control.pendingDeps next rootStream :=
    mem_pendingDeps.mpr ⟨hDep, hUnmarked (next.ref, dep.2) (mem_adj_of_dep hNext hDep)⟩
  have hIdle : next.rootTask ∉ control.active := by
    intro hActive
    simp [(hRun.active next hNext hActive).1] at hMem
  refine ⟨hIdle, (hRun.idle next hNext hIdle).resolve_right fun hEnded => ?_⟩
  simp [hEnded.deps_eq] at hMem

/-- An action that has not left keeps its place when another one leaves: it is
idle as before, or the emission queues it. -/
theorem DagRun.idle_emit (hRun : control.DagRun scheduler oracle notes)
    (hNodup : (scheduler.dsl.actions.map ActionStatement.ref).Nodup)
    (hDistinct : ∀ stmt ∈ scheduler.dsl.actions, stmt.deps.Nodup)
    {ref : Ref} (hUnmarked : control.Unmarked scheduler.dsl ref rootStream)
    (keep : EdgeType → Bool) {other : ActionStatement}
    (hOther : other ∈ scheduler.dsl.actions) (hRef : other.ref ≠ ref)
    (hIdle : other.rootTask ∉ control.active)
    (hReleased : other.ref ∉ control.released scheduler.dsl ref rootStream)
    {after : Task → List Note} (hNotes : after other.rootTask = notes other.rootTask) :
    (control.emit scheduler.dsl ref rootStream delay keep).Waiting scheduler after other ∨
      (control.emit scheduler.dsl ref rootStream delay keep).Ended scheduler oracle after
        other := by
  rcases hRun.idle other hOther hIdle with hWaiting | hEnded
  · refine Or.inl ⟨hNotes.trans hWaiting.notes_eq, fun hNone => ?_,
      hWaiting.unmarked.emit delay keep hRef⟩
    have hNoDep : ¬ ∃ dep ∈ other.deps, dep.1 = ref := fun hDep =>
      hReleased ((mem_released_iff delay keep hNodup hDistinct hRun.counted hUnmarked
        hOther).mpr ⟨hDep, hNone⟩)
    refine hWaiting.deps_ne ?_
    rw [emit_pendingDeps hOther, List.filter_eq_nil_iff] at hNone
    rw [List.eq_nil_iff_forall_not_mem]
    intro dep hDep
    have hSource : dep.1 ≠ ref := fun h => hNoDep ⟨dep, (mem_pendingDeps.mp hDep).1, h⟩
    exact hNone dep hDep (by simpa using hSource)
  · have hAgree := inMarker_emit delay keep hOther hEnded.deps_eq hUnmarked
    have hVerdict := other.verdict_congr oracle hAgree
    refine Or.inr ⟨pendingDeps_emit_eq_nil delay keep hOther hEnded.deps_eq, ?_, ?_, fun next hNext => ?_⟩
    · rw [← hVerdict, hNotes]
      exact hEnded.ends
    · rw [← hVerdict]
      exact hEnded.caught
    · rw [← hVerdict, emit_marking_of_ne delay keep hRef]
      exact hEnded.marked next hNext

theorem ended_emit (hStmt : stmt ∈ scheduler.dsl.actions)
    (hDeps : control.pendingDeps stmt rootStream = [])
    (hUnmarked : control.Unmarked scheduler.dsl stmt.ref rootStream)
    (hVerdict : stmt.verdict (control.marking rootStream) oracle = verdict)
    (hEnds : verdict.Ends final)
    (hCaught : verdict.isFailure = true → scheduler.hasErrorEdge stmt.ref = true)
    {after : Task → List Note} (hNotes : after stmt.rootTask = final) :
    (control.emit scheduler.dsl stmt.ref rootStream delay verdict.visits).Ended scheduler
      oracle after stmt := by
  have hVerdictAfter : stmt.verdict ((control.emit scheduler.dsl stmt.ref rootStream delay
      verdict.visits).marking rootStream) oracle = verdict :=
    (stmt.verdict_congr oracle (inMarker_emit delay verdict.visits hStmt hDeps
      hUnmarked)).symm.trans hVerdict
  refine ⟨pendingDeps_emit_eq_nil delay verdict.visits hStmt hDeps, ?_, ?_,
    fun next hNext => ?_⟩
  · rw [hVerdictAfter, hNotes]
    exact hEnds
  · rw [hVerdictAfter]
    exact hCaught
  · rw [hVerdictAfter]
    have hError : (verdict.isFailure && !scheduler.hasErrorEdge stmt.ref) = false := by
      cases hFailure : verdict.isFailure with
      | false => rfl
      | true => simp [hCaught hFailure]
    unfold DSLScheduler.hasErrorEdge at hError
    simp [Control.marking, Control.emit, DSLInput.outMarker, hNext, hError]

/-- An action leaves: it has its verdict and marks its out-edges. -/
theorem DagRun.leave (hRun : control.DagRun scheduler oracle notes)
    (hNodup : (scheduler.dsl.actions.map ActionStatement.ref).Nodup)
    (hDistinct : ∀ stmt ∈ scheduler.dsl.actions, stmt.deps.Nodup)
    (hPending : control.pending[index]? = some coroutine)
    (hStmt : stmt ∈ scheduler.dsl.actions) (hTask : coroutine.task = stmt.rootTask)
    (hVerdict : stmt.verdict (control.marking rootStream) oracle = verdict)
    (hEnds : verdict.Ends final)
    (hCaught : verdict.isFailure = true → scheduler.hasErrorEdge stmt.ref = true) :
    ((control.emit scheduler.dsl stmt.ref rootStream delay verdict.visits).settle index
      coroutine none).DagRun scheduler oracle (Function.update notes stmt.rootTask final) := by
  have hBefore := active_perm hPending
  have hAfter := active_leave_perm scheduler.dsl control index coroutine stmt.ref delay
    verdict.visits
  rw [hTask] at hBefore
  obtain ⟨hGone, hRest⟩ := List.nodup_cons.mp (hBefore.nodup_iff.mp hRun.once)
  have hActive : stmt.rootTask ∈ control.active := hBefore.mem_iff.mpr List.mem_cons_self
  obtain ⟨hDeps, hUnmarked⟩ := hRun.active stmt hStmt hActive
  have hReleased {next : ActionStatement} (hNext : next ∈ scheduler.dsl.actions) :=
    hRun.released_waiting hNodup hDistinct hUnmarked hNext
  have hKept {task : Task} (hOther : task ∈ control.others index) :
      task ∈ control.active ∧ task ≠ stmt.rootTask :=
    ⟨hBefore.mem_iff.mpr (List.mem_cons_of_mem _ hOther), fun h => hGone (h ▸ hOther)⟩
  have hRefNe {other : ActionStatement} (hTask : other.rootTask ≠ stmt.rootTask) :
      other.ref ≠ stmt.ref := fun h => hTask (by simp [ActionStatement.rootTask, h])
  -- an active task is one of the others, or the emission has queued it
  have hSplit {task : Task} (hMem : task ∈ ((control.emit scheduler.dsl stmt.ref rootStream
      delay verdict.visits).settle index coroutine none).active) :
      task ∈ control.others index ∨ ∃ next ∈ scheduler.dsl.actions, task = next.rootTask ∧
        next.ref ∈ control.released scheduler.dsl stmt.ref rootStream := by
    rcases List.mem_append.mp (hAfter.mem_iff.mp hMem) with hNew | hOld
    · obtain ⟨ref, hRef, rfl⟩ := List.mem_map.mp hNew
      obtain ⟨next, hNext, rfl, -⟩ := Control.mem_released hRef
      exact Or.inr ⟨next, hNext, rfl, hRef⟩
    · exact Or.inl hOld
  refine ⟨?_, fun task hMem => ?_, fun other hOther => ?_, fun delayed hMem => ?_,
    fun other hMem otherStmt hOther hOtherTask => ?_, fun other hOther hMem => ?_,
    fun other hOther hIdle => ?_⟩
  · refine hAfter.nodup_iff.mpr (List.nodup_append.mpr ⟨?_, hRest, ?_⟩)
    · exact (nodup_released hNodup hDistinct hRun.counted hUnmarked).map
        fun first second h => congrArg Task.ref h
    · rintro task hNew _ hOld rfl
      obtain ⟨ref, hRef, rfl⟩ := List.mem_map.mp hNew
      obtain ⟨next, hNext, rfl, -⟩ := Control.mem_released hRef
      exact (hReleased hNext hRef).1 (hKept hOld).1
  · rcases hSplit hMem with hOld | ⟨next, hNext, hTask, -⟩
    · exact hRun.home task (hKept hOld).1
    · exact ⟨next, hNext, hTask⟩
  · have hCounted : (control.emit scheduler.dsl stmt.ref rootStream delay
        verdict.visits).Counted other rootStream :=
      (hRun.counted other hOther).emit hNodup hOther (hDistinct other hOther) hUnmarked
    exact hCounted
  · rcases List.mem_append.mp hMem with hOld | hNew
    · have hOther := (hKept (List.mem_append_left _ (List.mem_map_of_mem hOld))).2
      rw [Function.update_of_ne hOther]
      exact hRun.queued delayed hOld
    · obtain ⟨ref, hRef, rfl⟩ := List.mem_map.mp hNew
      obtain ⟨next, hNext, rfl, -⟩ := Control.mem_released hRef
      obtain ⟨hIdle, hWaiting⟩ := hReleased hNext hRef
      have hOther : next.rootTask ≠ stmt.rootTask := fun h => hIdle (h ▸ hActive)
      exact (Function.update_of_ne hOther _ _).trans hWaiting.notes_eq
  · have hOld := hKept (List.mem_append_right _ (List.mem_map_of_mem hMem))
    obtain ⟨hNotes, hGuards⟩ := hRun.running other (List.mem_of_mem_eraseIdx hMem) otherStmt
      hOther hOtherTask
    have hNone := (hRun.active otherStmt hOther (hOtherTask ▸ hOld.1)).1
    have hAgree := inMarker_emit delay verdict.visits hOther hNone hUnmarked
    rw [Function.update_of_ne hOld.2]
    exact ⟨hNotes, hGuards.congr (otherStmt.allSkipped_congr hAgree)
      (otherStmt.joins_congr hAgree)⟩
  · rcases hSplit hMem with hOld | ⟨next, hNext, hSame, hRef⟩
    · obtain ⟨hNone, hPendingEdges⟩ := hRun.active other hOther (hKept hOld).1
      exact ⟨pendingDeps_emit_eq_nil delay verdict.visits hOther hNone,
        hPendingEdges.emit delay verdict.visits (hRefNe (hKept hOld).2)⟩
    · obtain rfl := rootTask_injective hNodup hOther hNext hSame
      obtain ⟨hIdle, hWaiting⟩ := hReleased hOther hRef
      have hOtherTask : other.rootTask ≠ stmt.rootTask := fun h => hIdle (h ▸ hActive)
      exact ⟨((mem_released_iff delay verdict.visits hNodup hDistinct hRun.counted hUnmarked
        hOther).mp hRef).2, hWaiting.unmarked.emit delay verdict.visits (hRefNe hOtherTask)⟩
  · by_cases hSame : other.rootTask = stmt.rootTask
    · obtain rfl := rootTask_injective hNodup hOther hStmt hSame
      have hEnded := ended_emit delay hOther hDeps hUnmarked hVerdict hEnds hCaught
        (Function.update_self other.rootTask final notes)
      exact Or.inr ⟨hEnded.deps_eq, hEnded.ends, hEnded.caught, hEnded.marked⟩
    · have hOtherIdle : other.rootTask ∉ control.active := by
        intro hOtherActive
        rcases List.mem_cons.mp (hBefore.mem_iff.mp hOtherActive) with hSelf | hOld
        · exact hSame hSelf
        · exact hIdle (hAfter.mem_iff.mpr (List.mem_append_right _ hOld))
      have hUnreleased : other.ref ∉ control.released scheduler.dsl stmt.ref rootStream :=
        fun hRef => hIdle (hAfter.mem_iff.mpr
          (List.mem_append_left _ (List.mem_map.mpr ⟨other.ref, hRef, rfl⟩)))
      rcases hRun.idle_emit delay hNodup hDistinct hUnmarked verdict.visits hOther (hRefNe hSame)
        hOtherIdle
        hUnreleased (Function.update_of_ne hSame final notes) with hWaiting | hEnded
      · exact Or.inl ⟨hWaiting.notes_eq, hWaiting.deps_ne, hWaiting.unmarked⟩
      · exact Or.inr ⟨hEnded.deps_eq, hEnded.ends, hEnded.caught, hEnded.marked⟩

end Leave

/-- The invariant reads the counters, the markers and which tasks are active. -/
theorem DagRun.congr {after : Control} {later : Task → List Note}
    (hRun : control.DagRun scheduler oracle notes)
    (hIndegree : after.indegree = control.indegree) (hMarker : after.marker = control.marker)
    (hActive : after.active.Perm control.active)
    (hNotes : ∀ task, task ∉ control.active → later task = notes task)
    (hQueued : ∀ delayed ∈ after.queue, later delayed.task = [])
    (hRunning : ∀ coroutine ∈ after.pending, ∀ stmt ∈ scheduler.dsl.actions,
      coroutine.task = stmt.rootTask → later coroutine.task = coroutine.pc.notes ∧
        coroutine.pc.Guards stmt (control.marking rootStream) oracle) :
    after.DagRun scheduler oracle later := by
  have hMarking : after.marking rootStream = control.marking rootStream := by
    unfold marking
    rw [hMarker]
  have hDeps (stmt : ActionStatement) :
      after.pendingDeps stmt rootStream = control.pendingDeps stmt rootStream := by
    unfold pendingDeps
    rw [hMarker]
  have hUnmarked (ref : Ref) : after.Unmarked scheduler.dsl ref rootStream ↔
      control.Unmarked scheduler.dsl ref rootStream := by
    unfold Unmarked
    rw [hMarker]
  refine ⟨hActive.nodup_iff.mpr hRun.once, fun task hMem => ?_, fun stmt hStmt => ?_, hQueued,
    ?_, fun stmt hStmt hMem => ?_, fun stmt hStmt hIdle => ?_⟩
  · exact hRun.home task (hActive.mem_iff.mp hMem)
  · unfold Counted
    rw [hDeps, hIndegree]
    exact hRun.counted stmt hStmt
  · rw [hMarking]
    exact hRunning
  · rw [hDeps, hUnmarked]
    exact hRun.active stmt hStmt (hActive.mem_iff.mp hMem)
  · have hBefore : stmt.rootTask ∉ control.active := fun h => hIdle (hActive.mem_iff.mpr h)
    rcases hRun.idle stmt hStmt hBefore with hWaiting | hEnded
    · refine Or.inl ⟨(hNotes _ hBefore).trans hWaiting.notes_eq, ?_, ?_⟩
      · rw [hDeps]
        exact hWaiting.deps_ne
      · exact (hUnmarked _).mpr hWaiting.unmarked
    · refine Or.inr ⟨(hDeps stmt).trans hEnded.deps_eq, ?_, ?_, ?_⟩
      · rw [hMarking, hNotes _ hBefore]
        exact hEnded.ends
      · rw [hMarking]
        exact hEnded.caught
      · rw [hMarking]
        exact hEnded.marked

theorem DagRun.spawn (hRun : control.DagRun scheduler oracle notes) {next : DelayedTask}
    {rest : List DelayedTask} (hQueue : control.queue = next :: rest) :
    Control.DagRun scheduler oracle
      { control with
        queue := rest
        pending := control.pending ++ [⟨next.task, next.delay, .start⟩] } notes := by
  have hHead : next ∈ control.queue := hQueue ▸ List.mem_cons_self
  refine hRun.congr rfl rfl ?_ (fun _ _ => rfl) (fun delayed hMem => ?_)
    fun other hMem stmt hStmt hTask => ?_
  · have hActive : control.active = next.task ::
        (rest.map DelayedTask.task ++ control.pending.map Coroutine.task) := by
      simp [Control.active, hQueue]
    rw [hActive]
    simp only [Control.active, List.map_append, List.map_cons, List.map_nil, ← List.append_assoc]
    exact List.perm_append_singleton _ _
  · exact hRun.queued delayed (hQueue ▸ List.mem_cons_of_mem _ hMem)
  · rcases List.mem_append.mp hMem with hOld | hNew
    · exact hRun.running other hOld stmt hStmt hTask
    · rw [List.mem_singleton.mp hNew]
      exact ⟨hRun.queued next hHead, trivial⟩

theorem DagRun.wait (hRun : control.DagRun scheduler oracle notes)
    (hNodup : (scheduler.dsl.actions.map ActionStatement.ref).Nodup)
    (hPending : control.pending[index]? = some coroutine)
    (hStmt : stmt ∈ scheduler.dsl.actions) (hTask : coroutine.task = stmt.rootTask) {pc : PC}
    (hGuards : pc.Guards stmt (control.marking rootStream) oracle) :
    (control.settle index coroutine (some pc)).DagRun scheduler oracle
      (Function.update notes coroutine.task pc.notes) := by
  have hBefore := active_perm hPending
  obtain ⟨hGone, -⟩ := List.nodup_cons.mp (hBefore.nodup_iff.mp hRun.once)
  have hActive : coroutine.task ∈ control.active := hBefore.mem_iff.mpr List.mem_cons_self
  obtain ⟨hLt, hGet⟩ := List.getElem?_eq_some_iff.mp hPending
  have hSet : (control.pending.set index { coroutine with pc := pc }).Perm
      ({ coroutine with pc := pc } :: control.pending.eraseIdx index) :=
    List.set_perm_cons_eraseIdx hLt _
  refine hRun.congr rfl rfl ?_ (fun task hIdle => ?_) (fun delayed hMem => ?_)
    fun other hMem otherStmt hOther hOtherTask => ?_
  · refine List.Perm.trans ?_ hBefore.symm
    have hMap := (hSet.map Coroutine.task).append_left (control.queue.map DelayedTask.task)
    exact hMap.trans List.perm_middle
  · have hOther : task ≠ coroutine.task := by
      rintro rfl
      exact hIdle hActive
    exact Function.update_of_ne hOther _ _
  · have hOther : delayed.task ≠ coroutine.task := fun h =>
      hGone (h ▸ List.mem_append_left _ (List.mem_map_of_mem hMem))
    rw [Function.update_of_ne hOther]
    exact hRun.queued delayed hMem
  · rcases List.mem_cons.mp (hSet.mem_iff.mp hMem) with rfl | hOld
    · obtain rfl := rootTask_injective hNodup hOther hStmt (hOtherTask.symm.trans hTask)
      exact ⟨Function.update_self _ _ _, hGuards⟩
    · have hNe : other.task ≠ coroutine.task := fun h =>
        hGone (h ▸ List.mem_append_right _ (List.mem_map_of_mem hOld))
      rw [Function.update_of_ne hNe]
      exact hRun.running other (List.mem_of_mem_eraseIdx hOld) otherStmt hOther hOtherTask

end Control

/-! ## Runs -/

theorem Move.halted {scheduler : DSLScheduler} {control next : Control}
    {label : Option Coroutine} (hMove : Move scheduler control label next)
    (hHalted : control.halted) : next.halted := by
  cases hMove with
  | spawn hLive hQueue => exact hHalted
  | resume hPending hStmt hFits hEffect =>
      cases hEffect with
      | halt hGather => exact trivial
      | haltScatter hAction hPc => exact trivial
      | _ => exact hHalted

/-- Every action is plain. -/
def DSLInput.IsPlain (dsl : DSLInput) : Prop :=
  ∀ stmt ∈ dsl.actions, stmt.action.isPlain

namespace DSLScheduler

variable (scheduler : DSLScheduler)

/-- The outcome that an event brings is one that the oracle allows. -/
def Follows (oracle : Oracle) (state : State) : Event → Prop
  | .spawn => True
  | .resume index outcome => ∀ coroutine stmt, state.pending[index]? = some coroutine →
      scheduler.dsl.stmt? coroutine.task.ref = some stmt →
      oracle.allows stmt coroutine.pc outcome

/-- The executor raises a platform error, which fails the workflow. -/
def isPlatformError : Event → Bool
  | .resume _ (.executorRaised _ _ platform) => platform
  | _ => false

theorem control_handleErrorPath_error (state : State) {task : DelayedTask} (exc : Exn)
    {platform : Bool}
    (hMarks : (scheduler.hasErrorEdge task.task.ref && !platform) = true) :
    (scheduler.handleErrorPath state task exc platform).control scheduler =
      (state.control scheduler).emit scheduler.dsl task.task.ref task.task.stream task.delay
        (· = .error) := by
  unfold handleErrorPath
  simp only [hMarks, if_true]
  refine scheduler.control_queueTasks _ task _ _ fun edge hSrc hStream hNext => ?_
  rw [mem_outEdges]
  simp [hSrc, hStream, hNext]

section Steps

variable {scheduler} {oracle : Oracle} {state next : State} {event : Event}

theorem contained_of_isPlain (hPlain : scheduler.dsl.IsPlain) :
    scheduler.Contained state event := by
  have hKind {resumption : Resumption}
      (hResumed : scheduler.resumed? state event = some resumption) :
      resumption.stmt.action.isPlain := by
    obtain ⟨-, -, -, hStmt, -⟩ := scheduler.resumed?_eq_some hResumed
    exact hPlain _ (DSLInput.stmt?_some_mem hStmt).1
  refine ⟨fun resumption hResumed hAction => ?_, fun resumption hResumed hAction => ?_,
    fun resumption hResumed hAction => ?_⟩
  all_goals
    have hAbsurd := hKind hResumed
    rw [hAction] at hAbsurd
    cases hAbsurd

theorem halted_of_step (hPlain : scheduler.dsl.IsPlain) {context : ExecutionContext}
    (hTracked : state.Tracked scheduler context)
    (hStep : scheduler.step state event = some next)
    (hHalted : (state.control scheduler).halted) : (next.control scheduler).halted := by
  have hFitted : (state.control scheduler).Fitted scheduler :=
    fun coroutine hMem stmt hStmt => (hTracked.waits coroutine hMem stmt hStmt).1
  exact (scheduler.step_move hFitted (contained_of_isPlain hPlain) hStep).halted hHalted

variable (scheduler oracle) in
/-- What a step does to a run that nothing has stopped. -/
inductive DagStep (control : Control) (notes : Task → List Note) :
    Event → Control → (Task → List Note) → Prop
  | spawn {head : DelayedTask} {rest : List DelayedTask}
      (hQueue : control.queue = head :: rest) :
      DagStep control notes .spawn
        { control with
          queue := rest
          pending := control.pending ++ [⟨head.task, head.delay, .start⟩] } notes
  /-- an action waits -/
  | wait {index : Nat} {outcome : Outcome} {coroutine : Coroutine} {stmt : ActionStatement}
      {pc : PC} (hPending : control.pending[index]? = some coroutine)
      (hStmt : stmt ∈ scheduler.dsl.actions) (hTask : coroutine.task = stmt.rootTask)
      (hGuards : pc.Guards stmt (control.marking rootStream) oracle)
      (hLeft : pc.left < coroutine.pc.left ∨
        outcome = .truthy false ∧ pc.left ≤ coroutine.pc.left + 1) :
      DagStep control notes (.resume index outcome) (control.settle index coroutine (some pc))
        (Function.update notes coroutine.task pc.notes)
  /-- an action has its verdict and marks its out-edges -/
  | leave {index : Nat} {outcome : Outcome} {coroutine : Coroutine} {stmt : ActionStatement}
      {verdict : Verdict} {final : List Note} (delay : Int)
      (hPending : control.pending[index]? = some coroutine)
      (hStmt : stmt ∈ scheduler.dsl.actions) (hTask : coroutine.task = stmt.rootTask)
      (hVerdict : stmt.verdict (control.marking rootStream) oracle = verdict)
      (hEnds : verdict.Ends final)
      (hCaught : verdict.isFailure = true → scheduler.hasErrorEdge stmt.ref = true) :
      DagStep control notes (.resume index outcome)
        ((control.emit scheduler.dsl stmt.ref rootStream delay verdict.visits).settle index
          coroutine none)
        (Function.update notes stmt.rootTask final)
  /-- an action fails and stops the run -/
  | halt {event : Event} {stmt : ActionStatement} {next : Control} {later : Task → List Note}
      (hStmt : stmt ∈ scheduler.dsl.actions) (hActive : stmt.rootTask ∈ control.active)
      (hFailure : (stmt.verdict (control.marking rootStream) oracle).isFailure = true)
      (hCause : scheduler.hasErrorEdge stmt.ref = false ∨ isPlatformError event = true)
      (hHalted : next.halted) : DagStep control notes event next later

theorem dagStep_of_step (hNodup : (scheduler.dsl.actions.map ActionStatement.ref).Nodup)
    (hPlain : scheduler.dsl.IsPlain) {context : ExecutionContext}
    (hTracked : state.Tracked scheduler context)
    (hRun : (state.control scheduler).DagRun scheduler oracle state.notes)
    (hFollows : scheduler.Follows oracle state event)
    (hStep : scheduler.step state event = some next) :
    DagStep scheduler oracle (state.control scheduler) state.notes event
      (next.control scheduler) next.notes := by
  obtain ⟨root, hRoot, -⟩ := hTracked.recorded.root
  have hContext : state.streams.lookup rootStream ≠ none :=
    Option.ne_none_iff_exists'.mpr ⟨root, hRoot⟩
  rcases scheduler.step_eq_some.mp hStep with ⟨rfl, hSpawn⟩ | ⟨resumption, hResumed, rfl⟩
  · obtain ⟨head, rest, hQueue, -, -, rfl⟩ := step_spawn_eq_some hSpawn
    exact .spawn hQueue
  obtain ⟨outcome, rfl, hPending, hStmt, hResume⟩ := scheduler.resumed?_eq_some hResumed
  obtain ⟨index, coroutine, stmt, segment⟩ := resumption
  simp only at hPending hStmt hResume ⊢
  have hMem : coroutine ∈ (state.control scheduler).pending := List.mem_of_getElem? hPending
  have hActive : coroutine.task ∈ (state.control scheduler).active :=
    List.mem_append_right _ (List.mem_map_of_mem hMem)
  obtain ⟨hStmtMem, hRef⟩ := DSLInput.stmt?_some_mem hStmt
  obtain ⟨other, hOther, hOtherTask⟩ := hRun.home coroutine.task hActive
  have hSame : other = stmt := by
    refine List.inj_on_of_nodup_map hNodup hOther hStmtMem ?_
    rw [hRef, hOtherTask]
    rfl
  have hTask : coroutine.task = stmt.rootTask := hSame ▸ hOtherTask
  have hStream : coroutine.task.stream = rootStream := by rw [hTask]; rfl
  obtain ⟨hNow, hPassed⟩ := hRun.running coroutine hMem stmt hStmtMem hTask
  have hSegment := resume_dag (hPlain stmt hStmtMem) hRef.symm (hStream ▸ hContext) hNow
    (hStream ▸ hPassed) (hFollows coroutine stmt hPending hStmt) hResume
  cases hSegment with
  | @wait after pc hControl hNotes hStarted hGuards =>
      rw [hStream] at hGuards
      have hNext : (scheduler.settle index coroutine (.suspend after pc)).control scheduler =
          (state.control scheduler).settle index coroutine (some pc) :=
        congrArg (fun control => control.settle index coroutine (some pc)) hControl
      have hLater : (scheduler.settle index coroutine (.suspend after pc)).notes = after.notes :=
        rfl
      rw [hNext, hLater, hNotes]
      exact .wait hPending hStmtMem hTask hGuards
        (left_of_suspend (hPlain stmt hStmtMem) hPassed hResume)
  | @finish after verdict final hFailure hVerdict hControl hNotes hEnds =>
      rw [hStream] at hVerdict hControl
      rw [← hRef] at hControl
      have hLeave := @DagStep.leave scheduler oracle _ state.notes index outcome _ _ _ _
        coroutine.delayed.delay hPending hStmtMem hTask hVerdict hEnds (by simp [hFailure])
      rw [← hControl, ← hTask, ← hNotes] at hLeave
      exact hLeave
  | @raise after exc platform verdict final hFailure hVerdict hControl hNotes hEnds =>
      rw [hStream] at hVerdict
      by_cases hMarks :
          (scheduler.hasErrorEdge coroutine.delayed.task.ref && !platform) = true
      · have hEmit := scheduler.control_handleErrorPath_error after exc hMarks
        have hFinal : (scheduler.handleErrorPath after coroutine.delayed exc platform).notes =
            Function.update state.notes coroutine.task final :=
          (scheduler.notes_handleErrorPath after coroutine.delayed exc platform).trans hNotes
        have hVisits : verdict.visits = fun type => decide (type = .error) := by
          cases verdict <;> first | rfl | cases hFailure
        rw [hControl, Coroutine.delayed_task, hStream, ← hRef, ← hVisits] at hEmit
        have hError : scheduler.hasErrorEdge stmt.ref = true := by
          rw [hRef]
          exact (Bool.and_eq_true_iff.mp hMarks).1
        have hLeave := @DagStep.leave scheduler oracle _ state.notes index outcome _ _ _ _
          coroutine.delayed.delay hPending hStmtMem hTask hVerdict hEnds fun _ => hError
        rw [← hEmit, ← hTask, ← hFinal] at hLeave
        exact hLeave
      · have hHalt := scheduler.control_handleErrorPath_halt after exc
          (Bool.not_eq_true _ ▸ hMarks) (Or.inl hStream)
        have hHalted : ((scheduler.handleErrorPath after coroutine.delayed exc
            platform).control scheduler).halted := by
          rw [hHalt]
          trivial
        refine .halt hStmtMem (hTask ▸ hActive) (by rw [hVerdict, hFailure]) ?_ hHalted
        cases platform with
        | true =>
            right
            obtain ⟨written, error, rfl⟩ :=
              platform_of_raise (hPlain stmt hStmtMem) hPassed hResume
            rfl
        | false =>
            left
            rw [hRef]
            simpa using hMarks

section Keeps

variable {control after : Control} {notes later : Task → List Note}

/-- A step of a run that nothing has stopped stops it, or keeps the invariant. -/
theorem DagStep.dagRun (hDag : DagStep scheduler oracle control notes event after later)
    (hNodup : (scheduler.dsl.actions.map ActionStatement.ref).Nodup)
    (hDistinct : ∀ stmt ∈ scheduler.dsl.actions, stmt.deps.Nodup)
    (hRun : control.DagRun scheduler oracle notes) :
    after.halted ∨ after.DagRun scheduler oracle later := by
  cases hDag with
  | spawn hQueue => exact Or.inr (hRun.spawn hQueue)
  | wait hPending hStmt hTask hGuards =>
      exact Or.inr (hRun.wait hNodup hPending hStmt hTask hGuards)
  | leave delay hPending hStmt hTask hVerdict hEnds hCaught =>
      exact Or.inr (hRun.leave delay hNodup hDistinct hPending hStmt hTask hVerdict hEnds hCaught)
  | halt _ _ _ _ hHalted => exact Or.inl hHalted

theorem DagStep.unhandled (hDag : DagStep scheduler oracle control notes event after later)
    (hRun : control.DagRun scheduler oracle notes) (hCalm : isPlatformError event = false)
    (hLive : ¬ control.halted) (hHalted : after.halted) :
    ∃ stmt ∈ scheduler.dsl.actions, control.pendingDeps stmt rootStream = [] ∧
      (stmt.verdict (control.marking rootStream) oracle).isFailure = true ∧
      scheduler.hasErrorEdge stmt.ref = false := by
  cases hDag with
  | @halt _ stmt _ _ hStmt hActive hFailure hCause _ =>
      refine ⟨stmt, hStmt, (hRun.active stmt hStmt hActive).1, hFailure, ?_⟩
      exact hCause.resolve_right (by simp [hCalm])
  | _ => exact absurd hHalted hLive

end Keeps

theorem indegree_init (hValidated : scheduler.dsl.Validated) (context : ExecutionContext)
    {stmt : ActionStatement} (hStmt : stmt ∈ scheduler.dsl.actions) :
    (State.init scheduler context).indegree scheduler stmt.rootTask = stmt.deps.length := by
  have hNodup : (scheduler.dsl.actions.map ActionStatement.rootTask).Nodup :=
    List.Nodup.of_map Task.ref (by simpa [Function.comp_def, ActionStatement.rootTask]
      using hValidated.refs_nodup)
  have hLookup : (State.init scheduler context).indegrees.lookup stmt.rootTask =
      some (stmt.dependsOn.length : Int) :=
    Dict.lookup_foldl_insert_of_mem ActionStatement.rootTask
      (fun stmt => (stmt.dependsOn.length : Int)) _ ∅ hNodup hStmt
  unfold State.indegree Dict.getD
  rw [hLookup, hValidated.deps_length hStmt]
  rfl

theorem dagRun_init (hValidated : scheduler.dsl.Validated) (context : ExecutionContext) :
    ((State.init scheduler context).control scheduler).DagRun scheduler oracle
      (State.init scheduler context).notes := by
  have hMarker (edge : DSLEdge) :
      ((State.init scheduler context).control scheduler).marker edge = .pending := rfl
  have hDeps (stmt : ActionStatement) : ((State.init scheduler context).control
      scheduler).pendingDeps stmt rootStream = stmt.deps := by
    unfold Control.pendingDeps
    rw [List.filter_eq_self]
    exact fun dep _ => by simp [hMarker]
  have hActive : ((State.init scheduler context).control scheduler).active =
      (scheduler.dsl.actions.filter fun stmt => stmt.dependsOn.length = 0).map
        ActionStatement.rootTask := by
    simp [Control.active, State.control, State.init, Function.comp_def,
      ActionStatement.rootTask]
  have hMem {stmt : ActionStatement} (hStmt : stmt ∈ scheduler.dsl.actions) :
      stmt.rootTask ∈ ((State.init scheduler context).control scheduler).active ↔
        stmt.deps = [] := by
    rw [hActive, ← List.length_eq_zero_iff, hValidated.deps_length hStmt]
    constructor
    · intro hIn
      obtain ⟨other, hOther, hTask⟩ := List.mem_map.mp hIn
      obtain ⟨hOtherMem, hNone⟩ := List.mem_filter.mp hOther
      obtain rfl := Control.rootTask_injective hValidated.refs_nodup hOtherMem hStmt hTask
      simpa using hNone
    · exact fun hNone => List.mem_map_of_mem (List.mem_filter.mpr ⟨hStmt, by simpa using hNone⟩)
  refine ⟨?_, fun task hTask => ?_, fun stmt hStmt => ?_, fun _ _ => rfl, ?_,
    fun stmt hStmt hIn => ⟨?_, fun next _ => hMarker _⟩, fun stmt hStmt hIdle => ?_⟩
  · rw [hActive]
    refine List.Nodup.of_map Task.ref ?_
    rw [List.map_map]
    exact (List.filter_sublist.map _).nodup hValidated.refs_nodup
  · rw [hActive] at hTask
    obtain ⟨stmt, hStmt, rfl⟩ := List.mem_map.mp hTask
    exact ⟨stmt, (List.mem_filter.mp hStmt).1, rfl⟩
  · unfold Control.Counted
    rw [hDeps]
    exact indegree_init hValidated context hStmt
  · simp [State.control, State.init]
  · rw [hDeps]
    exact (hMem hStmt).mp hIn
  · left
    refine ⟨rfl, ?_, fun next _ => hMarker _⟩
    rw [hDeps]
    exact fun hNone => hIdle ((hMem hStmt).mpr hNone)

/-- The invariant holds along every run that follows the oracle, until the
workflow is stopped. -/
theorem dagRun_of_reachable (hValidated : scheduler.dsl.Validated)
    (hPlain : scheduler.dsl.IsPlain)
    (hDistinct : ∀ stmt ∈ scheduler.dsl.actions, stmt.deps.Nodup) {context : ExecutionContext}
    (hReach : scheduler.ReachableWith context (scheduler.Follows oracle) state) :
    (state.control scheduler).halted ∨
      (state.control scheduler).DagRun scheduler oracle state.notes := by
  have hNodup := hValidated.refs_nodup
  induction hReach with
  | init => exact Or.inr (dagRun_init hValidated context)
  | @step state next event hReach hFollows hStep ih =>
      have hTracked := tracked_of_reachable (ReachableWith.reachable scheduler hReach)
      rcases ih with hHalted | hRun
      · exact Or.inl (halted_of_step hPlain hTracked hStep hHalted)
      · exact (dagStep_of_step hNodup hPlain hTracked hRun hFollows hStep).dagRun hNodup hDistinct
          hRun

/-- A step of a run that nothing has stopped, from a state with the invariant. -/
theorem dagStep_of_reachable (hValidated : scheduler.dsl.Validated)
    (hPlain : scheduler.dsl.IsPlain)
    (hDistinct : ∀ stmt ∈ scheduler.dsl.actions, stmt.deps.Nodup) {context : ExecutionContext}
    (hReach : scheduler.ReachableWith context (scheduler.Follows oracle) state)
    (hLive : ¬ (state.control scheduler).halted) (hFollows : scheduler.Follows oracle state event)
    (hStep : scheduler.step state event = some next) :
    (state.control scheduler).DagRun scheduler oracle state.notes ∧
      DagStep scheduler oracle (state.control scheduler) state.notes event
        (next.control scheduler) next.notes := by
  have hRun := (dagRun_of_reachable hValidated hPlain hDistinct hReach).resolve_left hLive
  have hTracked := tracked_of_reachable (ReachableWith.reachable scheduler hReach)
  exact ⟨hRun, dagStep_of_step hValidated.refs_nodup hPlain hTracked hRun hFollows hStep⟩

end Steps

end DSLScheduler

end Tracecat
