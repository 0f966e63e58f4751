import Tracecat.Lib.Countdown
import Tracecat.Dsl.Layout
import Tracecat.Scheduler.Step

/-!
# The control state

What decides which task runs where: the queue, the pending coroutines, the
indegree counters, the edge markers and the stream tables, read as functions.
Contexts, results, errors and the log are left out.  The operations of the
scheduler act on this projection in a few ways, and the main one is an
emission, the effect of `_queue_tasks`.
-/

namespace Tracecat

/-! ## Adjacency -/

namespace DSLInput

variable {dsl : DSLInput}

theorem mem_adj {src : Ref} {next : AdjDst} :
    next ∈ dsl.adj src ↔
      ∃ stmt ∈ dsl.actions, stmt.ref = next.1 ∧ (src, next.2) ∈ stmt.deps := by
  unfold adj toTypedAdjacency
  rw [List.mem_insertionSort, List.mem_dedup, List.mem_flatMap]
  constructor
  · rintro ⟨stmt, hStmt, hNext⟩
    obtain ⟨⟨source, type⟩, hDep, rfl⟩ := List.mem_map.mp hNext
    obtain ⟨hDep, hSource⟩ := List.mem_filter.mp hDep
    have hSource : source = src := by simpa using hSource
    exact ⟨stmt, hStmt, rfl, hSource ▸ hDep⟩
  · rintro ⟨stmt, hStmt, hRef, hDep⟩
    refine ⟨stmt, hStmt, List.mem_map.mpr ⟨(src, next.2), ?_, by simp [hRef]⟩⟩
    exact List.mem_filter.mpr ⟨hDep, by simp⟩

theorem adj_nodup (src : Ref) : (dsl.adj src).Nodup :=
  (List.perm_insertionSort _ _).nodup_iff.mpr (List.nodup_dedup _)

theorem count_fst_of_nodup {pairs : List AdjDst} (hNodup : pairs.Nodup) (ref : Ref) :
    (pairs.map Prod.fst).count ref =
      (if (ref, EdgeType.success) ∈ pairs then 1 else 0) +
        (if (ref, EdgeType.error) ∈ pairs then 1 else 0) := by
  induction pairs with
  | nil => simp
  | cons head rest ih =>
      obtain ⟨hHead, hRest⟩ := List.nodup_cons.mp hNodup
      obtain ⟨first, type⟩ := head
      rw [List.map_cons, List.count_cons, ih hRest]
      by_cases hFirst : first = ref
      · subst hFirst
        cases type with
        | success =>
            simp [hHead]
            omega
        | error =>
            simp [hHead]
      · have hNe : ¬ ref = first := fun h => hFirst h.symm
        simp [hFirst, hNe]

/-- An action occurs among the targets of the edges out of `src` once for each
of its distinct dependencies on `src`. -/
theorem count_adj (hNodup : (dsl.actions.map ActionStatement.ref).Nodup)
    {stmt : ActionStatement} (hStmt : stmt ∈ dsl.actions) (src : Ref) :
    ((dsl.adj src).map Prod.fst).count stmt.ref =
      (stmt.deps.dedup.map Prod.fst).count src := by
  have hEdge (type : EdgeType) :
      (stmt.ref, type) ∈ dsl.adj src ↔ (src, type) ∈ stmt.deps.dedup := by
    rw [mem_adj, List.mem_dedup]
    constructor
    · rintro ⟨other, hOther, hRef, hDep⟩
      rwa [List.inj_on_of_nodup_map hNodup hOther hStmt hRef] at hDep
    · exact fun hDep => ⟨stmt, hStmt, rfl, hDep⟩
  rw [count_fst_of_nodup (adj_nodup src), count_fst_of_nodup (List.nodup_dedup _)]
  simp [hEdge]

end DSLInput

@[simp] theorem Coroutine.delayed_task (coroutine : Coroutine) :
    coroutine.delayed.task = coroutine.task := rfl

/-! ## The projection -/

/-- The control state of the scheduler. -/
structure Control where
  queue : List DelayedTask
  pending : List Coroutine
  indegree : Task → Int
  marker : DSLEdge → EdgeMarker
  halted : Prop
  parent : StreamID → Option (Option StreamID)
  listed : Task → Option (List StreamID)
  opened : Task → Option Int

namespace Control

/-- The successors that the marking of `src` in `stream` releases. -/
def released (dsl : DSLInput) (control : Control) (src : Ref) (stream : StreamID) : List Ref :=
  Countdown.released (fun ref => control.indegree ⟨ref, stream⟩)
    ((dsl.adj src).map Prod.fst)

/-- An emission of `src` in `stream`: every edge out of `src` is marked,
`VISITED` where `keep` holds of its type, and the successors whose counter
reaches zero are queued. -/
def emit (dsl : DSLInput) (control : Control) (src : Ref) (stream : StreamID) (delay : Int)
    (keep : EdgeType → Bool) : Control :=
  { control with
    marker := fun edge =>
      if edge.src = src ∧ edge.stream = stream ∧ (edge.dst, edge.type) ∈ dsl.adj src then
        if keep edge.type then .visited else .skipped
      else control.marker edge
    indegree := fun task =>
      if task.stream = stream then
        control.indegree task - ((dsl.adj src).map Prod.fst).count task.ref
      else control.indegree task
    queue := control.queue ++
      (control.released dsl src stream).map fun ref => ⟨⟨ref, stream⟩, delay⟩ }

end Control

def State.control (scheduler : DSLScheduler) (state : State) : Control where
  queue := state.queue
  pending := state.pending
  indegree := state.indegree scheduler
  marker := state.marker
  halted := state.taskExceptions.entries ≠ []
  parent := state.streamHierarchy.lookup
  listed := state.taskStreams.lookup
  opened := state.openStreams.lookup

namespace State

variable (scheduler : DSLScheduler) (state : State)

@[simp] theorem control_record (entry : LogEntry) :
    (state.record entry).control scheduler = state.control scheduler := rfl

@[simp] theorem control_writeAction (writer : Task) (stream : StreamID) (ref : Ref)
    (result : TaskResult) :
    (state.writeAction writer stream ref result).control scheduler =
      state.control scheduler := by
  unfold writeAction
  split <;> rfl

@[simp] theorem control_complete (task : Task) :
    (state.complete task).control scheduler = state.control scheduler := rfl

@[simp] theorem control_openStream (writer : Task) (stream parent : StreamID)
    (actions : Dict Ref TaskResult) :
    (state.openStream writer stream parent actions).control scheduler =
      { state.control scheduler with
        parent := Function.update (state.control scheduler).parent stream
          (some (some parent)) } := by
  unfold openStream control
  congr 1
  funext other
  rw [Function.update_apply]
  exact Dict.lookup_insert_eq _ _ _ _

end State

namespace DSLScheduler

variable (scheduler : DSLScheduler)

/-- The edges that `_handle_success_path` and its siblings pass on as
unreachable are the out-edges of the types outside `keep`. -/
theorem mem_outEdges {task : Task} {drop : EdgeType → Bool} {edge : DSLEdge} :
    edge ∈ scheduler.outEdges task drop ↔
      edge.src = task.ref ∧ edge.stream = task.stream ∧
        (edge.dst, edge.type) ∈ scheduler.dsl.adj task.ref ∧ drop edge.type := by
  unfold outEdges
  simp only [List.mem_map, List.mem_filter]
  constructor
  · rintro ⟨next, ⟨hNext, hDrop⟩, rfl⟩
    exact ⟨rfl, rfl, hNext, hDrop⟩
  · rintro ⟨hSrc, hStream, hNext, hDrop⟩
    refine ⟨(edge.dst, edge.type), ⟨hNext, hDrop⟩, ?_⟩
    rw [← hSrc, ← hStream]

theorem queueNext_foldl (task : DelayedTask) (unreachable : List DSLEdge)
    (nexts : List AdjDst) (state : State) :
    let final := nexts.foldl (scheduler.queueNext task unreachable) state
    (∀ edge, final.marker edge =
      if edge.src = task.task.ref ∧ edge.stream = task.task.stream ∧
          (edge.dst, edge.type) ∈ nexts then
        if edge ∈ unreachable then .skipped else .visited
      else state.marker edge) ∧
    (∀ other, final.indegree scheduler other =
      if other.stream = task.task.stream then
        state.indegree scheduler other - (nexts.map Prod.fst).count other.ref
      else state.indegree scheduler other) ∧
    final.queue = state.queue ++
      (Countdown.released
        (fun ref => state.indegree scheduler ⟨ref, task.task.stream⟩)
        (nexts.map Prod.fst)).map (fun ref => ⟨⟨ref, task.task.stream⟩, task.delay⟩) ∧
    final = { state with
      queue := final.queue, edges := final.edges, indegrees := final.indegrees } := by
  induction nexts generalizing state with
  | nil => simp [Countdown.released]
  | cons head rest ih =>
      obtain ⟨hMarker, hIndegree, hQueue, hFrame⟩ :=
        ih (scheduler.queueNext task unreachable state head)
      have hHeadMarker : ∀ edge,
          (scheduler.queueNext task unreachable state head).marker edge =
            if edge.src = task.task.ref ∧ edge.stream = task.task.stream ∧
                (edge.dst, edge.type) = head then
              if edge ∈ unreachable then .skipped else .visited
            else state.marker edge := by
        intro edge
        unfold queueNext State.marker
        rw [Dict.getD_insert]
        obtain ⟨src, dst, type, stream⟩ := edge
        obtain ⟨headDst, headType⟩ := head
        simp only [DSLEdge.mk.injEq, Prod.mk.injEq]
        by_cases hEdge : src = task.task.ref ∧ dst = headDst ∧ type = headType ∧
            stream = task.task.stream
        · obtain ⟨rfl, rfl, rfl, rfl⟩ := hEdge
          simp
        · rw [if_neg hEdge, if_neg (fun h => hEdge ⟨h.1, h.2.2.1, h.2.2.2, h.2.1⟩)]
      have hHeadIndegree : ∀ other,
          (scheduler.queueNext task unreachable state head).indegree scheduler other =
            if other = ⟨head.1, task.task.stream⟩ then
              state.indegree scheduler other - 1
            else state.indegree scheduler other := by
        intro other
        unfold queueNext State.indegree
        rw [Dict.getD_insert]
        by_cases hOther : other = ⟨head.1, task.task.stream⟩
        · subst hOther
          simp
        · simp [hOther]
      refine ⟨?_, ?_, ?_, ?_⟩
      · intro edge
        rw [List.foldl_cons, hMarker, hHeadMarker]
        by_cases hSource : edge.src = task.task.ref ∧ edge.stream = task.task.stream
        · by_cases hHead : (edge.dst, edge.type) = head
          · simp [hSource, hHead]
          · simp [hSource, hHead]
        · rw [if_neg (fun h => hSource ⟨h.1, h.2.1⟩), if_neg (fun h => hSource ⟨h.1, h.2.1⟩),
            if_neg (fun h => hSource ⟨h.1, h.2.1⟩)]
      · intro other
        rw [List.foldl_cons, hIndegree, hHeadIndegree, List.map_cons, List.count_cons]
        obtain ⟨ref, stream⟩ := other
        simp only [Task.mk.injEq]
        by_cases hStream : stream = task.task.stream
        · by_cases hRef : ref = head.1
          · simp [hStream, hRef]
            omega
          · have hNe : ¬ head.1 = ref := fun h => hRef h.symm
            simp [hStream, hRef, hNe]
        · simp [hStream]
      · rw [List.foldl_cons, hQueue, List.map_cons, Countdown.released]
        have hCounter : (fun ref =>
            (scheduler.queueNext task unreachable state head).indegree scheduler
              ⟨ref, task.task.stream⟩) =
            Countdown.tick (fun ref => state.indegree scheduler ⟨ref, task.task.stream⟩)
              head.1 := by
          funext ref
          rw [hHeadIndegree, Countdown.tick_apply]
          by_cases hRef : ref = head.1
          · simp [hRef]
          · have hNe : ¬ head.1 = ref := fun h => hRef h.symm
            simp [hRef, hNe]
        rw [hCounter]
        by_cases hZero : state.indegree scheduler ⟨head.1, task.task.stream⟩ - 1 = 0
        · simp [queueNext, hZero]
        · simp [queueNext, hZero]
      · rw [List.foldl_cons, hFrame]
        rfl

/-- `_queue_tasks` touches the queue, the edges, the counters and the log. -/
theorem queueTasks_frame (state : State) (task : DelayedTask) (unreachable : List DSLEdge) :
    let final := scheduler.queueTasks state task unreachable
    final = { state with
      queue := final.queue, edges := final.edges, indegrees := final.indegrees,
      log := .queueing task.task :: state.log } := by
  have hFrame := (scheduler.queueNext_foldl task unreachable
    (scheduler.dsl.adj task.task.ref) (state.record (.queueing task.task))).2.2.2
  unfold queueTasks
  rw [hFrame]
  rfl

theorem control_queueTasks (state : State) (task : DelayedTask) (unreachable : List DSLEdge)
    (keep : EdgeType → Bool)
    (hKeep : ∀ edge, edge.src = task.task.ref → edge.stream = task.task.stream →
      (edge.dst, edge.type) ∈ scheduler.dsl.adj task.task.ref →
      (edge ∈ unreachable ↔ keep edge.type = false)) :
    (scheduler.queueTasks state task unreachable).control scheduler =
      (state.control scheduler).emit scheduler.dsl task.task.ref task.task.stream task.delay
        keep := by
  obtain ⟨hMarker, hIndegree, hQueue, hFrame⟩ := scheduler.queueNext_foldl task unreachable
    (scheduler.dsl.adj task.task.ref) (state.record (.queueing task.task))
  have hMarkerEq : (scheduler.queueTasks state task unreachable).marker =
      ((state.control scheduler).emit scheduler.dsl task.task.ref task.task.stream task.delay
        keep).marker := by
    funext edge
    unfold queueTasks
    rw [hMarker]
    unfold Control.emit
    by_cases hEdge : edge.src = task.task.ref ∧ edge.stream = task.task.stream ∧
        (edge.dst, edge.type) ∈ scheduler.dsl.adj task.task.ref
    · simp only [if_pos hEdge]
      have hIff := hKeep edge hEdge.1 hEdge.2.1 hEdge.2.2
      by_cases hType : keep edge.type
      · rw [if_neg (fun h => by simp [hIff.mp h] at hType), if_pos hType]
      · rw [if_pos (hIff.mpr (by simpa using hType)), if_neg hType]
    · simp only [if_neg hEdge]
      rfl
  have hIndegreeEq : (scheduler.queueTasks state task unreachable).indegree scheduler =
      ((state.control scheduler).emit scheduler.dsl task.task.ref task.task.stream task.delay
        keep).indegree := by
    funext other
    exact hIndegree other
  unfold State.control
  rw [hMarkerEq, hIndegreeEq]
  unfold queueTasks
  rw [hFrame, hQueue]
  rfl

@[simp] theorem control_handleSuccessPath (state : State) (task : DelayedTask) :
    (scheduler.handleSuccessPath state task).control scheduler =
      (state.control scheduler).emit scheduler.dsl task.task.ref task.task.stream task.delay
        (· = .success) := by
  unfold handleSuccessPath
  refine scheduler.control_queueTasks _ task _ _ fun edge hSrc hStream hNext => ?_
  rw [mem_outEdges]
  simp [hSrc, hStream, hNext]

@[simp] theorem control_queueSkipped (state : State) (task : DelayedTask) :
    (scheduler.queueSkipped state task).control scheduler =
      (state.control scheduler).emit scheduler.dsl task.task.ref task.task.stream task.delay
        (fun _ => false) := by
  unfold queueSkipped
  refine scheduler.control_queueTasks _ task _ _ fun edge hSrc hStream hNext => ?_
  rw [mem_outEdges]
  simp [hSrc, hStream, hNext]

@[simp] theorem control_queueTasks_nil (state : State) (task : DelayedTask) :
    (scheduler.queueTasks state task []).control scheduler =
      (state.control scheduler).emit scheduler.dsl task.task.ref task.task.stream task.delay
        (fun _ => true) :=
  scheduler.control_queueTasks _ task _ _ fun _ _ _ _ => by simp

end DSLScheduler

end Tracecat
