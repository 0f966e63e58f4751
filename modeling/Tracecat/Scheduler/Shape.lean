import Tracecat.Scheduler.Regions

/-!
# The shape of streams

Every queued or pending task is in a stream whose segments are the scatters
around its action.  The invariant passes along every move that does not resume
a gather whose dependencies lie in several scopes.
-/

namespace Tracecat

/-- The stream in which a suspended gather stores its result. -/
def PC.parent? : PC → Option StreamID
  | gatherItem parent | gatherFinalize parent _ _ | gatherEmpty parent | gatherExec parent =>
      some parent
  | _ => none

/-- The task belongs to an action and its stream has the shape of the action,
unless the action is a mixed gather. -/
def Task.AtHome (scheduler : DSLScheduler) (task : Task) : Prop :=
  ∃ stmt, scheduler.dsl.stmt? task.ref = some stmt ∧
    (¬ scheduler.dsl.IsMixedGather scheduler.assigned task.ref →
      task.stream.scatters = scheduler.dsl.path scheduler.assigned task.ref)

structure Control.Shaped (scheduler : DSLScheduler) (control : Control) : Prop where
  queue : ∀ queued ∈ control.queue, queued.task.AtHome scheduler
  pending : ∀ coroutine ∈ control.pending, coroutine.task.AtHome scheduler
  parent : ∀ stream parent, control.parent stream = some (some parent) →
    ∃ scope index, stream = .child parent scope index
  waiting : ∀ coroutine ∈ control.pending, ∀ parent, coroutine.pc.parent? = some parent →
    ∃ scope index, coroutine.task.stream = .child parent scope index

namespace Control

variable {scheduler : DSLScheduler} {control : Control}

theorem mem_released {src ref : Ref} {stream : StreamID}
    (hReleased : ref ∈ control.released scheduler.dsl src stream) :
    ∃ stmt ∈ scheduler.dsl.actions, stmt.ref = ref ∧ ∃ type, (src, type) ∈ stmt.deps := by
  obtain ⟨⟨dst, type⟩, hNext, rfl⟩ :=
    List.mem_map.mp (Countdown.released_subset _ _ hReleased)
  obtain ⟨stmt, hStmt, hRef, hDep⟩ := DSLInput.mem_adj.mp hNext
  exact ⟨stmt, hStmt, hRef, type, hDep⟩

/-- What an emission queues is at home when the emission has the shape that
its source leaves behind. -/
theorem atHome_of_released (hBuilt : scheduler.Built) {src ref : Ref} {stream : StreamID}
    (hShape : stream.scatters = DSLInput.outPath scheduler.assigned src)
    (hReleased : ref ∈ control.released scheduler.dsl src stream) :
    Task.AtHome scheduler ⟨ref, stream⟩ := by
  obtain ⟨stmt, hStmt, rfl, type, hDep⟩ := mem_released hReleased
  refine ⟨stmt, hBuilt.placed.stmt?_eq hStmt, fun hMixed => ?_⟩
  rw [hBuilt.placed.path_of_dep hStmt hMixed hDep, hShape]

theorem Shaped.emit (hBuilt : scheduler.Built) (hShaped : control.Shaped scheduler) {src : Ref}
    {stream : StreamID} (hShape : stream.scatters = DSLInput.outPath scheduler.assigned src)
    (delay : Int) (keep : EdgeType → Bool) :
    (control.emit scheduler.dsl src stream delay keep).Shaped scheduler := by
  refine ⟨fun queued hQueued => ?_, hShaped.pending, hShaped.parent, hShaped.waiting⟩
  rcases List.mem_append.mp hQueued with hOld | hNew
  · exact hShaped.queue queued hOld
  · obtain ⟨ref, hReleased, rfl⟩ := List.mem_map.mp hNew
    exact atHome_of_released hBuilt hShape hReleased

theorem Shaped.openStream (hShaped : control.Shaped scheduler) (parent : StreamID) (scope : Ref)
    (index : StreamIndex) :
    (control.openStream (.child parent scope index) parent).Shaped scheduler := by
  refine ⟨hShaped.queue, hShaped.pending, fun stream other hOther => ?_, hShaped.waiting⟩
  simp only [Control.openStream, Function.update_apply] at hOther
  split at hOther
  · cases hOther
    exact ⟨scope, index, ‹_›⟩
  · exact hShaped.parent stream other hOther

/-- The invariant reads only the queue, the coroutines and the hierarchy. -/
theorem Shaped.congr {other : Control} (hShaped : control.Shaped scheduler)
    (hQueue : other.queue = control.queue) (hPending : other.pending = control.pending)
    (hParent : other.parent = control.parent) : other.Shaped scheduler := by
  refine ⟨?_, ?_, ?_, ?_⟩
  · rw [hQueue]
    exact hShaped.queue
  · rw [hPending]
    exact hShaped.pending
  · rw [hParent]
    exact hShaped.parent
  · rw [hPending]
    exact hShaped.waiting

theorem Shaped.scatterItem (hBuilt : scheduler.Built) (hShaped : control.Shaped scheduler)
    {task : Task} (hShape : ∀ index, (StreamID.child task.stream task.ref index).scatters =
      DSLInput.outPath scheduler.assigned task.ref)
    (streams : List StreamID) (delay : Int) :
    (control.scatterItem scheduler.dsl task streams delay).Shaped scheduler := by
  unfold Control.scatterItem
  refine Shaped.emit hBuilt ?_ (hShape _) _ _
  exact (hShaped.openStream task.stream task.ref (.item streams.length)).congr rfl rfl rfl

end Control

section Effects

variable {scheduler : DSLScheduler} {control after : Control} {coroutine : Coroutine}
  {stmt : ActionStatement} {pc : Option PC}

/-- The shape that the resumed action leaves behind in its own stream. -/
theorem Control.Shaped.shape_of_coroutine (hShaped : control.Shaped scheduler)
    (hMem : coroutine ∈ control.pending)
    (hMixed : ¬ scheduler.dsl.IsMixedGather scheduler.assigned coroutine.task.ref) :
    coroutine.task.stream.scatters =
      scheduler.dsl.path scheduler.assigned coroutine.task.ref := by
  obtain ⟨_, _, hHome⟩ := hShaped.pending coroutine hMem
  exact hHome hMixed

/-- A gather leaves its successors in the stream in which it stores its
result. -/
theorem Control.Shaped.shape_of_parent (hBuilt : scheduler.Built)
    (hShaped : control.Shaped scheduler) (hMem : coroutine ∈ control.pending)
    (hStmt : scheduler.dsl.stmt? coroutine.task.ref = some stmt)
    (hAction : stmt.action = .transformGather)
    (hMixed : ¬ scheduler.dsl.IsMixedGather scheduler.assigned coroutine.task.ref)
    {parent : StreamID} (hParent : coroutine.pc.parent? = some parent) :
    parent.scatters = DSLInput.outPath scheduler.assigned coroutine.task.ref := by
  obtain ⟨hStmtMem, hRef⟩ := DSLInput.stmt?_some_mem hStmt
  obtain ⟨scope, index, hStream⟩ := hShaped.waiting coroutine hMem parent hParent
  have hShape := hShaped.shape_of_coroutine hMem hMixed
  rw [← hRef] at hMixed hShape ⊢
  obtain ⟨scatter, -, -, -, hPath, -⟩ := hBuilt.placed.path_gather hStmtMem hAction hMixed
  rw [hPath, hStream] at hShape
  exact (List.cons.inj hShape).2

/-- An effect keeps the shape invariant, up to the suspended coroutine. -/
theorem Effect.shaped (hBuilt : scheduler.Built)
    (hEffect : Effect scheduler control coroutine stmt after pc)
    (hShaped : control.Shaped scheduler) (hMem : coroutine ∈ control.pending)
    (hStmt : scheduler.dsl.stmt? coroutine.task.ref = some stmt)
    (hMixed : ¬ scheduler.dsl.IsMixedGather scheduler.assigned coroutine.task.ref) :
    after.Shaped scheduler ∧
      ∀ next parent, pc = some next → next.parent? = some parent →
        ∃ scope index, coroutine.task.stream = .child parent scope index := by
  obtain ⟨hStmtMem, hRef⟩ := DSLInput.stmt?_some_mem hStmt
  have hShape := hShaped.shape_of_coroutine hMem hMixed
  have hScatterShape (hAction : stmt.action = .transformScatter) (index : StreamIndex) :
      (StreamID.child coroutine.task.stream coroutine.task.ref index).scatters =
        DSLInput.outPath scheduler.assigned coroutine.task.ref := by
    have hOut := hBuilt.placed.outPath_scatter hStmtMem hAction
    rw [hRef] at hOut
    rw [hOut, ← hShape]
    rfl
  cases hEffect with
  | @wait waitPc hFrom hWait hFits =>
      refine ⟨hShaped, fun next parent hNext hParent => ?_⟩
      cases hNext
      cases waitPc <;> simp_all [PC.isPlainWait, PC.parent?]
  | emit hScatter hGather =>
      have hOut := hBuilt.placed.outPath_other hStmtMem hScatter hGather
      rw [hRef] at hOut
      exact ⟨hShaped.emit hBuilt (hShape.trans hOut.symm) _ _, by simp⟩
  | halt hGather => exact ⟨hShaped.congr rfl rfl rfl, by simp⟩
  | haltScatter hAction hPc => exact ⟨hShaped.congr rfl rfl rfl, by simp⟩
  | @loopBack region index removed hAction hPc hRegion hRemoved =>
      refine ⟨⟨fun queued hQueued => ?_, hShaped.pending, fun stream parent hParent => ?_,
        hShaped.waiting⟩, by simp⟩
      · rcases List.mem_append.mp hQueued with hOld | hNew
        · exact hShaped.queue queued hOld
        · rw [List.mem_singleton.mp hNew]
          obtain ⟨hEnd, startStmt, endStmt, hHas⟩ :=
            DSLScheduler.HasRegion.of_regionByEnd? hBuilt hRegion
          have hJoins := hHas.joins
          refine ⟨startStmt, ?_, fun _ => ?_⟩
          · simp only
            rw [← hJoins.start_ref]
            exact hBuilt.placed.stmt?_eq hJoins.start_mem
          · simp only
            rw [← hJoins.path_eq hBuilt.placed, hEnd, hShape]
      · simp only [Control.reset] at hParent
        split at hParent
        · cases hParent
        · exact hShaped.parent stream parent hParent
  | skipScatter hAction hPc =>
      exact ⟨(hShaped.openStream _ _ _).emit hBuilt (hScatterShape hAction .skip) _ _, by simp⟩
  | emptyScatter hAction hPc =>
      refine ⟨Control.Shaped.emit hBuilt ?_ (hScatterShape hAction .skip) _ _, by simp⟩
      exact (hShaped.openStream _ _ _).congr rfl rfl rfl
  | firstItem hAction hPc hSize =>
      refine ⟨Control.Shaped.scatterItem hBuilt ?_ (hScatterShape hAction) _ _,
        fun next parent hNext hParent => ?_⟩
      · exact hShaped.congr rfl rfl rfl
      cases hNext
      simp [PC.parent?] at hParent
  | nextItem hAction hPc hSize =>
      refine ⟨Control.Shaped.scatterItem hBuilt hShaped (hScatterShape hAction) _ _,
        fun next parent hNext hParent => ?_⟩
      cases hNext
      simp [PC.parent?] at hParent
  | scattered hAction hPc hSize => exact ⟨hShaped.congr rfl rfl rfl, by simp⟩
  | waitItem hAction hPc hStream hParent =>
      refine ⟨hShaped, fun next other hNext hOther => ?_⟩
      cases hNext
      cases hOther
      exact hShaped.parent _ _ hParent
  | close hAction hStream hParent hOpened hMore hListed =>
      exact ⟨hShaped.congr rfl rfl rfl, by simp⟩
  | closeLast hAction hStream hParent hOpened hListed =>
      refine ⟨hShaped.congr rfl rfl rfl, fun next other hNext hOther => ?_⟩
      cases hNext
      cases hOther
      rcases hParent with hPc | ⟨-, hParent⟩
      · exact hShaped.waiting coroutine hMem _ (by simp [hPc, PC.parent?])
      · exact hShaped.parent _ _ hParent
  | finalized hAction hPc =>
      refine ⟨hShaped, fun next other hNext hOther => ?_⟩
      cases hNext
      cases hOther
      exact hShaped.waiting coroutine hMem _ (by simp [hPc, PC.parent?])
  | gathered hAction hPc =>
      refine ⟨hShaped.emit hBuilt ?_ _ _, by simp⟩
      exact hShaped.shape_of_parent hBuilt hMem hStmt hAction hMixed (by simp [hPc, PC.parent?])
  | waitEmpty hAction hPc hStream hParent hOpened =>
      refine ⟨hShaped, fun next other hNext hOther => ?_⟩
      cases hNext
      cases hOther
      exact hShaped.parent _ _ hParent
  | gatheredEmpty hAction hPc =>
      refine ⟨hShaped.emit hBuilt ?_ _ _, by simp⟩
      exact hShaped.shape_of_parent hBuilt hMem hStmt hAction hMixed (by simp [hPc, PC.parent?])

theorem Move.shaped (hBuilt : scheduler.Built) {label : Option Coroutine} {next : Control}
    (hMove : Move scheduler control label next) (hShaped : control.Shaped scheduler)
    (hMixed : ∀ coroutine, label = some coroutine →
      ¬ scheduler.dsl.IsMixedGather scheduler.assigned coroutine.task.ref) :
    next.Shaped scheduler := by
  cases hMove with
  | spawn hLive hQueue =>
      refine ⟨fun queued hQueued => ?_, fun coroutine hMem => ?_, hShaped.parent,
        fun coroutine hMem parent hParent => ?_⟩
      · exact hShaped.queue queued (hQueue ▸ List.mem_cons_of_mem _ hQueued)
      · rcases List.mem_append.mp hMem with hOld | hNew
        · exact hShaped.pending coroutine hOld
        · rw [List.mem_singleton.mp hNew]
          exact hShaped.queue _ (hQueue ▸ List.mem_cons_self)
      · rcases List.mem_append.mp hMem with hOld | hNew
        · exact hShaped.waiting coroutine hOld parent hParent
        · rw [List.mem_singleton.mp hNew] at hParent
          simp [PC.parent?] at hParent
  | @resume index coroutine stmt after pc hPending hStmt hFits hEffect =>
      have hMem := List.mem_of_getElem? hPending
      obtain ⟨hAfter, hPoint⟩ := hEffect.shaped hBuilt hShaped hMem hStmt (hMixed _ rfl)
      cases pc with
      | none =>
          refine ⟨hAfter.queue, fun other hOther => ?_, hAfter.parent,
            fun other hOther => ?_⟩
          · exact hAfter.pending other (List.mem_of_mem_eraseIdx hOther)
          · exact hAfter.waiting other (List.mem_of_mem_eraseIdx hOther)
      | some pc =>
          refine ⟨hAfter.queue, fun other hOther => ?_, hAfter.parent,
            fun other hOther parent hParent => ?_⟩
          · rcases List.mem_or_eq_of_mem_set hOther with hOld | rfl
            · exact hAfter.pending other hOld
            · exact hShaped.pending coroutine hMem
          · rcases List.mem_or_eq_of_mem_set hOther with hOld | rfl
            · exact hAfter.waiting other hOld parent hParent
            · exact hPoint pc parent rfl hParent

end Effects

theorem State.shaped_init {scheduler : DSLScheduler} (hBuilt : scheduler.Built)
    (context : ExecutionContext) :
    ((State.init scheduler context).control scheduler).Shaped scheduler := by
  refine ⟨fun queued hQueued => ?_, by simp [State.control, State.init], ?_,
    by simp [State.control, State.init]⟩
  · obtain ⟨stmt, hStmt, rfl⟩ := List.mem_map.mp hQueued
    obtain ⟨hMem, hDeps⟩ := List.mem_filter.mp hStmt
    refine ⟨stmt, hBuilt.placed.stmt?_eq hMem, fun _ => ?_⟩
    have hNone : stmt.deps = [] := List.length_eq_zero_iff.mp
      ((hBuilt.placed.validated.deps_length hMem).trans (by simpa using hDeps))
    rw [hBuilt.placed.path_of_no_deps hMem hNone]
    rfl
  · intro stream parent hParent
    simp only [State.control, State.init, Dict.lookup_insert_eq] at hParent
    split at hParent <;> simp at hParent

end Tracecat
