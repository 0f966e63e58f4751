import Tracecat.Scheduler.Shape

/-!
# Skip streams

No edge of a stream below a skip segment is ever `VISITED`, so no action is
reachable there: a task of such a stream passes its skip on, or it is the
gather of an empty scatter.  The invariant fails in two ways, which
`KeepsSkips` rules out: an exception in a skip stream marks error edges, and a
loop end that is skipped without its loop start marks success edges.
-/

namespace Tracecat

/-- The invariant of skip streams. -/
structure Control.SkipsQuiet (scheduler : DSLScheduler) (control : Control) : Prop where
  unvisited : ∀ edge, edge.stream.hasSkip → control.marker edge ≠ .visited
  points : ∀ coroutine ∈ control.pending, coroutine.task.stream.hasSkip →
    coroutine.pc = .start ∨ coroutine.pc = .runIf ∨
      ∃ parent, coroutine.pc = .gatherEmpty parent ∧ parent.hasSkip = false
  tasks : ∀ task, (∃ queued ∈ control.queue, queued.task = task) ∨
      (∃ coroutine ∈ control.pending, coroutine.task = task) → task.stream.hasSkip →
    (∃ base scope, task.stream = .child base scope .skip) ∧
      ∀ stmt, scheduler.dsl.stmt? task.ref = some stmt → stmt.deps ≠ []
  opened : ∀ task, control.opened task ≠ none → task.stream.hasSkip = false

namespace DSLScheduler

variable (scheduler : DSLScheduler)

/-- A step that passes skips on: nothing raises in a skip stream, and a loop
end that runs in a skip stream knows that its loop start was skipped there. -/
structure KeepsSkips (state : State) (event : Event) : Prop where
  raises : ∀ resumption, scheduler.resumed? state event = some resumption →
    resumption.coroutine.task.stream.hasSkip → resumption.segment.raises = false
  loopEnd : ∀ resumption, scheduler.resumed? state event = some resumption →
    resumption.stmt.action = .loopEnd → resumption.coroutine.task.stream.hasSkip →
    ∀ region, scheduler.regionByEnd? resumption.coroutine.task.ref = some region →
      (region.startRef, resumption.coroutine.task.stream) ∈ state.loopStartSkips

end DSLScheduler

/-- What a skipped task of a skip stream does to the control state. -/
inductive SkipEffect (scheduler : DSLScheduler) (control : Control) (coroutine : Coroutine) :
    Control → Option PC → Prop
  | wait : SkipEffect scheduler control coroutine control (some .runIf)
  | emit : SkipEffect scheduler control coroutine
      (control.emit scheduler.dsl coroutine.task.ref coroutine.task.stream
        coroutine.delayed.delay fun _ => false) none
  | scatter : SkipEffect scheduler control coroutine
      (control.scatterSkip scheduler.dsl coroutine.task) none
  | gather {base parent : StreamID} {scatter : Ref}
      (hStream : coroutine.task.stream = .child base scatter .skip)
      (hParent : control.parent coroutine.task.stream = some (some parent))
      (hOpened : control.opened ⟨scatter, parent⟩ ≠ none) :
      SkipEffect scheduler control coroutine control (some (.gatherEmpty parent))

/-- The segment of a skipped task of a skip stream. -/
def Segment.Skips (scheduler : DSLScheduler) (control : Control) (coroutine : Coroutine) :
    Segment → Prop
  | .finish after => SkipEffect scheduler control coroutine (after.control scheduler) none
  | .suspend after pc =>
      SkipEffect scheduler control coroutine (after.control scheduler) (some pc)
  | .raise _ _ _ => True

namespace DSLScheduler

variable {scheduler : DSLScheduler} {state : State} {coroutine : Coroutine}
  {stmt : ActionStatement}

/-- With no `VISITED` in-edge an action with dependencies is unreachable. -/
theorem isReachable_eq_false (state : State) (task : Task) {stmt : ActionStatement}
    (hDeps : stmt.deps ≠ [])
    (hUnvisited : ∀ edge : DSLEdge, edge.stream = task.stream → state.marker edge ≠ .visited) :
    isReachable state task stmt = false := by
  have hNone : ∀ dep, edgeHasMarker state dep task.ref .visited task.stream = false := by
    intro dep
    simpa [edgeHasMarker] using hUnvisited ⟨dep.1, task.ref, dep.2, task.stream⟩ rfl
  unfold isReachable
  split
  · contradiction
  · exact hNone _
  · rename_i hMany
    have hEmpty : stmt.deps.filter (fun dep =>
        edgeHasMarker state dep task.ref .visited task.stream) = [] :=
      List.filter_eq_nil_iff.mpr fun dep _ => by simp [hNone]
    simp only [hEmpty, List.length_nil]
    split
    · rfl
    · simpa using fun h => hDeps (List.length_eq_zero_iff.mp h.symm)

theorem SkipEffect.emit_of_eq {control middle : Control} (hSame : middle = control) :
    SkipEffect scheduler control coroutine
      (middle.emit scheduler.dsl coroutine.task.ref coroutine.task.stream
        coroutine.delayed.delay fun _ => false) none :=
  hSame ▸ .emit

variable (state) in
/-- A gather in a skip stream closes an empty scatter, or passes the skip on. -/
theorem handleGather_skips {base : StreamID} {scope : Ref}
    (hStream : coroutine.task.stream = .child base scope .skip) :
    (scheduler.handleGather state coroutine.delayed stmt true).Skips scheduler
      (state.control scheduler) coroutine := by
  unfold handleGather
  simp only [Coroutine.delayed_task]
  split
  · rename_i hRoot
    simp [hStream] at hRoot
  · rename_i other scatter hSkip
    split
    · trivial
    · rename_i parent hParent
      split
      · rename_i hOpened
        split
        · trivial
        · simp only [Segment.Skips, State.control_record]
          refine .gather hSkip ?_ (Option.isSome_iff_ne_none.mp hOpened)
          unfold parentStream at hParent
          split at hParent <;> cases hParent
          assumption
      · simp only [Segment.Skips, control_queueSkipped]
        exact SkipEffect.emit_of_eq rfl
  · rename_i hItem
    simp [hStream] at hItem

variable (state) in
theorem handleSkipPath_skips {base : StreamID} {scope : Ref}
    (hStream : coroutine.task.stream = .child base scope .skip)
    (hLoopEnd : stmt.action = .loopEnd → ∀ region,
      scheduler.regionByEnd? coroutine.task.ref = some region →
      (region.startRef, coroutine.task.stream) ∈ state.loopStartSkips) :
    (scheduler.handleSkipPath state coroutine.delayed stmt).Skips scheduler
      (state.control scheduler) coroutine := by
  unfold handleSkipPath
  simp only
  split
  · -- a skipped loop start
    unfold handleLoopStart
    simp only [if_true, Segment.Skips, control_queueSkipped]
    exact SkipEffect.emit_of_eq rfl
  · -- a loop end whose loop start was skipped in the same stream
    rename_i hAction
    unfold handleLoopEnd
    split
    · trivial
    · rename_i region hRegion
      have hSkipped := hLoopEnd hAction region hRegion
      split
      · trivial
      · simp only [if_true, Coroutine.delayed_task]
        have hMem : (region.startRef, coroutine.task.stream) ∈
            (state.record (.skipping coroutine.task)).loopStartSkips := hSkipped
        simp only [hMem, decide_true, if_true]
        split
        · trivial
        · simp only [Segment.Skips, control_queueSkipped]
          exact SkipEffect.emit_of_eq (State.control_writeAction scheduler _ _ _ _ _)
  · -- a skipped scatter
    unfold handleScatter
    simp only [if_true, Segment.Skips, control_handleScatterSkipStream]
    exact .scatter
  · exact handleGather_skips (state.record _) hStream
  · simp only [Segment.Skips, control_queueSkipped]
    exact SkipEffect.emit_of_eq rfl

variable (state) in
/-- An unreachable task that passes the reachability test raises. -/
theorem checkReachable_raises {runIfError : Option Exn}
    (hUnreachable : isReachable state coroutine.task stmt = false) :
    (scheduler.checkReachable state coroutine stmt runIfError).raises := by
  unfold checkReachable
  simp [hUnreachable, Segment.raises]

theorem resume_skips {outcome : Outcome} {segment : Segment} {base : StreamID} {scope : Ref}
    (hStream : coroutine.task.stream = .child base scope .skip) (hDeps : stmt.deps ≠ [])
    (hUnvisited : ∀ edge : DSLEdge, edge.stream = coroutine.task.stream →
      state.marker edge ≠ .visited)
    (hLoopEnd : stmt.action = .loopEnd → ∀ region,
      scheduler.regionByEnd? coroutine.task.ref = some region →
      (region.startRef, coroutine.task.stream) ∈ state.loopStartSkips)
    (hPc : coroutine.pc = .start ∨ coroutine.pc = .runIf)
    (hResume : scheduler.resume state coroutine stmt coroutine.pc outcome = some segment) :
    segment.raises ∨ segment.Skips scheduler (state.control scheduler) coroutine := by
  have hUnreachable := isReachable_eq_false state coroutine.task hDeps hUnvisited
  have hResumes := resumes_of_resume hResume
  generalize coroutine.pc = pc at hPc hResumes
  cases hResumes with
  | starts =>
      unfold scheduleTask
      simp only
      split
      · exact Or.inr (handleSkipPath_skips (state.record _) hStream hLoopEnd)
      · split
        · exact Or.inr .wait
        · exact Or.inl (checkReachable_raises (state.record _) hUnreachable)
  | skips => exact Or.inr (handleSkipPath_skips state hStream hLoopEnd)
  | runs | runIfRaises => exact Or.inl (checkReachable_raises state hUnreachable)
  | raises hError => exact Or.inl rfl
  | _ => simp at hPc

end DSLScheduler

/-! ## The invariant along a step -/

namespace Control.SkipsQuiet

variable {scheduler : DSLScheduler} {control : Control}

/-- An emission keeps the invariant when it visits no edge of a skip stream. -/
theorem emit (hQuiet : control.SkipsQuiet scheduler)
    (hNodup : (scheduler.dsl.actions.map ActionStatement.ref).Nodup) {src : Ref}
    {stream : StreamID} {delay : Int} {keep : EdgeType → Bool}
    (hKeep : stream.hasSkip → ∀ type, keep type = false)
    (hTail : stream.hasSkip → ∃ base scope, stream = .child base scope .skip) :
    (control.emit scheduler.dsl src stream delay keep).SkipsQuiet scheduler := by
  refine ⟨fun edge hSkip => ?_, hQuiet.points, fun task hTask hSkip => ?_, hQuiet.opened⟩
  · simp only [Control.emit]
    split
    · rename_i hEdge
      rw [hEdge.2.1] at hSkip
      simp [hKeep hSkip]
    · exact hQuiet.unvisited edge hSkip
  · rcases hTask with ⟨queued, hQueued, rfl⟩ | hPending
    · rcases List.mem_append.mp hQueued with hOld | hNew
      · exact hQuiet.tasks _ (Or.inl ⟨queued, hOld, rfl⟩) hSkip
      · obtain ⟨ref, hReleased, rfl⟩ := List.mem_map.mp hNew
        obtain ⟨stmt, hStmt, rfl, type, hDep⟩ := Control.mem_released hReleased
        refine ⟨hTail hSkip, fun other hOther hNone => ?_⟩
        rw [DSLInput.stmt?_eq_some_of_mem hNodup hStmt] at hOther
        cases hOther
        simp [hNone] at hDep
    · exact hQuiet.tasks task (Or.inr hPending) hSkip

/-- The invariant reads the queue, the coroutines, the markers and the open
counts. -/
theorem congr {other : Control} (hQuiet : control.SkipsQuiet scheduler)
    (hQueue : other.queue = control.queue) (hPending : other.pending = control.pending)
    (hMarker : other.marker = control.marker) (hOpened : other.opened = control.opened) :
    other.SkipsQuiet scheduler := by
  refine ⟨?_, ?_, ?_, ?_⟩
  · rw [hMarker]
    exact hQuiet.unvisited
  · rw [hPending]
    exact hQuiet.points
  · rw [hQueue, hPending]
    exact hQuiet.tasks
  · rw [hOpened]
    exact hQuiet.opened

/-- A change of one open count keeps the invariant outside skip streams. -/
theorem update_opened (hQuiet : control.SkipsQuiet scheduler) {other : Control} {task : Task}
    {count : Option Int} (hQueue : other.queue = control.queue)
    (hPending : other.pending = control.pending) (hMarker : other.marker = control.marker)
    (hOpened : other.opened = Function.update control.opened task count)
    (hTask : task.stream.hasSkip = false) : other.SkipsQuiet scheduler := by
  refine ⟨?_, ?_, ?_, fun target hSome => ?_⟩
  · rw [hMarker]
    exact hQuiet.unvisited
  · rw [hPending]
    exact hQuiet.points
  · rw [hQueue, hPending]
    exact hQuiet.tasks
  · rw [hOpened, Function.update_apply] at hSome
    split at hSome
    · rename_i hEq
      rw [hEq, hTask]
    · exact hQuiet.opened target hSome

theorem settle {after : Control} (hQuiet : after.SkipsQuiet scheduler) {index : Nat}
    {coroutine : Coroutine} {pc : Option PC} (hMem : coroutine ∈ after.pending)
    (hPoint : ∀ next, pc = some next → coroutine.task.stream.hasSkip →
      next = .start ∨ next = .runIf ∨
        ∃ parent, next = .gatherEmpty parent ∧ parent.hasSkip = false) :
    (after.settle index coroutine pc).SkipsQuiet scheduler := by
  cases pc with
  | none =>
      refine ⟨hQuiet.unvisited, fun other hOther => ?_, fun task hTask => ?_, hQuiet.opened⟩
      · exact hQuiet.points other (List.mem_of_mem_eraseIdx hOther)
      · refine hQuiet.tasks task (hTask.imp id ?_)
        rintro ⟨other, hOther, rfl⟩
        exact ⟨other, List.mem_of_mem_eraseIdx hOther, rfl⟩
  | some pc =>
      refine ⟨hQuiet.unvisited, fun other hOther hSkip => ?_, fun task hTask => ?_,
        hQuiet.opened⟩
      · rcases List.mem_or_eq_of_mem_set hOther with hOld | rfl
        · exact hQuiet.points other hOld hSkip
        · exact hPoint pc rfl hSkip
      · refine hQuiet.tasks task (hTask.imp id ?_)
        rintro ⟨other, hOther, rfl⟩
        rcases List.mem_or_eq_of_mem_set hOther with hOld | rfl
        · exact ⟨other, hOld, rfl⟩
        · exact ⟨coroutine, hMem, rfl⟩

end Control.SkipsQuiet

namespace DSLScheduler

variable {scheduler : DSLScheduler} {control after : Control} {coroutine : Coroutine}
  {stmt : ActionStatement} {pc : Option PC}

theorem SkipEffect.quiet (hBuilt : scheduler.Built)
    (hEffect : SkipEffect scheduler control coroutine after pc)
    (hQuiet : control.SkipsQuiet scheduler) (hMem : coroutine ∈ control.pending)
    (hSkip : coroutine.task.stream.hasSkip) (index : Nat) :
    (after.settle index coroutine pc).SkipsQuiet scheduler := by
  have hNodup := hBuilt.placed.validated.refs_nodup
  have hTail := (hQuiet.tasks coroutine.task (Or.inr ⟨coroutine, hMem, rfl⟩) hSkip).1
  cases hEffect with
  | wait =>
      refine hQuiet.settle hMem fun next hNext _ => ?_
      cases hNext
      exact Or.inr (Or.inl rfl)
  | emit =>
      exact (hQuiet.emit hNodup (fun _ _ => rfl) fun _ => hTail).settle hMem (by simp)
  | scatter =>
      refine Control.SkipsQuiet.settle (Control.SkipsQuiet.emit ?_ hNodup (fun _ _ => rfl)
        fun _ => ⟨_, _, rfl⟩) hMem (by simp)
      exact hQuiet.congr rfl rfl rfl rfl
  | @gather base parent scatter hStream hParent hOpened =>
      refine hQuiet.settle hMem fun next hNext _ => ?_
      cases hNext
      exact Or.inr (Or.inr ⟨parent, rfl, hQuiet.opened ⟨scatter, parent⟩ hOpened⟩)

end DSLScheduler

/-- An effect outside the skip streams keeps the invariant, and so does the
emission of an empty gather. -/
theorem Effect.quiet {scheduler : DSLScheduler} {control after : Control}
    {coroutine : Coroutine} {stmt : ActionStatement} {pc : Option PC}
    (hBuilt : scheduler.Built) (hEffect : Effect scheduler control coroutine stmt after pc)
    (hQuiet : control.SkipsQuiet scheduler) (hShaped : control.Shaped scheduler)
    (hMem : coroutine ∈ control.pending)
    (hOutside : coroutine.task.stream.hasSkip = false ∨
      ∃ parent, coroutine.pc = .gatherEmpty parent ∧ parent.hasSkip = false)
    (hFits : coroutine.pc.fits stmt.action) (index : Nat) :
    (after.settle index coroutine pc).SkipsQuiet scheduler := by
  have hNodup := hBuilt.placed.validated.refs_nodup
  rcases hOutside with hOutside | ⟨parent, hPc, hOutside⟩
  · -- the coroutine is outside the skip streams
    have hBase {parent : StreamID} {scope : Ref} {index : StreamIndex}
        (hStream : coroutine.task.stream = .child parent scope index) :
        parent.hasSkip = false := by
      rw [hStream] at hOutside
      simpa [StreamID.hasSkip] using (Bool.or_eq_false_iff.mp hOutside).2
    have hPending {after : Control} (hSame : after.pending = control.pending) :
        coroutine ∈ after.pending := hSame ▸ hMem
    have hSettle {after : Control} {pc : Option PC} (hAfter : after.SkipsQuiet scheduler)
        (hSame : after.pending = control.pending) :
        (after.settle index coroutine pc).SkipsQuiet scheduler :=
      hAfter.settle (hPending hSame) fun _ _ hSkip => by simp [hOutside] at hSkip
    have hItem (item : Nat) :
        (StreamID.new coroutine.task.ref item coroutine.task.stream).hasSkip = false := by
      simp [StreamID.hasSkip, hOutside]
    cases hEffect with
    | wait => exact hSettle hQuiet rfl
    | emit =>
        exact hSettle (hQuiet.emit hNodup (by simp [hOutside]) (by simp [hOutside])) rfl
    | halt => exact hSettle (hQuiet.congr rfl rfl rfl rfl) rfl
    | haltScatter => exact hSettle (hQuiet.congr rfl rfl rfl rfl) rfl
    | @loopBack region _ removed =>
        refine hSettle ⟨fun edge hSkip => ?_, hQuiet.points, fun task hTask hSkip => ?_,
          fun task hSome => ?_⟩ rfl
        · simp only [Control.reset]
          split
          · simp
          · exact hQuiet.unvisited edge hSkip
        · rcases hTask with ⟨queued, hQueued, rfl⟩ | hPending
          · rcases List.mem_append.mp hQueued with hOld | hNew
            · exact hQuiet.tasks _ (Or.inl ⟨queued, hOld, rfl⟩) hSkip
            · rw [List.mem_singleton.mp hNew] at hSkip
              simp [hOutside] at hSkip
          · exact hQuiet.tasks task (Or.inr hPending) hSkip
        · simp only [Control.reset] at hSome
          split at hSome
          · exact absurd rfl hSome
          · exact hQuiet.opened task hSome
    | skipScatter =>
        refine hSettle (Control.SkipsQuiet.emit ?_ hNodup (fun _ _ => rfl)
          fun _ => ⟨_, _, rfl⟩) rfl
        exact hQuiet.congr rfl rfl rfl rfl
    | emptyScatter =>
        refine hSettle (Control.SkipsQuiet.emit ?_ hNodup (fun _ _ => rfl)
          fun _ => ⟨_, _, rfl⟩) rfl
        exact hQuiet.update_opened rfl rfl rfl rfl hOutside
    | firstItem =>
        refine hSettle (Control.SkipsQuiet.emit ?_ hNodup ?_ ?_) rfl
        · exact hQuiet.congr rfl rfl rfl rfl
        · simp [hItem]
        · simp [hItem]
    | nextItem =>
        refine hSettle (Control.SkipsQuiet.emit ?_ hNodup ?_ ?_) rfl
        · exact hQuiet.congr rfl rfl rfl rfl
        · simp [hItem]
        · simp [hItem]
    | scattered => exact hSettle (hQuiet.update_opened rfl rfl rfl rfl hOutside) rfl
    | waitItem => exact hSettle hQuiet rfl
    | @close base parent scatter item _ _ hAction hStream hParent hOpened =>
        refine hSettle (hQuiet.update_opened rfl rfl rfl rfl ?_) rfl
        exact hQuiet.opened ⟨scatter, parent⟩ (by simp [hOpened])
    | @closeLast base parent scatter item _ _ _ hAction hStream hParent hOpened =>
        refine hSettle (hQuiet.update_opened rfl rfl rfl rfl ?_) rfl
        exact hQuiet.opened ⟨scatter, parent⟩ (by simp [hOpened])
    | finalized => exact hSettle hQuiet rfl
    | @gathered parent hAction hPc =>
        obtain ⟨scope, index, hStream⟩ :=
          hShaped.waiting coroutine hMem parent (by simp [hPc, PC.parent?])
        have hParent := hBase hStream
        exact hSettle (hQuiet.emit hNodup (by simp [hParent]) (by simp [hParent])) rfl
    | waitEmpty hAction hPc hStream hParent hOpened =>
        rw [hStream] at hOutside
        simp [StreamID.hasSkip] at hOutside
    | @gatheredEmpty parent hAction hPc =>
        obtain ⟨scope, index, hStream⟩ :=
          hShaped.waiting coroutine hMem parent (by simp [hPc, PC.parent?])
        have hParent := hBase hStream
        exact hSettle (hQuiet.emit hNodup (by simp [hParent]) (by simp [hParent])) rfl
  · -- the gather of an empty scatter
    have hAction : stmt.action = .transformGather := by simpa [PC.fits, hPc] using hFits
    cases hEffect with
    | gatheredEmpty hKind hPoint =>
        rw [hPc] at hPoint
        cases hPoint
        exact (hQuiet.emit hNodup (by simp [hOutside]) (by simp [hOutside])).settle hMem
          (by simp)
    | wait hFrom => simp [hPc, PC.isEarly, PC.isPlainWait] at hFrom
    | close hKind hStream hParent => simp [hPc, PC.isEarly] at hParent
    | closeLast hKind hStream hParent => simp [hPc, PC.isEarly] at hParent
    | _ => simp_all [PC.isEarly]

namespace DSLScheduler

variable {scheduler : DSLScheduler} {state next : State} {event : Event}

theorem skipsQuiet_step (hBuilt : scheduler.Built)
    (hQuiet : (state.control scheduler).SkipsQuiet scheduler)
    (hShaped : (state.control scheduler).Shaped scheduler)
    (hFitted : (state.control scheduler).Fitted scheduler)
    (hContained : scheduler.Contained state event) (hKeeps : scheduler.KeepsSkips state event)
    (hStep : scheduler.step state event = some next) :
    (next.control scheduler).SkipsQuiet scheduler := by
  by_cases hSilent : ∃ resumption, scheduler.resumed? state event = some resumption ∧
      resumption.coroutine.task.stream.hasSkip ∧
      (resumption.coroutine.pc = .start ∨ resumption.coroutine.pc = .runIf)
  · -- a task of a skip stream that has not been handled yet
    obtain ⟨resumption, hResumed, hSkip, hPc⟩ := hSilent
    obtain ⟨outcome, -, hPending, hStmt, hSegment⟩ := scheduler.resumed?_eq_some hResumed
    have hMem : resumption.coroutine ∈ (state.control scheduler).pending :=
      List.mem_of_getElem? hPending
    obtain ⟨⟨base, scope, hStream⟩, hDeps⟩ :=
      hQuiet.tasks resumption.coroutine.task (Or.inr ⟨_, hMem, rfl⟩) hSkip
    have hQuietSegment := (resume_skips hStream (hDeps _ hStmt)
      (fun edge hEdge => hQuiet.unvisited edge (hEdge ▸ hSkip))
      (fun hAction region hRegion => hKeeps.loopEnd _ hResumed hAction hSkip region hRegion)
      hPc hSegment).resolve_left (by simp [hKeeps.raises _ hResumed hSkip])
    rcases scheduler.step_eq_some.mp hStep with ⟨rfl, -⟩ | ⟨other, hOther, rfl⟩
    · simp [resumed?] at hResumed
    · rw [hResumed] at hOther
      cases hOther
      cases hKind : resumption.segment with
      | finish after =>
          rw [hKind] at hQuietSegment
          exact SkipEffect.quiet hBuilt hQuietSegment hQuiet hMem hSkip _
      | suspend after pc =>
          rw [hKind] at hQuietSegment
          exact SkipEffect.quiet hBuilt hQuietSegment hQuiet hMem hSkip _
      | raise after exc platform =>
          have hNone := hKeeps.raises _ hResumed hSkip
          simp [hKind, Segment.raises] at hNone
  · have hMove := scheduler.step_move hFitted hContained hStep
    obtain ⟨control, hNext⟩ : ∃ control, control = next.control scheduler := ⟨_, rfl⟩
    rw [← hNext] at hMove ⊢
    cases hLabel : scheduler.resumed? state event with
    | none =>
        rw [hLabel] at hMove
        cases hMove with
        | spawn hLive hQueue =>
            refine ⟨hQuiet.unvisited, fun coroutine hMem hSkip => ?_, fun task hTask => ?_,
              hQuiet.opened⟩
            · rcases List.mem_append.mp hMem with hOld | hNew
              · exact hQuiet.points coroutine hOld hSkip
              · rw [List.mem_singleton.mp hNew]
                exact Or.inl rfl
            · refine hQuiet.tasks task ?_
              rcases hTask with ⟨queued, hQueued, rfl⟩ | ⟨coroutine, hMem, rfl⟩
              · exact Or.inl ⟨queued, hQueue ▸ List.mem_cons_of_mem _ hQueued, rfl⟩
              · rcases List.mem_append.mp hMem with hOld | hNew
                · exact Or.inr ⟨coroutine, hOld, rfl⟩
                · rw [List.mem_singleton.mp hNew]
                  exact Or.inl ⟨_, hQueue ▸ List.mem_cons_self, rfl⟩
    | some resumption =>
        rw [hLabel] at hMove
        cases hMove with
        | @resume index _ stmt after pc hPending hStmt hFits hEffect =>
            have hMem := List.mem_of_getElem? hPending
            refine hEffect.quiet hBuilt hQuiet hShaped hMem ?_ hFits index
            by_cases hSkip : resumption.coroutine.task.stream.hasSkip
            · rcases hQuiet.points _ hMem hSkip with hPc | hPc | hPc
              · exact absurd ⟨resumption, hLabel, hSkip, Or.inl hPc⟩ hSilent
              · exact absurd ⟨resumption, hLabel, hSkip, Or.inr hPc⟩ hSilent
              · exact Or.inr hPc
            · exact Or.inl (by simpa using hSkip)

end DSLScheduler

theorem State.skipsQuiet_init {scheduler : DSLScheduler} (context : ExecutionContext) :
    ((State.init scheduler context).control scheduler).SkipsQuiet scheduler := by
  refine ⟨fun edge _ => by simp [State.control, State.init, State.marker, Dict.getD],
    by simp [State.control, State.init], fun task hTask hSkip => ?_,
    fun task hSome => absurd rfl hSome⟩
  rcases hTask with ⟨queued, hQueued, rfl⟩ | ⟨coroutine, hMem, -⟩
  · obtain ⟨stmt, -, rfl⟩ := List.mem_map.mp hQueued
    simp [StreamID.hasSkip] at hSkip
  · simp [State.control, State.init] at hMem

end Tracecat
