import Tracecat.Scheduler.Control

/-!
# What a step does to the control state

Every step of a coroutine changes the control state in one of a few ways.
`Effect` lists them, and `resume_effect` shows that the list is complete for
the steps in which no gather raises, no scatter raises inside a stream, and no
gather runs in the skip stream of a scatter that was force-skipped.
-/

namespace Tracecat

/-! ## Suspension points -/

namespace PC

/-- A suspension point whose await does not belong to the stream tables. -/
def isPlainWait : PC → Bool
  | runIf | sleeping | executing | retryUntil _ | loopStartExec | loopEndCond _
  | loopEndExec _ _ | scatterInput => true
  | _ => false

/-- The points before the handler of the action has done anything. -/
def isEarly : PC → Bool
  | start | runIf | sleeping => true
  | _ => false

/-- The suspension points that a coroutine of an action can be in. -/
def fits : PC → ActionType → Bool
  | start, _ | runIf, _ | sleeping, _ => true
  | executing, action | retryUntil _, action => action.isPlain
  | loopStartExec, action => action = .loopStart
  | loopEndCond _, action | loopEndExec _ _, action => action = .loopEnd
  | scatterInput, action | scatterLoop _ _ _, action => action = .transformScatter
  | gatherItem _, action | gatherFinalize _ _ _, action | gatherEmpty _, action
  | gatherExec _, action => action = .transformGather

end PC

/-- A coroutine at such a point begins. -/
theorem DSLScheduler.begins_of_early {scheduler : DSLScheduler} {state : State}
    {coroutine : Coroutine} {stmt : ActionStatement} {outcome : Outcome} {segment : Segment}
    (hEarly : coroutine.pc.isEarly)
    (hResume : scheduler.resume state coroutine stmt coroutine.pc outcome = some segment) :
    Begins scheduler coroutine stmt state segment := by
  have hResumes := resumes_of_resume hResume
  generalize coroutine.pc = pc at hEarly hResumes
  cases hResumes with
  | starts => exact begins_scheduleTask
  | skips => exact .skip handles_handleSkipPath
  | runs | runIfRaises => exact begins_checkReachable _
  | wakes => exact .dispatch handles_dispatch
  | raises => exact .raise _
  | _ => simp [PC.isEarly] at hEarly

/-! ## Operations of the control state -/

namespace Control

/-- A new stream below `parent`. -/
def openStream (control : Control) (stream parent : StreamID) : Control :=
  { control with parent := Function.update control.parent stream (some (some parent)) }

/-- The next stream of a scatter and the emission into it. -/
def scatterItem (dsl : DSLInput) (control : Control) (task : Task) (streams : List StreamID)
    (delay : Int) : Control :=
  { control.openStream (.new task.ref streams.length task.stream) task.stream with
    listed := if control.listed task = some streams then
        Function.update control.listed task
          (some (streams ++ [StreamID.new task.ref streams.length task.stream]))
      else control.listed }.emit dsl task.ref
    (.new task.ref streams.length task.stream) delay fun _ => true

/-- The skip stream of a scatter and the skips sent into it. -/
def scatterSkip (dsl : DSLInput) (control : Control) (task : Task) : Control :=
  (control.openStream (.skip task.ref task.stream) task.stream).emit dsl task.ref
    (.skip task.ref task.stream) 0 fun _ => false

/-- The streams that `_cleanup_loop_descendant_streams` removes: those listed
for the scatters of the region within `base`, and streams below them. -/
structure Removes (control : Control) (members : List Ref) (base : StreamID)
    (removed : List StreamID) : Prop where
  listed : ∀ task streams, control.listed task = some streams → task.ref ∈ members →
    base.within task.stream → ∀ stream ∈ streams, stream ∈ removed
  only : ∀ P : StreamID → Prop,
    (∀ task streams, control.listed task = some streams → task.ref ∈ members →
      base.within task.stream → ∀ stream ∈ streams, P stream) →
    (∀ stream parent, control.parent stream = some (some parent) → P parent → P stream) →
    ∀ stream ∈ removed, P stream

/-- `_reset_loop_iteration_state`, when it removes the streams `removed`. -/
def reset (scheduler : DSLScheduler) (control : Control) (region : LoopRegion)
    (stream : StreamID) (removed : List StreamID) : Control :=
  { control with
    indegree := fun task =>
      match (if task.stream = stream ∧ task.ref ∈ region.members then
          scheduler.dsl.stmt? task.ref else none) with
      | some stmt => (DSLScheduler.internalDeps region stmt : Int)
      | none =>
          if task.stream ∈ removed then (scheduler.dependsOnLength task.ref : Int)
          else control.indegree task
    marker := fun edge =>
      if edge.stream ∈ removed ∨
          (edge.stream = stream ∧ edge.src ∈ region.members ∧ edge.dst ∈ region.members) then
        .pending
      else control.marker edge
    parent := fun other => if other ∈ removed then none else control.parent other
    listed := fun task =>
      if task.stream ∈ removed ∨ (task.ref ∈ region.members ∧ task.stream = stream) then none
      else control.listed task
    opened := fun task =>
      if task.stream ∈ removed ∨ (task.ref ∈ region.members ∧ task.stream = stream) then none
      else control.opened task }

end Control

/-! ## The loop reset on the control state -/

namespace State

variable {state : State}

theorem mem_regionStreams {region : LoopRegion} {stream other : StreamID} :
    other ∈ state.regionStreams region stream ↔
      ∃ task streams, state.taskStreams.lookup task = some streams ∧
        task.ref ∈ region.members ∧ stream.within task.stream ∧ other ∈ streams := by
  unfold regionStreams
  simp only [List.mem_flatMap, List.mem_filter, Bool.and_eq_true, decide_eq_true_eq]
  constructor
  · rintro ⟨⟨task, streams⟩, ⟨hEntry, hRef, hWithin⟩, hOther⟩
    exact ⟨task, streams, (Dict.mem_entries_iff _ _ _).mp hEntry, hRef, hWithin, hOther⟩
  · rintro ⟨task, streams, hLookup, hRef, hWithin, hOther⟩
    exact ⟨⟨task, streams⟩, ⟨(Dict.mem_entries_iff _ _ _).mpr hLookup, hRef, hWithin⟩, hOther⟩

theorem subset_withDescendants (fuel : Nat) (found : List StreamID) :
    found ⊆ state.withDescendants fuel found := by
  induction fuel generalizing found with
  | zero => exact fun _ h => h
  | succ fuel ih =>
      unfold withDescendants
      simp only
      split
      · exact fun _ h => h
      · exact fun _ h => ih _ (List.mem_append_left _ h)

/-- The streams found by the closure loop have every property that the start
has and that passes from a stream to its children. -/
theorem withDescendants_induction {P : StreamID → Prop}
    (hChild : ∀ stream parent, state.streamHierarchy.lookup stream = some (some parent) →
      P parent → P stream)
    (fuel : Nat) (found : List StreamID) (hFound : ∀ stream ∈ found, P stream) :
    ∀ stream ∈ state.withDescendants fuel found, P stream := by
  induction fuel generalizing found with
  | zero => exact hFound
  | succ fuel ih =>
      unfold withDescendants
      simp only
      split
      · exact hFound
      · refine ih _ fun stream hStream => ?_
        rcases List.mem_append.mp hStream with hStream | hStream
        · exact hFound stream hStream
        · obtain ⟨⟨other, parent?⟩, hEntry, rfl⟩ := List.mem_map.mp hStream
          obtain ⟨hEntry, hTest⟩ := List.mem_filter.mp hEntry
          cases parent? with
          | none => simp at hTest
          | some parent =>
              simp only [Bool.and_eq_true, decide_eq_true_eq] at hTest
              exact hChild other parent ((Dict.mem_entries_iff _ _ _).mp hEntry)
                (hFound parent hTest.1)

/-- The streams that a reset removes. -/
def removedStreams (state : State) (region : LoopRegion) (stream : StreamID) : List StreamID :=
  if (state.regionStreams region stream).isEmpty then []
  else state.streamsToRemove region stream

theorem removes (scheduler : DSLScheduler) (region : LoopRegion) (stream : StreamID) :
    (state.control scheduler).Removes region.members stream
      (state.removedStreams region stream) := by
  have hStart : ∀ other ∈ state.regionStreams region stream,
      other ∈ state.removedStreams region stream := by
    intro other hOther
    have hSome : ¬ (state.regionStreams region stream).isEmpty := by
      rw [List.isEmpty_iff]
      exact List.ne_nil_of_mem hOther
    unfold removedStreams
    rw [if_neg hSome]
    exact subset_withDescendants _ _ hOther
  refine ⟨?_, ?_⟩
  · intro task streams hListed hRef hWithin other hOther
    exact hStart other (mem_regionStreams.mpr ⟨task, streams, hListed, hRef, hWithin, hOther⟩)
  · intro P hListed hChild other hOther
    unfold removedStreams at hOther
    split at hOther
    · cases hOther
    · refine withDescendants_induction hChild _ _ ?_ other hOther
      intro start hMem
      obtain ⟨task, streams, hLookup, hRef, hWithin, hIn⟩ := mem_regionStreams.mp hMem
      exact hListed task streams hLookup hRef hWithin start hIn

theorem cleanup_lookup (region : LoopRegion) (stream : StreamID) :
    let after := state.cleanupLoopDescendantStreams region stream
    let removed := state.removedStreams region stream
    (∀ task, after.indegrees.lookup task =
      if task.stream ∈ removed then none else state.indegrees.lookup task) ∧
    (∀ edge, after.edges.lookup edge =
      if edge.stream ∈ removed then none else state.edges.lookup edge) ∧
    (∀ other, after.streamHierarchy.lookup other =
      if other ∈ removed then none else state.streamHierarchy.lookup other) ∧
    (∀ task, after.taskStreams.lookup task =
      if task.stream ∈ removed then none else state.taskStreams.lookup task) ∧
    (∀ task, after.openStreams.lookup task =
      if task.stream ∈ removed then none else state.openStreams.lookup task) ∧
    after.queue = state.queue ∧ after.pending = state.pending ∧
    after.taskExceptions = state.taskExceptions := by
  unfold cleanupLoopDescendantStreams removedStreams
  by_cases hEmpty : (state.regionStreams region stream).isEmpty
  · simp [hEmpty]
  · simp only [hEmpty, Bool.false_eq_true, if_false]
    refine ⟨fun task => ?_, fun edge => ?_, fun other => ?_, fun task => ?_, fun task => ?_,
      ⟨trivial, trivial, trivial⟩⟩ <;>
    · rw [Dict.lookup_filterKeys]
      simp [ite_not]

end State

namespace DSLScheduler

variable (scheduler : DSLScheduler)

theorem lookup_resetIndegree (region : LoopRegion) (stream : StreamID) (members : List Ref)
    (indegrees : Dict Task Int) (task : Task) :
    (members.foldl (scheduler.resetIndegree region stream) indegrees).lookup task =
      match (if task.stream = stream ∧ task.ref ∈ members then
          scheduler.dsl.stmt? task.ref else none) with
      | some stmt => some (internalDeps region stmt : Int)
      | none => indegrees.lookup task := by
  induction members generalizing indegrees with
  | nil => simp
  | cons head rest ih =>
      rw [List.foldl_cons, ih]
      have hHead : (scheduler.resetIndegree region stream indegrees head).lookup task =
          match (if task = ⟨head, stream⟩ then scheduler.dsl.stmt? head else none) with
          | some stmt => some (internalDeps region stmt : Int)
          | none => indegrees.lookup task := by
        unfold resetIndegree
        cases hStmt : scheduler.dsl.stmt? head with
        | none => simp
        | some stmt =>
            simp only [Dict.lookup_insert_eq]
            split <;> simp
      rw [hHead]
      obtain ⟨ref, other⟩ := task
      by_cases hStream : other = stream
      · by_cases hRef : ref = head
        · subst hStream hRef
          by_cases hRest : ref ∈ rest
          · cases scheduler.dsl.stmt? ref <;> simp [hRest]
          · simp [hRest]
        · simp [hStream, hRef]
      · simp [hStream]

theorem control_resetLoopIterationState (state : State) (region : LoopRegion)
    (stream : StreamID) :
    (scheduler.resetLoopIterationState state region stream).control scheduler =
      (state.control scheduler).reset scheduler region stream
        (state.removedStreams region stream) := by
  obtain ⟨hIndegrees, hEdges, hHierarchy, hTaskStreams, hOpenStreams, hQueue, hPending,
    hExceptions⟩ := state.cleanup_lookup region stream
  unfold resetLoopIterationState State.control Control.reset
  simp only [hQueue, hPending, hExceptions, Control.mk.injEq, true_and]
  refine ⟨?_, ?_, ?_, ?_, ?_⟩
  · funext task
    unfold State.indegree Dict.getD
    simp only
    rw [lookup_resetIndegree, hIndegrees]
    cases (if task.stream = stream ∧ task.ref ∈ region.members then
        scheduler.dsl.stmt? task.ref else none) with
    | some stmt => rfl
    | none =>
        by_cases hRemoved : task.stream ∈ state.removedStreams region stream <;>
          simp [hRemoved]
  · funext edge
    unfold State.marker Dict.getD
    simp only [Dict.lookup_filterKeys, hEdges]
    by_cases hRemoved : edge.stream ∈ state.removedStreams region stream
    · simp [hRemoved]
    · by_cases hInside : edge.stream = stream ∧ edge.src ∈ region.members ∧
          edge.dst ∈ region.members
      · simp [hInside]
      · have hOutside : ¬ ((edge.stream = stream ∧ edge.src ∈ region.members) ∧
            edge.dst ∈ region.members) := fun h => hInside ⟨h.1.1, h.1.2, h.2⟩
        simp only [hRemoved, hInside, or_self, if_false]
        simp [← Bool.decide_and, hOutside]
  · funext other
    exact hHierarchy other
  · funext task
    rw [Dict.lookup_filterKeys, hTaskStreams]
    by_cases hRemoved : task.stream ∈ state.removedStreams region stream
    · simp [hRemoved]
    · by_cases hInside : task.ref ∈ region.members ∧ task.stream = stream
      · simp [hInside]
      · simp only [hRemoved, hInside, or_self, if_false]
        simp [← Bool.decide_and, hInside]
  · funext task
    rw [Dict.lookup_filterKeys, hOpenStreams]
    by_cases hRemoved : task.stream ∈ state.removedStreams region stream
    · simp [hRemoved]
    · by_cases hInside : task.ref ∈ region.members ∧ task.stream = stream
      · simp [hInside]
      · simp only [hRemoved, hInside, or_self, if_false]
        simp [← Bool.decide_and, hInside]

end DSLScheduler

/-! ## The effects of a step -/

/-- The control state in which a step of `coroutine` leaves the scheduler, up
to the list of pending coroutines, and the point where the coroutine is then
suspended, `none` when it ends. -/
inductive Effect (scheduler : DSLScheduler) (control : Control) (coroutine : Coroutine)
    (stmt : ActionStatement) : Control → Option PC → Prop
  /-- the coroutine waits for an expression, an activity or a sleep -/
  | wait {pc : PC} (hFrom : coroutine.pc.isEarly ∨ coroutine.pc.isPlainWait)
      (hWait : pc.isPlainWait) (hFits : pc.fits stmt.action) :
      Effect scheduler control coroutine stmt control (some pc)
  /-- an action that is neither scatter nor gather ends and marks its out-edges -/
  | emit {keep : EdgeType → Bool} (hScatter : stmt.action ≠ .transformScatter)
      (hGather : stmt.action ≠ .transformGather) :
      Effect scheduler control coroutine stmt
        (control.emit scheduler.dsl coroutine.task.ref coroutine.task.stream
          coroutine.delayed.delay keep) none
  /-- an action fails for good and stops the workflow -/
  | halt (hGather : stmt.action ≠ .transformGather) :
      Effect scheduler control coroutine stmt { control with halted := True } none
  /-- a scatter in the root stream whose input is no collection stops the
  workflow -/
  | haltScatter (hAction : stmt.action = .transformScatter)
      (hPc : coroutine.pc = .scatterInput) :
      Effect scheduler control coroutine stmt
        { control with
          halted := True
          listed := Function.update control.listed coroutine.task (some []) } none
  /-- a loop end starts the next iteration -/
  | loopBack {region : LoopRegion} {index : Nat} {removed : List StreamID}
      (hAction : stmt.action = .loopEnd) (hPc : coroutine.pc = .loopEndExec index true)
      (hRegion : scheduler.regionByEnd? coroutine.task.ref = some region)
      (hRemoved : control.Removes region.members coroutine.task.stream removed) :
      Effect scheduler control coroutine stmt
        { control.reset scheduler region coroutine.task.stream removed with
          queue := control.queue ++ [⟨⟨region.startRef, coroutine.task.stream⟩, 0⟩] } none
  /-- a scatter is skipped -/
  | skipScatter (hAction : stmt.action = .transformScatter) (hPc : coroutine.pc.isEarly) :
      Effect scheduler control coroutine stmt
        (control.scatterSkip scheduler.dsl coroutine.task) none
  /-- a scatter has an empty collection -/
  | emptyScatter (hAction : stmt.action = .transformScatter)
      (hPc : coroutine.pc = .scatterInput) :
      Effect scheduler control coroutine stmt
        ({ control with
            listed := Function.update control.listed coroutine.task (some [])
            opened := Function.update control.opened coroutine.task
              (some 0) }.scatterSkip scheduler.dsl coroutine.task) none
  /-- a scatter creates its first stream -/
  | firstItem {collection : StoredObject Json} {size : Nat} {delay : Int}
      (hAction : stmt.action = .transformScatter) (hPc : coroutine.pc = .scatterInput)
      (hSize : 0 < size) :
      Effect scheduler control coroutine stmt
        ({ control with
            listed := Function.update control.listed coroutine.task
              (some []) }.scatterItem scheduler.dsl coroutine.task [] delay)
        (some (.scatterLoop collection size
          [StreamID.new coroutine.task.ref 0 coroutine.task.stream]))
  /-- a scatter creates its next stream -/
  | nextItem {collection : StoredObject Json} {size : Nat} {streams : List StreamID}
      {delay : Int} (hAction : stmt.action = .transformScatter)
      (hPc : coroutine.pc = .scatterLoop collection size streams)
      (hSize : streams.length < size) :
      Effect scheduler control coroutine stmt
        (control.scatterItem scheduler.dsl coroutine.task streams delay)
        (some (.scatterLoop collection size
          (streams ++ [StreamID.new coroutine.task.ref streams.length coroutine.task.stream])))
  /-- a scatter has created all of its streams -/
  | scattered {collection : StoredObject Json} {size : Nat} {streams : List StreamID}
      (hAction : stmt.action = .transformScatter)
      (hPc : coroutine.pc = .scatterLoop collection size streams)
      (hSize : size ≤ streams.length) :
      Effect scheduler control coroutine stmt
        { control with
          opened := Function.update control.opened coroutine.task (some streams.length) } none
  /-- a gather waits for its item -/
  | waitItem {base parent : StreamID} {scatter : Ref} {index : Nat}
      (hAction : stmt.action = .transformGather) (hPc : coroutine.pc.isEarly)
      (hStream : coroutine.task.stream = .child base scatter (.item index))
      (hParent : control.parent coroutine.task.stream = some (some parent)) :
      Effect scheduler control coroutine stmt control (some (.gatherItem parent))
  /-- a gather closes its stream, and others are open -/
  | close {base parent : StreamID} {scatter : Ref} {index : Nat} {remaining : Int}
      {listed : Task → Option (List StreamID)}
      (hAction : stmt.action = .transformGather)
      (hStream : coroutine.task.stream = .child base scatter (.item index))
      (hParent : coroutine.pc = .gatherItem parent ∨
        coroutine.pc.isEarly ∧ control.parent coroutine.task.stream = some (some parent))
      (hOpened : control.opened ⟨scatter, parent⟩ = some remaining)
      (hMore : remaining - 1 ≠ 0)
      (hListed : listed = control.listed ∨ control.listed ⟨scatter, parent⟩ = none ∧
        listed = Function.update control.listed ⟨scatter, parent⟩ (some [])) :
      Effect scheduler control coroutine stmt
        { control with
          opened := Function.update control.opened ⟨scatter, parent⟩ (some (remaining - 1))
          listed := listed } none
  /-- a gather closes the last open stream and finalizes -/
  | closeLast {base parent : StreamID} {scatter : Ref} {index : Nat}
      {listed : Task → Option (List StreamID)} {result : TaskResult}
      {items : List (StoredObject Json)}
      (hAction : stmt.action = .transformGather)
      (hStream : coroutine.task.stream = .child base scatter (.item index))
      (hParent : coroutine.pc = .gatherItem parent ∨
        coroutine.pc.isEarly ∧ control.parent coroutine.task.stream = some (some parent))
      (hOpened : control.opened ⟨scatter, parent⟩ = some 1)
      (hListed : listed = control.listed ∨ control.listed ⟨scatter, parent⟩ = none ∧
        listed = Function.update control.listed ⟨scatter, parent⟩ (some [])) :
      Effect scheduler control coroutine stmt
        { control with
          opened := Function.update control.opened ⟨scatter, parent⟩ (some 0)
          listed := listed } (some (.gatherFinalize parent result items))
  /-- a finalized gather is emitted as an action of the parent stream -/
  | finalized {parent : StreamID} {result : TaskResult} {items : List (StoredObject Json)}
      (hAction : stmt.action = .transformGather)
      (hPc : coroutine.pc = .gatherFinalize parent result items) :
      Effect scheduler control coroutine stmt control (some (.gatherExec parent))
  /-- a gather marks its out-edges in the parent stream -/
  | gathered {parent : StreamID} (hAction : stmt.action = .transformGather)
      (hPc : coroutine.pc = .gatherExec parent) :
      Effect scheduler control coroutine stmt
        (control.emit scheduler.dsl coroutine.task.ref parent 0 fun _ => true) none
  /-- a gather in the skip stream of an empty scatter finalizes -/
  | waitEmpty {base parent : StreamID} {scatter : Ref}
      (hAction : stmt.action = .transformGather) (hPc : coroutine.pc.isEarly)
      (hStream : coroutine.task.stream = .child base scatter .skip)
      (hParent : control.parent coroutine.task.stream = some (some parent))
      (hOpened : control.opened ⟨scatter, parent⟩ ≠ none) :
      Effect scheduler control coroutine stmt control (some (.gatherEmpty parent))
  /-- the gather of an empty scatter marks its out-edges in the parent stream -/
  | gatheredEmpty {parent : StreamID} (hAction : stmt.action = .transformGather)
      (hPc : coroutine.pc = .gatherEmpty parent) :
      Effect scheduler control coroutine stmt
        (control.emit scheduler.dsl coroutine.task.ref parent 0 fun _ => true) none

theorem Effect.emit_of_eq {scheduler : DSLScheduler} {control middle : Control}
    {coroutine : Coroutine} {stmt : ActionStatement} {keep : EdgeType → Bool}
    (hScatter : stmt.action ≠ .transformScatter) (hGather : stmt.action ≠ .transformGather)
    (hSame : middle = control) :
    Effect scheduler control coroutine stmt
      (middle.emit scheduler.dsl coroutine.task.ref coroutine.task.stream
        coroutine.delayed.delay keep) none :=
  hSame ▸ .emit hScatter hGather

end Tracecat
