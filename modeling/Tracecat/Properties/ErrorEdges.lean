import Tracecat.Scheduler.EdgeMarks
import Tracecat.Scheduler.Move

/-!
# Error edges

An edge is visited by the instance of its source that ends as the type of the
edge says, unless a scatter opens an item stream or a gather is emitted in the
parent stream: they visit every out-edge, and so also the error edges.
-/

namespace Tracecat

/-- The segment ends with an exception. -/
def Segment.Raises : Segment → Prop
  | .raise _ _ _ => True
  | _ => False

namespace DSLScheduler

variable (scheduler : DSLScheduler)

/-- From this suspension point on, whatever it resumes with, a coroutine raises
no exception. -/
def NeverRaises (pc : PC) : Prop :=
  ∃ safe : PC → Prop, safe pc ∧ ∀ pc, safe pc → ∀ state coroutine stmt outcome segment,
    scheduler.resume state coroutine stmt pc outcome = some segment →
      (∃ after, segment = .finish after) ∨ ∃ after next, segment = .suspend after next ∧ safe next

/-- The segment ends without an exception, or will not end with one. -/
def Completes : Segment → Prop
  | .finish _ => True
  | .suspend _ pc => scheduler.NeverRaises pc
  | .raise _ _ _ => False

/-- The event resumes an instance of the source of the edge, which ends as the
type of the edge says. -/
def FaithfulVisit (state : State) (event : Event) (edge : DSLEdge) : Prop :=
  ∃ index outcome coroutine stmt segment, event = .resume index outcome ∧
    state.pending[index]? = some coroutine ∧
    scheduler.dsl.stmt? coroutine.task.ref = some stmt ∧
    scheduler.resume state coroutine stmt coroutine.pc outcome = some segment ∧
    coroutine.task.ref = edge.src ∧
    (edge.type = .error → segment.Raises) ∧ (edge.type = .success → scheduler.Completes segment)

/-- Every edge that the step visits is visited by the instance that its type
speaks of. -/
def VisitsFaithfully (state : State) (event : Event) (next : State) : Prop :=
  ∀ edge, state.marker edge ≠ .visited → next.marker edge = .visited →
    scheduler.FaithfulVisit state event edge

/-- No scatter with an error edge opens an item stream, and no gather with an
error edge is emitted in the parent stream. -/
def sparing (state : State) : Event → Bool
  | .spawn => true
  | .resume index outcome =>
      match state.pending[index]? with
      | none => true
      | some coroutine =>
          !(coroutine.marksAll outcome && scheduler.hasErrorEdge coroutine.task.ref)

/-- A run of allowed steps from one state to another. -/
def Leads (allowed : State → Event → Prop) : State → State → Prop :=
  Relation.ReflTransGen fun state next =>
    ∃ event, allowed state event ∧ scheduler.step state event = some next

variable {scheduler} {state next : State} {context : ExecutionContext}

theorem ReachableWith.leads {allowed : State → Event → Prop}
    (hReach : scheduler.ReachableWith context allowed state) :
    scheduler.Leads allowed (State.init scheduler context) state := by
  induction hReach with
  | init => exact .refl
  | step event _ hAllowed hStep ih => exact ih.tail ⟨event, hAllowed, hStep⟩

/-- A scatter between two items raises no exception. -/
theorem neverRaises_of_inItems {pc : PC} (hItems : pc.inItems) : scheduler.NeverRaises pc := by
  refine ⟨PC.inItems, hItems, ?_⟩
  intro pc hItems state coroutine stmt outcome segment hResume
  cases pc with
  | scatterLoop collection size streams =>
      cases outcome <;> simp only [resume, Option.some.injEq, reduceCtorEq] at hResume
      subst hResume
      unfold scatterNext
      split
      · exact Or.inr ⟨_, _, rfl, trivial⟩
      · exact Or.inl ⟨_, rfl⟩
  | _ => cases hItems

theorem visitsFaithfully_of_sparing {event : Event} (hSparing : scheduler.sparing state event)
    (hStep : scheduler.step state event = some next) :
    scheduler.VisitsFaithfully state event next := by
  intro edge hBefore hAfter
  cases event with
  | spawn =>
      -- a spawn leaves the edges alone
      unfold step at hStep
      simp only at hStep
      split at hStep
      · cases hStep
      · split at hStep
        · cases hStep
          exact absurd hAfter hBefore
        · cases hStep
  | resume index outcome =>
      simp only [step, Option.bind_eq_bind, Option.pure_def, Option.bind_eq_some_iff,
        Option.some.injEq] at hStep
      obtain ⟨coroutine, hCoroutine, stmt, hStmt, segment, hResume, rfl⟩ := hStep
      have hNone : coroutine.marksAll outcome →
          scheduler.hasErrorEdge coroutine.task.ref = false := by
        intro hAll
        unfold sparing at hSparing
        simpa [hCoroutine, hAll] using hSparing
      have hMarks := scheduler.resume_marks hNone hResume
      refine ⟨index, outcome, coroutine, stmt, segment, rfl, hCoroutine, hStmt, hResume, ?_⟩
      cases segment with
      | finish after =>
          obtain ⟨hSrc, hType⟩ := (hMarks edge hAfter).resolve_left hBefore
          refine ⟨hSrc.symm, fun hError => ?_, fun _ => trivial⟩
          rw [hType] at hError
          cases hError
      | suspend after pc =>
          obtain ⟨hSrc, hType, hItems⟩ := (hMarks edge hAfter).resolve_left hBefore
          refine ⟨hSrc.symm, fun hError => ?_, fun _ => neverRaises_of_inItems hItems⟩
          rw [hType] at hError
          cases hError
      | raise after exc platform =>
          have hHandled : OnlyMarks after
              (scheduler.handleErrorPath after coroutine.delayed exc platform)
              fun edge => edge.src = coroutine.task.ref ∧ edge.type = .error :=
            scheduler.onlyMarks_handleErrorPath coroutine.delayed exc platform
          rcases hHandled edge hAfter with hRaised | ⟨hSrc, hType⟩
          · exact absurd ((hMarks edge hRaised).resolve_right id) hBefore
          · refine ⟨hSrc.symm, fun _ => trivial, fun hSuccess => ?_⟩
            rw [hType] at hSuccess
            cases hSuccess

end DSLScheduler

open DSLScheduler

/-- In a run that spares the error edges of scatters and gathers, every visited
edge was visited by an instance that ended as the type of the edge says. -/
theorem visited_edges_faithful {scheduler : DSLScheduler} {context : ExecutionContext}
    {state : State}
    (hReach : scheduler.ReachableWith context
      (fun state event => scheduler.sparing state event) state) :
    (∀ edge, state.marker edge = .visited → ∃ before event after,
      scheduler.Leads (fun state event => scheduler.sparing state event)
        (State.init scheduler context) before ∧
      scheduler.step before event = some after ∧
      scheduler.Leads (fun state event => scheduler.sparing state event) after state ∧
      before.marker edge ≠ .visited ∧ after.marker edge = .visited ∧
      scheduler.FaithfulVisit before event edge) ∧
    ∀ event next, scheduler.sparing state event → scheduler.step state event = some next →
      scheduler.VisitsFaithfully state event next := by
  refine ⟨?_, fun event next hSparing hStep => visitsFaithfully_of_sparing hSparing hStep⟩
  induction hReach with
  | init =>
      intro edge hVisited
      cases hVisited
  | @step state next event hReach hSparing hStep ih =>
      intro edge hVisited
      by_cases hBefore : state.marker edge = .visited
      · obtain ⟨before, earlier, after, hStart, hEarlier, hLater, hVisit⟩ := ih edge hBefore
        exact ⟨before, earlier, after, hStart, hEarlier,
          hLater.tail ⟨event, hSparing, hStep⟩, hVisit⟩
      · exact ⟨state, event, next, hReach.leads, hStep, .refl, hBefore, hVisited,
          visitsFaithfully_of_sparing hSparing hStep edge hBefore hVisited⟩

/-- An action fails and its handler is queued. -/
def handledError : Scenario where
  dsl :=
    { actions :=
        [{ ref := "a", action := .udf "core.http_request" },
          { ref := "b", action := .udf "core.noop", dependsOn := ["a.error"] }] }
  events :=
    [.spawn, .resume 0 .resumed, .resume 0 (.executorRaised none (.other "Error" "") false)]

theorem handledError_visited_edges_faithful :
    ∃ (scheduler : DSLScheduler) (before : State) (event : Event),
      scheduler.FaithfulVisit before event ⟨"a", "b", .error, rootStream⟩ := by
  have hReaches : handledError.reaches (fun scheduler => scheduler.sparing)
      (fun _ state => state.marker ⟨"a", "b", .error, rootStream⟩ = .visited) = true := by
    decide +kernel
  obtain ⟨-, scheduler, state, -, hReach, hVisited⟩ := Scenario.exists_of_reaches hReaches
  obtain ⟨before, event, -, -, -, -, -, -, hFaithful⟩ :=
    (visited_edges_faithful hReach).1 _ (of_decide_eq_true hVisited)
  exact ⟨scheduler, before, event, hFaithful⟩

/-- A scatter with an error handler waits for its collection. -/
def handledScatter : Scenario where
  dsl :=
    { actions :=
        [{ ref := "each", action := .transformScatter, args := .scatter { collection := {} } },
          { ref := "work", action := .udf "core.noop", dependsOn := ["each"] },
          { ref := "failed", action := .udf "core.noop", dependsOn := ["each.error"] }] }
  events := [.spawn, .resume 0 .resumed]

/-- The first coroutine waits for the collection of a scatter. -/
def State.awaitsCollection (state : State) : Bool :=
  match (state.pending[0]?).map Coroutine.pc with
  | some .scatterInput => true
  | _ => false

/-- The scatter opens its first stream and visits the edge to the handler. -/
theorem handledScatter_not_faithful :
    handledScatter.dsl.Accepted ∧ ∃ (scheduler : DSLScheduler) (state next : State)
      (event : Event), scheduler.Reachable {} state ∧
        scheduler.step state event = some next ∧
        ¬ scheduler.VisitsFaithfully state event next := by
  let stored : StoredObject Json := .inline (.arr [.null])
  let edge : DSLEdge := ⟨"each", "failed", .error, .new "each" 0 rootStream⟩
  have hReaches : handledScatter.reaches (fun _ _ _ => true) (fun scheduler state =>
      state.awaitsCollection && decide (state.marker edge ≠ .visited) &&
        ((scheduler.step state (.resume 0 (.collection stored))).map
          fun next => decide (next.marker edge = .visited)).getD false) = true := by
    decide +kernel
  obtain ⟨hAccepted, scheduler, state, -, hReach, hCheck⟩ := Scenario.exists_of_reaches hReaches
  simp only [Bool.and_eq_true, decide_eq_true_eq] at hCheck
  obtain ⟨⟨hAwaits, hBefore⟩, hAfter⟩ := hCheck
  cases hStep : scheduler.step state (.resume 0 (.collection stored)) with
  | none =>
      rw [hStep] at hAfter
      cases hAfter
  | some next =>
      rw [hStep] at hAfter
      refine ⟨hAccepted, scheduler, state, next, .resume 0 (.collection stored),
        hReach.reachable, hStep, fun hFaithful => ?_⟩
      obtain ⟨index, outcome, coroutine, stmt, segment, hEvent, hCoroutine, -, hResume, -,
        hRaises, -⟩ := hFaithful edge hBefore (of_decide_eq_true hAfter)
      obtain ⟨rfl, rfl⟩ := Event.resume.inj hEvent
      unfold State.awaitsCollection at hAwaits
      rw [hCoroutine] at hAwaits
      obtain ⟨task, delay, pc⟩ := coroutine
      cases pc with
      | scatterInput =>
          cases hResume
          exact hRaises rfl
      | _ => cases hAwaits

end Tracecat
