import Tracecat.Scheduler.Counters

/-!
# The meaning of a plain workflow

The outcome of every action and the marker of every edge of a workflow without
scatters and loops, as the solution of equations over the graph, for fixed
`run_if` values and executor outcomes.  The dependencies form no cycle, so the
equations have at most one solution.
-/

namespace Tracecat

/-- What fixes the outcomes: the truth value of each `run_if`, and whether each
executor succeeds. -/
structure Oracle where
  runIf : Ref → Bool
  succeeds : Ref → Bool

inductive Verdict
  | skipped
  /-- failed with `TaskUnreachable` -/
  | unreachable
  /-- executed, and failed -/
  | failed
  /-- executed, and succeeded -/
  | succeeded
  deriving DecidableEq, Repr

namespace Verdict

/-- The action fails. -/
def isFailure : Verdict → Bool
  | unreachable | failed => true
  | _ => false

/-- The types of the out-edges that are `VISITED`. -/
def visits : Verdict → EdgeType → Bool
  | skipped, _ => false
  | succeeded, type => type = .success
  | unreachable, type | failed, type => type = .error

end Verdict

/-- A marker for each edge, given by its source, destination and type. -/
abbrev Marking : Type := Ref → AdjDst → EdgeMarker

namespace ActionStatement

variable (stmt : ActionStatement) (marking : Marking)

/-- The marker of the edge that a dependency stands for. -/
def inMarker (dep : AdjDst) : EdgeMarker :=
  marking dep.1 (stmt.ref, dep.2)

/-- There are in-edges, and all of them are `SKIPPED`. -/
def allSkipped : Bool :=
  !stmt.deps.isEmpty && stmt.deps.all fun dep => stmt.inMarker marking dep = .skipped

def joins : Bool :=
  match stmt.deps with
  | [] => true
  | [dep] => stmt.inMarker marking dep = .visited
  | deps =>
      match stmt.joinStrategy with
      | .any => deps.any fun dep => stmt.inMarker marking dep = .visited
      | .all => deps.all fun dep => stmt.inMarker marking dep = .visited

/-- `run_if` is set and false. -/
def selfSkips (oracle : Oracle) : Bool :=
  stmt.runIf.isSome && !oracle.runIf stmt.ref

/-- The equation of an action: its verdict, by the markers of its in-edges. -/
def verdict (oracle : Oracle) : Verdict :=
  if stmt.allSkipped marking then .skipped
  else if stmt.selfSkips oracle then .skipped
  else if !stmt.joins marking then .unreachable
  else if oracle.succeeds stmt.ref then .succeeded
  else .failed

section Congruence

variable {marking} {other : Marking}

theorem allSkipped_congr
    (hAgree : ∀ dep ∈ stmt.deps, stmt.inMarker marking dep = stmt.inMarker other dep) :
    stmt.allSkipped marking = stmt.allSkipped other := by
  unfold allSkipped
  congr 1
  rw [Bool.eq_iff_iff, List.all_eq_true, List.all_eq_true]
  exact forall₂_congr fun dep hDep => by rw [hAgree dep hDep]

theorem joins_congr
    (hAgree : ∀ dep ∈ stmt.deps, stmt.inMarker marking dep = stmt.inMarker other dep) :
    stmt.joins marking = stmt.joins other := by
  have hAll : (stmt.deps.all fun dep => decide (stmt.inMarker marking dep = .visited)) =
      stmt.deps.all fun dep => decide (stmt.inMarker other dep = .visited) := by
    rw [Bool.eq_iff_iff, List.all_eq_true, List.all_eq_true]
    exact forall₂_congr fun dep hDep => by rw [hAgree dep hDep]
  have hAny : (stmt.deps.any fun dep => decide (stmt.inMarker marking dep = .visited)) =
      stmt.deps.any fun dep => decide (stmt.inMarker other dep = .visited) := by
    rw [Bool.eq_iff_iff, List.any_eq_true, List.any_eq_true]
    refine exists_congr fun dep => and_congr_right fun hDep => ?_
    rw [hAgree dep hDep]
  unfold joins
  cases hDeps : stmt.deps with
  | nil => rfl
  | cons first rest =>
      cases rest with
      | nil =>
          simp only
          rw [hAgree first (by simp [hDeps])]
      | cons second rest =>
          rw [hDeps] at hAll hAny
          simp only
          rw [hAll, hAny]

theorem verdict_congr (oracle : Oracle)
    (hAgree : ∀ dep ∈ stmt.deps, stmt.inMarker marking dep = stmt.inMarker other dep) :
    stmt.verdict marking oracle = stmt.verdict other oracle := by
  unfold verdict
  rw [stmt.allSkipped_congr hAgree, stmt.joins_congr hAgree]

end Congruence

end ActionStatement

namespace DSLInput

variable (dsl : DSLInput)

/-- The equation of an edge: its marker, by the verdict of its source.  A
failure without error edge marks nothing, it stops the workflow. -/
def outMarker (src : Ref) (verdict : Verdict) (type : EdgeType) : EdgeMarker :=
  if verdict.isFailure && !(dsl.adj src).any fun next => next.2 = .error then .pending
  else if verdict.visits type then .visited
  else .skipped

/-- Markers and verdicts that solve the equations. -/
structure Solves (oracle : Oracle) (marking : Marking) (verdicts : Ref → Verdict) : Prop where
  verdict : ∀ stmt ∈ dsl.actions, verdicts stmt.ref = stmt.verdict marking oracle
  marker : ∀ stmt ∈ dsl.actions, ∀ next ∈ dsl.adj stmt.ref,
    marking stmt.ref next = dsl.outMarker stmt.ref (verdicts stmt.ref) next.2

variable {dsl}

theorem Solves.unique {assigned : ActionScopes} (hPlaced : dsl.Placed assigned)
    {oracle : Oracle} {marking other : Marking} {verdicts otherVerdicts : Ref → Verdict}
    (hFirst : dsl.Solves oracle marking verdicts)
    (hSecond : dsl.Solves oracle other otherVerdicts) :
    ∀ stmt ∈ dsl.actions, verdicts stmt.ref = otherVerdicts stmt.ref ∧
      ∀ next ∈ dsl.adj stmt.ref, marking stmt.ref next = other stmt.ref next := by
  obtain ⟨rank, hRank⟩ := hPlaced.exists_dep_rank
  have hAll : ∀ bound, ∀ stmt ∈ dsl.actions, rank stmt.ref < bound →
      verdicts stmt.ref = otherVerdicts stmt.ref := by
    intro bound
    induction bound with
    | zero => exact fun stmt _ hBound => absurd hBound (Nat.not_lt_zero _)
    | succ bound ih =>
        intro stmt hStmt hBound
        rw [hFirst.verdict stmt hStmt, hSecond.verdict stmt hStmt]
        refine stmt.verdict_congr oracle fun dep hDep => ?_
        obtain ⟨source, hSource⟩ := hPlaced.validated.stmt?_dep hStmt hDep
        obtain ⟨hMem, hRef⟩ := stmt?_some_mem hSource
        have hEdge := Control.mem_adj_of_dep hStmt hDep
        have hBelow := hRank stmt hStmt dep hDep
        unfold ActionStatement.inMarker
        rw [← hRef] at hEdge hBelow ⊢
        rw [hFirst.marker source hMem _ hEdge, hSecond.marker source hMem _ hEdge,
          ih source hMem (by omega)]
  intro stmt hStmt
  have hVerdict := hAll (rank stmt.ref + 1) stmt hStmt (Nat.lt_succ_self _)
  refine ⟨hVerdict, fun next hNext => ?_⟩
  rw [hFirst.marker stmt hStmt next hNext, hSecond.marker stmt hStmt next hNext, hVerdict]

/-- The verdicts after some rounds of the equations. -/
def roundsOf (dsl : DSLInput) (oracle : Oracle) : Nat → Ref → Verdict
  | 0, _ => .skipped
  | rounds + 1, ref =>
      match dsl.stmt? ref with
      | none => .skipped
      | some stmt => stmt.verdict
          (fun src next => dsl.outMarker src (dsl.roundsOf oracle rounds src) next.2) oracle

/-- The verdict of an action is there after as many rounds as it has dependencies below it. -/
theorem roundsOf_stable (hResolved : ∀ stmt ∈ dsl.actions, dsl.stmt? stmt.ref = some stmt)
    (oracle : Oracle) {rank : Ref → Nat}
    (hRank : ∀ stmt ∈ dsl.actions, ∀ dep ∈ stmt.deps, rank dep.1 < rank stmt.ref)
    (hSource : ∀ stmt ∈ dsl.actions, ∀ dep ∈ stmt.deps, ∃ source ∈ dsl.actions, source.ref = dep.1)
    {first second : Nat} {stmt : ActionStatement} (hStmt : stmt ∈ dsl.actions)
    (hFirst : rank stmt.ref < first) (hSecond : rank stmt.ref < second) :
    dsl.roundsOf oracle first stmt.ref = dsl.roundsOf oracle second stmt.ref := by
  induction first generalizing second stmt with
  | zero => exact absurd hFirst (Nat.not_lt_zero _)
  | succ first ih =>
      cases second with
      | zero => exact absurd hSecond (Nat.not_lt_zero _)
      | succ second =>
          simp only [roundsOf, hResolved stmt hStmt]
          refine stmt.verdict_congr oracle fun dep hDep => ?_
          obtain ⟨source, hMem, hRef⟩ := hSource stmt hStmt dep hDep
          have hBelow := hRank stmt hStmt dep hDep
          rw [← hRef] at hBelow
          have hSame := @ih second source hMem (by omega) (by omega)
          rw [hRef] at hSame
          simp only [ActionStatement.inMarker, hSame]

theorem exists_solves {assigned : ActionScopes} (hPlaced : dsl.Placed assigned)
    (oracle : Oracle) : ∃ marking verdicts, dsl.Solves oracle marking verdicts := by
  obtain ⟨rank, hRank⟩ := hPlaced.exists_dep_rank
  have hResolved : ∀ stmt ∈ dsl.actions, dsl.stmt? stmt.ref = some stmt := fun _ hStmt =>
    stmt?_eq_some_of_mem hPlaced.validated.refs_nodup hStmt
  have hSource : ∀ stmt ∈ dsl.actions, ∀ dep ∈ stmt.deps,
      ∃ source ∈ dsl.actions, source.ref = dep.1 := by
    intro stmt hStmt dep hDep
    obtain ⟨source, hFound⟩ := hPlaced.validated.stmt?_dep hStmt hDep
    exact ⟨source, stmt?_some_mem hFound⟩
  let verdicts (ref : Ref) : Verdict := dsl.roundsOf oracle (rank ref + 1) ref
  refine ⟨fun src next => dsl.outMarker src (verdicts src) next.2, verdicts, ?_, fun _ _ _ _ => rfl⟩
  intro stmt hStmt
  have hRound : verdicts stmt.ref = stmt.verdict
      (fun src next => dsl.outMarker src (dsl.roundsOf oracle (rank stmt.ref) src) next.2)
        oracle := by
    simp only [verdicts, roundsOf, hResolved stmt hStmt]
  rw [hRound]
  refine stmt.verdict_congr oracle fun dep hDep => ?_
  obtain ⟨source, hMem, hRef⟩ := hSource stmt hStmt dep hDep
  have hBelow := hRank stmt hStmt dep hDep
  rw [← hRef] at hBelow
  have hSame := roundsOf_stable hResolved oracle hRank hSource hMem hBelow
    (Nat.lt_succ_self (rank source.ref))
  rw [hRef] at hSame
  simp only [ActionStatement.inMarker, verdicts, hSame]

end DSLInput

end Tracecat
