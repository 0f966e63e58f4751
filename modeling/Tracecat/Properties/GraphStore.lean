import Tracecat.Lib.Runs
import Tracecat.Workflow.GraphConsistent

/-!
# The graph under sequences of batches

`_add_edge` looks a source up by the UUID that its text reads as, and stores
the text; `_delete_node` removes the edges whose text is `str(id)`.  An edge
stored with another spelling survives the deletion of its source.  In the runs
where no deletion meets such an edge, the graph stays consistent and every
batch does to it what it says.
-/

namespace Tracecat

variable {Id : Type} [DecidableEq Id] {uuid : UuidText Id}

namespace Graph

/-- The batch passes the version check and comes to `op` in `session`. -/
def ComesTo (graph : Graph Id) (uuid : UuidText Id) (batch : GraphBatch Id)
    (op : GraphOperation Id) (session : GraphSession Id) : Prop :=
  graph.graphVersion = batch.baseVersion ∧
    ∃ done rest, batch.operations = done ++ op :: rest ∧
      done.foldlM (GraphSession.applyOperation uuid) graph.openSession = .ok session

def Raises (graph : Graph Id) (uuid : UuidText Id) (batch : GraphBatch Id) : Prop :=
  ∃ op session error, graph.ComesTo uuid batch op session ∧
    session.applyOperation uuid op = .error error

def Accepts (graph : Graph Id) (uuid : UuidText Id) (batch : GraphBatch Id) : Prop :=
  graph.graphVersion = batch.baseVersion ∧ ¬ graph.Raises uuid batch ∧ batch.commits

/-- Where the batch deletes a node, the edges that name it spell it `str(id)`. -/
def DeletesSpelled (graph : Graph Id) (uuid : UuidText Id) (batch : GraphBatch Id) : Prop :=
  ∀ actionId session, graph.ComesTo uuid batch (.deleteNode actionId) session →
    session.graph.SpelledCanonically uuid actionId

/-- What the batches promise about a graph and the next batch. -/
structure BatchSafe (graph : Graph Id) (uuid : UuidText Id) (batch : GraphBatch Id) : Prop where
  /-- the version grows with the accepted structural batches -/
  bumped : graph.Accepts uuid batch → (∃ op ∈ batch.operations, op.isStructural) →
    (graph.afterBatch uuid batch).graphVersion = graph.graphVersion + 1
  keptVersion : ¬ (graph.Accepts uuid batch ∧ ∃ op ∈ batch.operations, op.isStructural) →
    (graph.afterBatch uuid batch).graphVersion = graph.graphVersion
  /-- a refused batch changes nothing -/
  refused : ¬ graph.Accepts uuid batch → graph.afterBatch uuid batch = graph
  /-- a deletion removes exactly the edges that name the node -/
  deletes : graph.DeletesSpelled uuid batch → ∀ actionId session next,
    graph.ComesTo uuid batch (.deleteNode actionId) session →
    session.applyOperation uuid (.deleteNode actionId) = .ok next →
    session.graph.RemovesNode next.graph uuid actionId

variable {graph start : Graph Id} {batch : GraphBatch Id}

theorem applyOperations_of_accepts (hAccepts : graph.Accepts uuid batch) :
    ∃ session, batch.operations.foldlM (GraphSession.applyOperation uuid) graph.openSession =
        .ok session ∧
      graph.afterBatch uuid batch =
        { session.graph with
          graphVersion :=
            if batch.operations.any GraphOperation.isStructural then
              session.graph.graphVersion + 1
            else session.graph.graphVersion } := by
  obtain ⟨hVersion, hRaises, hCommits⟩ := hAccepts
  cases hFold : batch.operations.foldlM (GraphSession.applyOperation uuid) graph.openSession with
  | error error =>
      obtain ⟨done, op, rest, session, hOps, hDone, hOp⟩ := Checks.foldlM_eq_error.mp hFold
      exact absurd ⟨op, session, error, ⟨hVersion, done, rest, hOps, hDone⟩, hOp⟩ hRaises
  | ok session =>
      refine ⟨session, rfl, ?_⟩
      simp only [afterBatch, applyOperations, hVersion, hFold, hCommits, ne_eq, not_true_eq_false,
        if_false, if_true, bind, Except.bind]

/-- A batch that is stale, raises or is not committed is rolled back. -/
theorem afterBatch_of_not_accepts (hRefused : ¬ graph.Accepts uuid batch) :
    graph.afterBatch uuid batch = graph := by
  unfold afterBatch applyOperations
  by_cases hVersion : graph.graphVersion = batch.baseVersion
  · rw [if_neg (not_not.mpr hVersion)]
    cases hFold : batch.operations.foldlM (GraphSession.applyOperation uuid) graph.openSession with
    | error error => rfl
    | ok session =>
        have hRaises : ¬ graph.Raises uuid batch := by
          rintro ⟨op, state, error, ⟨-, done, rest, hOps, hDone⟩, hOp⟩
          have hError := Checks.foldlM_eq_error.mpr ⟨done, op, rest, state, hOps, hDone, hOp⟩
          rw [hFold] at hError
          cases hError
        have hCommits : batch.commits = false := by
          by_contra hCommits
          exact hRefused ⟨hVersion, hRaises, by simpa using hCommits⟩
        simp only [hCommits, bind, Except.bind, Bool.false_eq_true, if_false]
  · rw [if_pos hVersion]

theorem session_graphVersion {done : List (GraphOperation Id)} {session : GraphSession Id}
    (hDone : done.foldlM (GraphSession.applyOperation uuid) graph.openSession = .ok session) :
    session.graph.graphVersion = graph.graphVersion := by
  let Same (state : GraphSession Id) : Prop := state.graph.graphVersion = graph.graphVersion
  have hStart : Same graph.openSession := rfl
  exact Checks.foldlM_keeps Same
    (fun hState hStep => (GraphSession.applyOperation_graphVersion hStep).trans hState)
    hStart hDone

theorem session_consistent (hGraph : graph.Consistent uuid)
    (hSpelled : graph.DeletesSpelled uuid batch) (hVersion : graph.graphVersion = batch.baseVersion)
    {done rest : List (GraphOperation Id)} {session : GraphSession Id}
    (hOps : batch.operations = done ++ rest)
    (hDone : done.foldlM (GraphSession.applyOperation uuid) graph.openSession = .ok session) :
    session.graph.Consistent uuid := by
  refine Checks.foldlM_reached (fun session => session.graph.Consistent uuid) hGraph ?_ hOps hDone
  intro done op rest state next hItems hState hConsistent hNext
  apply GraphSession.applyOperation_consistent hConsistent _ hNext
  rintro actionId rfl
  exact hSpelled actionId state ⟨hVersion, done, rest, hItems, hState⟩

theorem Consistent.afterBatch (hGraph : graph.Consistent uuid)
    (hSpelled : graph.DeletesSpelled uuid batch) :
    (graph.afterBatch uuid batch).Consistent uuid := by
  by_cases hAccepts : graph.Accepts uuid batch
  · obtain ⟨session, hFold, hAfter⟩ := applyOperations_of_accepts hAccepts
    have hSession : session.graph.Consistent uuid :=
      session_consistent hGraph hSpelled hAccepts.1 (List.append_nil _).symm hFold
    rw [hAfter]
    intro actionId row hRow
    refine (hSession hRow).mono ?_ fun source hSource => hSource
    rfl
  · rwa [afterBatch_of_not_accepts hAccepts]

theorem Consistent.batchSafe (hGraph : graph.Consistent uuid) : graph.BatchSafe uuid batch where
  bumped := by
    rintro hAccepts ⟨op, hOp, hStructural⟩
    obtain ⟨session, hFold, hAfter⟩ := applyOperations_of_accepts hAccepts
    have hAny : batch.operations.any GraphOperation.isStructural :=
      List.any_eq_true.mpr ⟨op, hOp, hStructural⟩
    rw [hAfter, ← session_graphVersion hFold]
    exact if_pos hAny
  keptVersion := by
    intro hNot
    by_cases hAccepts : graph.Accepts uuid batch
    · obtain ⟨session, hFold, hAfter⟩ := applyOperations_of_accepts hAccepts
      have hAny : ¬ batch.operations.any GraphOperation.isStructural := fun hAny =>
        hNot ⟨hAccepts, List.any_eq_true.mp hAny⟩
      rw [hAfter, ← session_graphVersion hFold]
      exact if_neg hAny
    · rw [afterBatch_of_not_accepts hAccepts]
  refused := afterBatch_of_not_accepts
  deletes := by
    intro hSpelled actionId session next hComes hNext
    have hNode := hSpelled actionId session hComes
    obtain ⟨hVersion, done, rest, hOps, hDone⟩ := hComes
    cases hNext
    exact GraphSession.deleteNode_removes
      (session_consistent hGraph hSpelled hVersion hOps hDone) hNode

end Graph

/-- The batches that deletions meet no other spelling in. -/
def SpelledStep (uuid : UuidText Id) (graph : Graph Id) (batch : GraphBatch Id)
    (next : Graph Id) : Prop :=
  graph.DeletesSpelled uuid batch ∧ next = graph.afterBatch uuid batch

/-- Every source that the batch adds an edge from is spelled `str(id)`. -/
def GraphBatch.SpelledSources (batch : GraphBatch Id) (uuid : UuidText Id) : Prop :=
  ∀ payload, .addEdge payload ∈ batch.operations → ∀ source,
    uuid.parse payload.sourceId = some source → payload.sourceId = uuid.str source

namespace Graph

variable {graph : Graph Id} {batch : GraphBatch Id}

/-- Clients that spell sources canonically store only canonical edges. -/
theorem session_canonical (hGraph : graph.Canonical uuid) (hBatch : batch.SpelledSources uuid)
    {done rest : List (GraphOperation Id)} {session : GraphSession Id}
    (hOps : batch.operations = done ++ rest)
    (hDone : done.foldlM (GraphSession.applyOperation uuid) graph.openSession = .ok session) :
    session.graph.Canonical uuid := by
  refine Checks.foldlM_reached (fun session => session.graph.Canonical uuid) hGraph ?_ hOps hDone
  intro done op rest state next hItems _ hState hNext edge hStores source hNames
  rcases GraphSession.applyOperation_stores hNext hStores with hOld | ⟨payload, rfl, hText⟩
  · exact hState hOld hNames
  · have hMem : .addEdge payload ∈ batch.operations := by
      rw [hItems]
      simp
    obtain ⟨text, hSource, hParse⟩ := EdgeData.names_iff.mp hNames
    obtain rfl : payload.sourceId = text := by
      rw [hText] at hSource
      exact JsonField.str.inj hSource
    rw [hText, hBatch payload hMem source hParse]

theorem Canonical.deletesSpelled (hGraph : graph.Canonical uuid)
    (hBatch : batch.SpelledSources uuid) : graph.DeletesSpelled uuid batch := by
  rintro actionId session ⟨-, done, rest, hOps, hDone⟩
  exact (session_canonical hGraph hBatch hOps hDone).spelledCanonically

theorem Canonical.afterBatch (hGraph : graph.Canonical uuid)
    (hBatch : batch.SpelledSources uuid) : (graph.afterBatch uuid batch).Canonical uuid := by
  by_cases hAccepts : graph.Accepts uuid batch
  · obtain ⟨session, hFold, hAfter⟩ := applyOperations_of_accepts hAccepts
    rw [hAfter]
    exact session_canonical hGraph hBatch (List.append_nil _).symm hFold
  · rwa [afterBatch_of_not_accepts hAccepts]

end Graph

/-- The condition on deletions holds in every run from a graph of canonical
edges whose clients spell sources canonically. -/
theorem Run.spelled_of_canonical {start graph : Graph Id} {batches : List (GraphBatch Id)}
    (hStart : start.Canonical uuid)
    (hRun : Run (fun graph batch next => batch.SpelledSources uuid ∧
      next = graph.afterBatch uuid batch) start batches graph) :
    Run (SpelledStep uuid) start batches graph := by
  suffices hBoth : Run (SpelledStep uuid) start batches graph ∧ graph.Canonical uuid from hBoth.1
  induction hRun with
  | nil => exact ⟨.nil, hStart⟩
  | cons batch _ hStep ih =>
      obtain ⟨hSources, rfl⟩ := hStep
      obtain ⟨hBefore, hCanonical⟩ := ih
      exact ⟨.cons batch hBefore ⟨hCanonical.deletesSpelled hSources, rfl⟩,
        hCanonical.afterBatch hSources⟩

/-- In every run whose deletions meet only canonical spellings of the node they
delete, the graph stays consistent and every batch is safe. -/
theorem graph_store_safety {start graph : Graph Id} {batches : List (GraphBatch Id)}
    (hStart : start.Consistent uuid) (hRun : Run (SpelledStep uuid) start batches graph) :
    graph.Consistent uuid ∧ ∀ batch, graph.BatchSafe uuid batch := by
  have hGraph : graph.Consistent uuid := by
    refine Run.invariant (fun _ graph => graph.Consistent uuid) hStart ?_ hRun
    rintro _ state _ batch hState ⟨hSpelled, rfl⟩
    exact hState.afterBatch hSpelled
  exact ⟨hGraph, fun batch => hGraph.batchSafe⟩

/-- UUIDs of two actions and a workflow, in lower and upper case. -/
def sampleUuid : UuidText (Fin 3) where
  str
    | 0 => "00000000-0000-4000-8000-00000000000a"
    | 1 => "00000000-0000-4000-8000-00000000000b"
    | 2 => "00000000-0000-4000-8000-00000000000c"
  parse text :=
    [("00000000-0000-4000-8000-00000000000a", 0), ("00000000-0000-4000-8000-00000000000A", 0),
      ("00000000-0000-4000-8000-00000000000b", 1), ("00000000-0000-4000-8000-00000000000B", 1),
      ("00000000-0000-4000-8000-00000000000c", 2),
      ("00000000-0000-4000-8000-00000000000C", 2)].lookup text
  parse_str := by decide

def emptyGraph : Graph (Fin 3) :=
  ⟨2, 1, ∅, ⟨0, 0⟩, ⟨0, 0, 1⟩⟩

def sampleNode (title : String) : AddNodePayload :=
  ⟨"core.transform.reshape", title, none, none, none, ⟨0, 0⟩⟩

/-- Two nodes and an edge from the first to the second, whose source is spelled
`sourceId`. -/
def connectNodes (sourceId : String) : GraphBatch (Fin 3) :=
  ⟨1, [.addNode 0 (sampleNode "First"), .addNode 1 (sampleNode "Second"),
    .addEdge ⟨sourceId, .udf, 1, none⟩], true⟩

def deleteFirst : GraphBatch (Fin 3) :=
  ⟨2, [.deleteNode 0], true⟩

theorem emptyGraph_consistent : emptyGraph.Consistent sampleUuid := by
  intro actionId row hRow
  cases hRow

/-- Two nodes are connected, and the source of the edge is deleted. -/
theorem connectNodes_graph_store_safety : ∃ graph : Graph (Fin 3),
    Run (SpelledStep sampleUuid) emptyGraph
      [deleteFirst, connectNodes "00000000-0000-4000-8000-00000000000a"] graph ∧
    graph.actions.lookup 0 = none ∧
    (graph.actions.lookup 1).map ActionRow.upstreamEdges = some [] ∧
    graph.Consistent sampleUuid ∧ ∀ batch, graph.BatchSafe sampleUuid batch := by
  let connected :=
    emptyGraph.afterBatch sampleUuid (connectNodes "00000000-0000-4000-8000-00000000000a")
  have hRun : Run (SpelledStep sampleUuid) emptyGraph
      [deleteFirst, connectNodes "00000000-0000-4000-8000-00000000000a"]
      (connected.afterBatch sampleUuid deleteFirst) := by
    refine Run.spelled_of_canonical ?_ (.cons _ (.cons _ .nil ⟨?_, rfl⟩) ⟨?_, rfl⟩)
    · rintro edge ⟨actionId, row, hRow, -⟩
      cases hRow
    · intro payload hPayload source hSource
      simp only [connectNodes, List.mem_cons, List.not_mem_nil, or_false, reduceCtorEq, false_or,
        GraphOperation.addEdge.injEq] at hPayload
      subst hPayload
      revert source
      decide
    · intro payload hPayload
      simp [deleteFirst] at hPayload
  exact ⟨_, hRun, rfl, rfl, graph_store_safety emptyGraph_consistent hRun⟩

/-- The client spells the source in upper case.  The deletion of the source
leaves the edge behind. -/
theorem upperCaseSource_not_consistent : ∃ graph : Graph (Fin 3),
    emptyGraph.Consistent sampleUuid ∧
    Run (fun graph batch next => next = graph.afterBatch sampleUuid batch) emptyGraph
      [deleteFirst, connectNodes "00000000-0000-4000-8000-00000000000A"] graph ∧
    ¬ graph.Consistent sampleUuid := by
  let connected :=
    emptyGraph.afterBatch sampleUuid (connectNodes "00000000-0000-4000-8000-00000000000A")
  let edge := EdgeData.ofKey ⟨"00000000-0000-4000-8000-00000000000A", .udf, some .success⟩
  refine ⟨connected.afterBatch sampleUuid deleteFirst, emptyGraph_consistent,
    .cons _ (.cons _ .nil rfl) rfl, fun hConsistent => ?_⟩
  obtain ⟨row, hRow, hEdges⟩ : ∃ row,
      (connected.afterBatch sampleUuid deleteFirst).actions.lookup 1 = some row ∧
        row.upstreamEdges = [edge] :=
    ⟨_, rfl, rfl⟩
  have hEdge : edge ∈ row.upstreamEdges := by simp [hEdges]
  rcases (hConsistent hRow).named edge hEdge with hTrigger | ⟨source, hSource, hNames⟩
  · revert hTrigger
    decide
  · have hFirst : source = 0 := by
      revert source
      decide
    subst hFirst
    revert hSource
    decide

end Tracecat
