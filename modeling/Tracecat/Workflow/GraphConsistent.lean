import Tracecat.Lib.Checks
import Tracecat.Workflow.Graph

/-!
# Consistent graphs

A graph is consistent when every stored edge names an action of the workflow or
its trigger, and no action holds two edges with one key.  An edge names an
action by any text that reads as its UUID, which is how the readers of the
graph resolve it.  Each operation keeps a consistent graph consistent; a
deletion does so where the edges that name the node spell it as the deletion
does.
-/

namespace Tracecat

variable {Id : Type} [DecidableEq Id] {uuid : UuidText Id}

/-- The source of the edge is the action. -/
def EdgeData.names (edge : EdgeData) (uuid : UuidText Id) (actionId : Id) : Bool :=
  match edge.sourceId with
  | .str text => uuid.parse text = some actionId
  | _ => false

theorem EdgeData.names_iff {edge : EdgeData} {actionId : Id} :
    edge.names uuid actionId ↔
      ∃ text, edge.sourceId = .str text ∧ uuid.parse text = some actionId := by
  unfold EdgeData.names
  cases edge.sourceId <;> simp

theorem EdgeData.storedEdgeDedupKey_ofKey (sourceId : String) (sourceType : EdgeSourceType)
    (sourceHandle : Option EdgeHandle) :
    (EdgeData.ofKey (edgeDedupKey sourceId sourceType sourceHandle)).storedEdgeDedupKey =
      some (edgeDedupKey sourceId sourceType sourceHandle) := by
  cases sourceType with
  | trigger => rfl
  | udf =>
      rcases sourceHandle with _ | _ | _ <;> rfl

namespace Graph

/-- The edges are fit to be stored with an action of the graph. -/
structure EdgesOk (graph : Graph Id) (uuid : UuidText Id) (edges : List EdgeData) : Prop where
  named : ∀ edge ∈ edges, edge.sourceId = .str (graph.triggerId uuid) ∨
    ∃ source ∈ graph.actions, edge.names uuid source
  keys : (edges.map EdgeData.storedEdgeDedupKey).Nodup

def Consistent (graph : Graph Id) (uuid : UuidText Id) : Prop :=
  ∀ ⦃actionId row⦄, graph.actions.lookup actionId = some row →
    graph.EdgesOk uuid row.upstreamEdges

/-- Every edge of another action that names `actionId` spells it `str(id)`. -/
def SpelledCanonically (graph : Graph Id) (uuid : UuidText Id) (actionId : Id) : Prop :=
  ∀ ⦃other row⦄, other ≠ actionId → graph.actions.lookup other = some row →
    ∀ edge ∈ row.upstreamEdges, edge.names uuid actionId →
      edge.sourceId = .str (uuid.str actionId)

/-- What is left of a graph after a node and the edges that name it are gone. -/
structure RemovesNode (before after : Graph Id) (uuid : UuidText Id) (actionId : Id) : Prop where
  gone : actionId ∉ after.actions
  others : ∀ ⦃other⦄, other ≠ actionId →
    after.actions.lookup other = (before.actions.lookup other).map fun row =>
      { row with upstreamEdges := row.upstreamEdges.filter fun edge => !edge.names uuid actionId }
  workflowId : after.workflowId = before.workflowId
  graphVersion : after.graphVersion = before.graphVersion
  triggerPosition : after.triggerPosition = before.triggerPosition
  viewport : after.viewport = before.viewport

/-- The edge is stored with some action. -/
def Stores (graph : Graph Id) (edge : EdgeData) : Prop :=
  ∃ actionId row, graph.actions.lookup actionId = some row ∧ edge ∈ row.upstreamEdges

/-- Every stored edge spells its source `str(id)`. -/
def Canonical (graph : Graph Id) (uuid : UuidText Id) : Prop :=
  ∀ ⦃edge⦄, graph.Stores edge → ∀ ⦃source⦄, edge.names uuid source →
    edge.sourceId = .str (uuid.str source)

variable {graph other : Graph Id} {edges : List EdgeData} {actionId : Id}

theorem EdgesOk.mono (hOk : graph.EdgesOk uuid edges) (hId : other.workflowId = graph.workflowId)
    (hMem : ∀ source ∈ graph.actions, source ∈ other.actions) : other.EdgesOk uuid edges where
  named := by
    intro edge hEdge
    rcases hOk.named edge hEdge with hTrigger | ⟨source, hSource, hNames⟩
    · left
      simpa [triggerId, hId] using hTrigger
    · exact .inr ⟨source, hMem source hSource, hNames⟩
  keys := hOk.keys

theorem EdgesOk.filter (hOk : graph.EdgesOk uuid edges) (keep : EdgeData → Bool) :
    graph.EdgesOk uuid (edges.filter keep) where
  named edge hEdge := hOk.named edge (List.mem_filter.mp hEdge).1
  keys := hOk.keys.sublist (List.filter_sublist.map _)

theorem EdgesOk.nil : graph.EdgesOk uuid [] where
  named := by simp
  keys := List.nodup_nil

theorem EdgesOk.addEdge (hOk : graph.EdgesOk uuid edges) {edge : EdgeData}
    {key : EdgeDedupKey} (hKey : edge.storedEdgeDedupKey = some key)
    (hNamed : edge.sourceId = .str (graph.triggerId uuid) ∨
      ∃ source ∈ graph.actions, edge.names uuid source) :
    graph.EdgesOk uuid
      (edges.filter (fun edge => edge.storedEdgeDedupKey ≠ some key) ++ [edge]) where
  named := by
    intro stored hStored
    rcases List.mem_append.mp hStored with hOld | hNew
    · exact (hOk.filter _).named stored hOld
    · rw [List.mem_singleton.mp hNew]
      exact hNamed
  keys := by
    rw [List.map_append, List.nodup_append]
    refine ⟨(hOk.filter _).keys, by simp, ?_⟩
    intro first hFirst second hSecond hEq
    obtain ⟨stored, hStored, rfl⟩ := List.mem_map.mp hFirst
    have hOther : stored.storedEdgeDedupKey ≠ some key := by
      simpa using (List.mem_filter.mp hStored).2
    rw [List.map_singleton, List.mem_singleton, hKey] at hSecond
    exact hOther (hEq.trans hSecond)

@[simp] theorem lookup_updateAction (update : ActionRow → ActionRow) (key : Id) :
    (graph.updateAction actionId update).actions.lookup key =
      (graph.actions.lookup key).map fun row => if key = actionId then update row else row := by
  simp [updateAction]

@[simp] theorem mem_updateAction (update : ActionRow → ActionRow) (key : Id) :
    key ∈ (graph.updateAction actionId update).actions ↔ key ∈ graph.actions := by
  simp [updateAction]

theorem Consistent.updateAction (hGraph : graph.Consistent uuid) {update : ActionRow → ActionRow}
    (hUpdate : ∀ row, graph.actions.lookup actionId = some row →
      graph.EdgesOk uuid (update row).upstreamEdges) :
    (graph.updateAction actionId update).Consistent uuid := by
  intro key row hRow
  rw [lookup_updateAction] at hRow
  obtain ⟨old, hOld, rfl⟩ := Option.map_eq_some_iff.mp hRow
  have hEdges : graph.EdgesOk uuid (if key = actionId then update old else old).upstreamEdges := by
    by_cases hKey : key = actionId
    · subst hKey
      simpa using hUpdate old hOld
    · simpa [hKey] using hGraph hOld
  exact hEdges.mono rfl fun source hSource => (mem_updateAction _ _).mpr hSource

theorem Consistent.updateAction_of_edges_eq (hGraph : graph.Consistent uuid)
    {update : ActionRow → ActionRow}
    (hEdges : ∀ row, (update row).upstreamEdges = row.upstreamEdges) :
    (graph.updateAction actionId update).Consistent uuid := by
  apply hGraph.updateAction
  intro row hRow
  rw [hEdges]
  exact hGraph hRow

theorem Canonical.spelledCanonically (hGraph : graph.Canonical uuid) :
    graph.SpelledCanonically uuid actionId :=
  fun other row _ hRow _ hEdge hNames => hGraph ⟨other, row, hRow, hEdge⟩ hNames

theorem Stores.updateAction {update : ActionRow → ActionRow} {edge : EdgeData}
    (hStores : (graph.updateAction actionId update).Stores edge) :
    (∃ row, graph.actions.lookup actionId = some row ∧ edge ∈ (update row).upstreamEdges) ∨
      graph.Stores edge := by
  obtain ⟨key, row, hRow, hEdge⟩ := hStores
  rw [lookup_updateAction] at hRow
  obtain ⟨old, hOld, rfl⟩ := Option.map_eq_some_iff.mp hRow
  by_cases hKey : key = actionId
  · subst hKey
    rw [if_pos rfl] at hEdge
    exact .inl ⟨old, hOld, hEdge⟩
  · rw [if_neg hKey] at hEdge
    exact .inr ⟨key, old, hOld, hEdge⟩

theorem Stores.of_updateAction_subset {update : ActionRow → ActionRow} {edge : EdgeData}
    (hStores : (graph.updateAction actionId update).Stores edge)
    (hSubset : ∀ row, (update row).upstreamEdges ⊆ row.upstreamEdges) : graph.Stores edge := by
  rcases hStores.updateAction with ⟨row, hRow, hEdge⟩ | hOld
  · exact ⟨actionId, row, hRow, hSubset row hEdge⟩
  · exact hOld

/-- A deletion keeps exactly the edges whose text differs, and in a consistent
graph that spells the node canonically these are the edges that do not name it. -/
theorem kept_iff_not_names (hSpelled : graph.SpelledCanonically uuid actionId)
    (hGraph : graph.Consistent uuid) {key : Id} {row : ActionRow} (hKey : key ≠ actionId)
    (hRow : graph.actions.lookup key = some row) {edge : EdgeData}
    (hEdge : edge ∈ row.upstreamEdges) :
    (match edge.sourceId.astext with
      | some sourceId => sourceId != uuid.str actionId
      | none => false) = !edge.names uuid actionId := by
  have hText : ∃ text, edge.sourceId = .str text := by
    rcases (hGraph hRow).named edge hEdge with hTrigger | ⟨source, _, hNames⟩
    · exact ⟨_, hTrigger⟩
    · obtain ⟨text, hText, _⟩ := EdgeData.names_iff.mp hNames
      exact ⟨text, hText⟩
  obtain ⟨text, hText⟩ := hText
  by_cases hNames : edge.names uuid actionId
  · have hSame := hSpelled hKey hRow edge hEdge hNames
    simp [hNames, hSame, JsonField.astext]
  · have hDiffers : text ≠ uuid.str actionId := by
      rintro rfl
      exact hNames (EdgeData.names_iff.mpr ⟨_, hText, uuid.parse_str actionId⟩)
    simp [hNames, hText, JsonField.astext, hDiffers]

end Graph

namespace GraphSession

variable {session next : GraphSession Id} {graph : Graph Id} {actionId : Id}

omit [DecidableEq Id] in
@[simp] theorem write_graph : (session.write graph).graph = graph := rfl

theorem deleteNode_removes (hGraph : session.graph.Consistent uuid)
    (hSpelled : session.graph.SpelledCanonically uuid actionId) :
    session.graph.RemovesNode (session.deleteNode uuid actionId).graph uuid actionId where
  gone := by simp [deleteNode]
  others := by
    intro other hOther
    simp only [deleteNode, Graph.dropEdgesOf, Dict.lookup_erase_eq, hOther, if_false,
      Dict.lookup_mapValues]
    apply Option.map_congr
    intro row hRow
    congr 1
    apply List.filter_congr
    intro edge hEdge
    exact Graph.kept_iff_not_names hSpelled hGraph hOther hRow hEdge
  workflowId := rfl
  graphVersion := rfl
  triggerPosition := rfl
  viewport := rfl

end GraphSession

theorem Graph.Consistent.removesNode {before after : Graph Id} {actionId : Id}
    (hBefore : before.Consistent uuid) (hRemoves : before.RemovesNode after uuid actionId) :
    after.Consistent uuid := by
  intro key row hRow
  have hKey : key ≠ actionId := by
    rintro rfl
    exact hRemoves.gone ((Dict.mem_iff_lookup _ _).mpr ⟨row, hRow⟩)
  rw [hRemoves.others hKey] at hRow
  obtain ⟨old, hOld, rfl⟩ := Option.map_eq_some_iff.mp hRow
  have hOk := (hBefore hOld).filter fun edge => !edge.names uuid actionId
  refine ⟨fun edge hEdge => ?_, hOk.keys⟩
  rcases hOk.named edge hEdge with hTrigger | ⟨source, hSource, hNames⟩
  · left
    simpa [triggerId, hRemoves.workflowId] using hTrigger
  -- the source is still there, since the edge was kept
  · have hOther : source ≠ actionId := by
      rintro rfl
      simpa [hNames] using (List.mem_filter.mp hEdge).2
    refine .inr ⟨source, ?_, hNames⟩
    obtain ⟨sourceRow, hSourceRow⟩ := (Dict.mem_iff_lookup _ _).mp hSource
    rw [Dict.mem_iff_lookup, hRemoves.others hOther, hSourceRow]
    exact ⟨_, rfl⟩

namespace GraphSession

variable {session next : GraphSession Id}

theorem addNode_consistent {id : Id} {payload : AddNodePayload}
    (hGraph : session.graph.Consistent uuid) (hNext : session.addNode id payload = .ok next) :
    next.graph.Consistent uuid := by
  unfold addNode at hNext
  rw [Checks.throw_if_eq_ok] at hNext
  obtain ⟨_, hNext⟩ := hNext
  cases hNext
  intro key row hRow
  rw [write_graph, Dict.lookup_insert_eq] at hRow
  by_cases hKey : key = id
  · rw [if_pos hKey] at hRow
    cases hRow
    exact Graph.EdgesOk.nil
  · rw [if_neg hKey] at hRow
    refine (hGraph hRow).mono ?_ ?_
    · rfl
    · intro source hSource
      simp [AList.mem_insert, hSource]

theorem checkSource_named {payload : EdgePayload Id}
    (hCheck : session.checkSource uuid payload = .ok ()) {edge : EdgeData}
    (hEdge : edge.sourceId = .str payload.sourceId) :
    edge.sourceId = .str (session.graph.triggerId uuid) ∨
      ∃ source ∈ session.graph.actions, edge.names uuid source := by
  unfold checkSource at hCheck
  split at hCheck
  · split at hCheck
    · cases hCheck
    · rename_i source hParse
      split at hCheck
      · rename_i hSource
        exact .inr ⟨source, hSource, EdgeData.names_iff.mpr ⟨_, hEdge, hParse⟩⟩
      · cases hCheck
  · split at hCheck
    · rename_i hTrigger
      exact .inl (hTrigger ▸ hEdge)
    · cases hCheck

section

variable (hGraph : session.graph.Consistent uuid)
include hGraph

theorem addEdge_consistent {payload : EdgePayload Id}
    (hNext : session.addEdge uuid payload = .ok next) : next.graph.Consistent uuid := by
  unfold addEdge at hNext
  rw [Checks.then_eq_ok, Checks.then_eq_ok] at hNext
  obtain ⟨hSource, _, hNext⟩ := hNext
  cases hNext
  apply hGraph.updateAction
  intro row hRow
  apply (hGraph hRow).addEdge (EdgeData.storedEdgeDedupKey_ofKey _ _ _)
  apply checkSource_named hSource
  cases hType : payload.sourceType <;> simp [EdgeData.ofKey, edgeDedupKey]

theorem deleteEdge_consistent {payload : EdgePayload Id}
    (hNext : session.deleteEdge uuid payload = .ok next) : next.graph.Consistent uuid := by
  unfold deleteEdge at hNext
  rw [Checks.then_eq_ok] at hNext
  obtain ⟨_, hNext⟩ := hNext
  cases hNext
  apply hGraph.updateAction
  intro row hRow
  exact (hGraph hRow).filter _

theorem moveNode_consistent {pos : NodePosition} (hNext : moveNode uuid session pos = .ok next) :
    next.graph.Consistent uuid := by
  unfold moveNode at hNext
  split at hNext
  · split at hNext
    · cases hNext
    · cases hNext
      exact hGraph.updateAction_of_edges_eq fun _ => rfl
  · cases hNext
    exact hGraph

theorem moveNodes_consistent {positions : List NodePosition}
    (hNext : session.moveNodes uuid positions = .ok next) : next.graph.Consistent uuid := by
  apply Checks.foldlM_keeps (fun session => session.graph.Consistent uuid) _ hGraph hNext
  intro _ _ _ hState hStep
  exact moveNode_consistent hState hStep

theorem addWorkflow_consistent {graph : Graph Id} (hNext : session.addWorkflow graph = .ok next)
    (hId : graph.workflowId = session.graph.workflowId)
    (hActions : graph.actions = session.graph.actions) : next.graph.Consistent uuid := by
  unfold addWorkflow at hNext
  rw [Checks.throw_if_eq_ok] at hNext
  obtain ⟨_, hNext⟩ := hNext
  cases hNext
  intro key row hRow
  rw [write_graph, hActions] at hRow
  exact (hGraph hRow).mono hId fun source hSource => hActions ▸ hSource

end

theorem moveNode_graphVersion {pos : NodePosition} (hNext : moveNode uuid session pos = .ok next) :
    next.graph.graphVersion = session.graph.graphVersion := by
  unfold moveNode at hNext
  split at hNext
  · split at hNext <;> cases hNext
    rfl
  · cases hNext
    rfl

theorem applyOperation_graphVersion {op : GraphOperation Id}
    (hNext : session.applyOperation uuid op = .ok next) :
    next.graph.graphVersion = session.graph.graphVersion := by
  cases op with
  | addNode id payload =>
      obtain ⟨_, hNext⟩ := Checks.throw_if_eq_ok.mp hNext
      cases hNext
      rfl
  | updateNode payload =>
      cases hNext
      rfl
  | deleteNode actionId =>
      cases hNext
      rfl
  | addEdge payload =>
      obtain ⟨_, hNext⟩ := Checks.then_eq_ok.mp hNext
      obtain ⟨_, hNext⟩ := Checks.then_eq_ok.mp hNext
      cases hNext
      rfl
  | deleteEdge payload =>
      obtain ⟨_, hNext⟩ := Checks.then_eq_ok.mp hNext
      cases hNext
      rfl
  | moveNodes positions =>
      let Same (state : GraphSession Id) : Prop :=
        state.graph.graphVersion = session.graph.graphVersion
      have hStart : Same session := rfl
      exact Checks.foldlM_keeps Same (fun hState hStep => (moveNode_graphVersion hStep).trans hState)
        hStart hNext
  | updateTriggerPosition position =>
      obtain ⟨_, hNext⟩ := Checks.throw_if_eq_ok.mp hNext
      cases hNext
      rfl
  | updateViewport viewport =>
      obtain ⟨_, hNext⟩ := Checks.throw_if_eq_ok.mp hNext
      cases hNext
      rfl
  | malformed type => cases hNext

/-- Each operation keeps a consistent graph consistent, a deletion where the
edges that name its node are spelled canonically. -/
theorem applyOperation_consistent {op : GraphOperation Id}
    (hGraph : session.graph.Consistent uuid)
    (hSpelled : ∀ actionId, op = .deleteNode actionId →
      session.graph.SpelledCanonically uuid actionId)
    (hNext : session.applyOperation uuid op = .ok next) : next.graph.Consistent uuid := by
  cases op with
  | addNode id payload => exact addNode_consistent hGraph hNext
  | updateNode payload =>
      cases hNext
      exact hGraph.updateAction_of_edges_eq fun _ => rfl
  | deleteNode actionId =>
      cases hNext
      exact hGraph.removesNode (deleteNode_removes hGraph (hSpelled actionId rfl))
  | addEdge payload => exact addEdge_consistent hGraph hNext
  | deleteEdge payload => exact deleteEdge_consistent hGraph hNext
  | moveNodes positions => exact moveNodes_consistent hGraph hNext
  | updateTriggerPosition position => exact addWorkflow_consistent hGraph hNext rfl rfl
  | updateViewport viewport => exact addWorkflow_consistent hGraph hNext rfl rfl
  | malformed type => cases hNext

theorem moveNode_stores {pos : NodePosition} {edge : EdgeData}
    (hNext : moveNode uuid session pos = .ok next) (hStores : next.graph.Stores edge) :
    session.graph.Stores edge := by
  unfold moveNode at hNext
  split at hNext
  · split at hNext <;> cases hNext
    exact hStores.of_updateAction_subset fun _ => List.Subset.refl _
  · cases hNext
    exact hStores

/-- The edges that an operation stores were stored before, or `_add_edge` has
written them. -/
theorem applyOperation_stores {op : GraphOperation Id} {edge : EdgeData}
    (hNext : session.applyOperation uuid op = .ok next) (hStores : next.graph.Stores edge) :
    session.graph.Stores edge ∨
      ∃ payload, op = .addEdge payload ∧ edge.sourceId = .str payload.sourceId := by
  cases op with
  | addNode id payload =>
      obtain ⟨_, hNext⟩ := Checks.throw_if_eq_ok.mp hNext
      cases hNext
      obtain ⟨key, row, hRow, hEdge⟩ := hStores
      rw [write_graph, Dict.lookup_insert_eq] at hRow
      by_cases hKey : key = id
      · rw [if_pos hKey] at hRow
        cases hRow
        cases hEdge
      · rw [if_neg hKey] at hRow
        exact .inl ⟨key, row, hRow, hEdge⟩
  | updateNode payload =>
      cases hNext
      exact .inl (hStores.of_updateAction_subset fun _ => List.Subset.refl _)
  | deleteNode actionId =>
      cases hNext
      obtain ⟨key, row, hRow, hEdge⟩ := hStores
      simp only [deleteNode, Graph.dropEdgesOf, Dict.lookup_erase_eq, Dict.lookup_mapValues] at hRow
      split at hRow
      · cases hRow
      · obtain ⟨old, hOld, rfl⟩ := Option.map_eq_some_iff.mp hRow
        exact .inl ⟨key, old, hOld, (List.mem_filter.mp hEdge).1⟩
  | addEdge payload =>
      obtain ⟨_, hNext⟩ := Checks.then_eq_ok.mp hNext
      obtain ⟨_, hNext⟩ := Checks.then_eq_ok.mp hNext
      cases hNext
      rcases hStores.updateAction with ⟨row, hRow, hEdge⟩ | hOld
      · rcases List.mem_append.mp hEdge with hKept | hNew
        · exact .inl ⟨payload.targetId, row, hRow, (List.mem_filter.mp hKept).1⟩
        · rw [List.mem_singleton.mp hNew]
          refine .inr ⟨payload, rfl, ?_⟩
          cases hType : payload.sourceType <;> simp [EdgeData.ofKey, edgeDedupKey]
      · exact .inl hOld
  | deleteEdge payload =>
      obtain ⟨_, hNext⟩ := Checks.then_eq_ok.mp hNext
      cases hNext
      exact .inl (hStores.of_updateAction_subset fun row => List.filter_sublist.subset)
  | moveNodes positions =>
      let Old (state : GraphSession Id) : Prop :=
        state.graph.Stores edge → session.graph.Stores edge
      have hStart : Old session := id
      exact .inl (Checks.foldlM_keeps Old
        (fun hState hStep hStored => hState (moveNode_stores hStep hStored)) hStart hNext hStores)
  | updateTriggerPosition position =>
      obtain ⟨_, hNext⟩ := Checks.throw_if_eq_ok.mp hNext
      cases hNext
      exact .inl hStores
  | updateViewport viewport =>
      obtain ⟨_, hNext⟩ := Checks.throw_if_eq_ok.mp hNext
      cases hNext
      exact .inl hStores
  | malformed type => cases hNext

end GraphSession

end Tracecat
