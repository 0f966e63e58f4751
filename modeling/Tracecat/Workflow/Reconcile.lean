import Tracecat.Workflow.DraftRows

/-!
# Reconciliation of the draft

`_reconcile_graph_object_with_actions` (`workflow/management/management.py`)
drops the upstream edges whose source it does not find.  What it keeps of an
edge that the build reads, and which actions the build then reaches.
-/

namespace Tracecat
namespace Workflow

open Checks

variable {Id Args : Type} (uuid : PyUuid Id) (workflowId : Id)

/-! ## The reconciliation -/

/-- `str(edge.get("source_id", ""))`.  The text of a number, a list or an object
is no identifier and is left out. -/
def sourceIdText (edge : EdgeData) : Option String :=
  match edge.sourceId with
  | .missing => some ""
  | .null => some "None"
  | .str sourceId => some sourceId
  | .other _ => none

def triggerIdOf : String :=
  "trigger-" ++ uuid.str workflowId

/-- The edge goes into `filtered_edges`. -/
def keepsEdge (validActionIds : List String) (edge : EdgeData) : Bool :=
  match edge.sourceType with
  | .str sourceType =>
      if sourceType = "trigger" then sourceIdText edge = some (triggerIdOf uuid workflowId)
      else if sourceType = "udf" then
        validActionIds.any fun actionId => sourceIdText edge = some actionId
      else false
  | .missing => validActionIds.any fun actionId => sourceIdText edge = some actionId
  | _ => false

/-- `valid_action_ids`. -/
def validActionIds (actions : List (Action Id)) : List String :=
  actions.map fun action => uuid.str action.id

/-- `action.upstream_edges = filtered_edges`. -/
def Action.filterEdges (keeps : EdgeData → Bool) (action : Action Id) : Action Id :=
  { action with upstreamEdges := action.upstreamEdges.filter keeps }

/-- `_reconcile_graph_object_with_actions`: the rows, and whether one has
changed. -/
def reconcileGraphObjectWithActions (actions : List (Action Id)) : List (Action Id) × Bool :=
  let keeps := keepsEdge uuid workflowId (validActionIds uuid actions)
  (actions.map (Action.filterEdges keeps),
    actions.any fun action => action.upstreamEdges.any fun edge => !keeps edge)

/-- The rows after a number of reconciliations. -/
def reconciled (actions : List (Action Id)) : Nat → List (Action Id)
  | 0 => actions
  | n + 1 => (reconcileGraphObjectWithActions uuid workflowId (reconciled actions n)).1

variable {uuid workflowId}

theorem validActionIds_filterEdges (keeps : EdgeData → Bool) (actions : List (Action Id)) :
    validActionIds uuid (actions.map (Action.filterEdges keeps)) = validActionIds uuid actions := by
  unfold validActionIds
  rw [List.map_map]
  rfl

theorem reconcile_reconciled (actions : List (Action Id)) :
    reconcileGraphObjectWithActions uuid workflowId
        (reconcileGraphObjectWithActions uuid workflowId actions).1 =
      ((reconcileGraphObjectWithActions uuid workflowId actions).1, false) := by
  unfold reconcileGraphObjectWithActions
  simp only [validActionIds_filterEdges, Prod.mk.injEq, List.map_map]
  constructor
  · refine List.map_congr_left fun action _ => ?_
    simp [Action.filterEdges, List.filter_filter]
  · rw [List.any_eq_false]
    intro action hAction
    obtain ⟨before, -, rfl⟩ := List.mem_map.mp hAction
    rw [Bool.not_eq_true, List.any_eq_false]
    intro edge hEdge
    simpa using (List.mem_filter.mp hEdge).2

theorem reconciled_succ (actions : List (Action Id)) (n : Nat) :
    reconciled uuid workflowId actions (n + 1) =
      (reconcileGraphObjectWithActions uuid workflowId actions).1 := by
  induction n with
  | zero => rfl
  | succ n ih =>
      rw [reconciled, ih, reconcile_reconciled]

/-! ## Edges that the build reads -/

namespace UpstreamEdgeData

variable (edge : UpstreamEdgeData)

variable (uuid workflowId) in
/-- The reconciliation keeps the edge. -/
def kept (ids : List Id) : Bool :=
  match edge.sourceType with
  | some .trigger => edge.sourceId = triggerIdOf uuid workflowId
  | _ => (ids.map uuid.str).contains edge.sourceId

variable (uuid) in
/-- The edge comes from an action; an edge without a source type does too, when
its source is the UUID of one. -/
def FromUdf (source : Id) : Prop :=
  edge.sourceType ≠ some .trigger ∧ uuid.parse edge.sourceId = some source

variable (uuid workflowId) in
/-- The edge comes from the trigger of the workflow, by its present format. -/
def FromOwnTrigger : Prop :=
  edge.sourceType = some .trigger ∧ edge.sourceId = triggerIdOf uuid workflowId

end UpstreamEdgeData

theorem triggerIdOf_ne_empty : triggerIdOf uuid workflowId ≠ "" := by
  intro hEmpty
  have hLength := congrArg String.length hEmpty
  unfold triggerIdOf at hLength
  rw [String.length_append] at hLength
  simp at hLength

theorem parse_of_trigger {text : String}
    (hPrefix : "trigger-".toList.isPrefixOf text.toList = true) : uuid.parse text = none := by
  obtain ⟨rest, hRest⟩ := List.isPrefixOf_iff_prefix.mp hPrefix
  have hText : text = "trigger-" ++ String.ofList rest := by
    apply String.toList_injective
    have hList := String.toList_ofList (l := rest)
    rw [← hRest, String.toList_append, hList]
  rw [hText, uuid.parse_trigger]

theorem sourceAction?_eq_some {edge : UpstreamEdgeData} {source : Id} :
    edge.sourceAction? uuid = some source ↔ edge.FromUdf uuid source := by
  unfold UpstreamEdgeData.sourceAction? UpstreamEdgeData.FromUdf
  by_cases hEmpty : edge.sourceId = ""
  · simp [hEmpty, uuid.parse_empty]
  · cases hType : edge.sourceType with
    | none =>
        by_cases hPrefix : "trigger-".toList.isPrefixOf edge.sourceId.toList = true
        · rw [parse_of_trigger hPrefix]
          simp
        · rw [Bool.not_eq_true] at hPrefix
          simp only [UpstreamEdgeData.fromTrigger, hEmpty, hType, hPrefix]
          simp
    | some type => cases type <;> simp [UpstreamEdgeData.fromTrigger, hEmpty, hType]

/-- What is kept of the edges that make roots: those of the workflow's own
trigger, in the present format. -/
theorem kept_fromTrigger_iff {ids : List Id} {edge : UpstreamEdgeData} :
    edge.kept uuid workflowId ids = true ∧ edge.fromTrigger = true ↔
      edge.FromOwnTrigger uuid workflowId := by
  unfold UpstreamEdgeData.kept UpstreamEdgeData.FromOwnTrigger UpstreamEdgeData.fromTrigger
  cases hType : edge.sourceType with
  | none =>
      simp only [List.contains_iff_mem, List.mem_map]
      constructor
      · rintro ⟨⟨id, -, hId⟩, hTrigger⟩
        have hPrefix : "trigger-".toList.isPrefixOf edge.sourceId.toList = true := by
          simpa using (Bool.and_eq_true_iff.mp hTrigger).2
        have hParse : uuid.parse edge.sourceId = none := parse_of_trigger hPrefix
        rw [← hId, uuid.parse_str] at hParse
        cases hParse
      · rintro ⟨hTrigger, -⟩
        cases hTrigger
  | some type =>
      cases type with
      | udf => simp
      | trigger =>
          have hText : triggerIdOf uuid workflowId ≠ "" := triggerIdOf_ne_empty
          simp only [decide_eq_true_eq, true_and, ne_eq, decide_true, Bool.true_or, Bool.and_true,
            decide_not, Bool.not_eq_true', decide_eq_false_iff_not, and_iff_left_iff_imp]
          intro hOwn
          rw [hOwn]
          exact hText

/-- A literal field holds the text of its value, or it is missing. -/
theorem field_of_literal {α : Type} {values : List (String × α)} {field : JsonField}
    {read : Option α} (hRead : validateLiteral values field = .ok read) :
    field = .missing ∧ read = none ∨
      ∃ entry ∈ values, field = .str entry.1 ∧ read = some entry.2 := by
  unfold validateLiteral at hRead
  split at hRead
  · exact Or.inl ⟨rfl, (Except.ok.inj hRead).symm⟩
  · split at hRead
    · rename_i value _ entry hFind
      have hText : entry.1 = value := by simpa using List.find?_some hFind
      exact Or.inr ⟨entry, List.mem_of_find?_eq_some hFind, by rw [hText],
        (Except.ok.inj hRead).symm⟩
    · cases hRead
  · cases hRead

theorem fields_of_valid {edge : EdgeData} {valid : UpstreamEdgeData}
    (hValid : validateUpstreamEdge edge = .ok valid) :
    edge.sourceId = .str valid.sourceId ∧
      (edge.sourceType = .missing ∧ valid.sourceType = none ∨
        ∃ type : EdgeSourceType, edge.sourceType = .str type.text ∧
          valid.sourceType = some type) := by
  unfold validateUpstreamEdge at hValid
  split at hValid
  · rename_i hType hHandle
    obtain rfl := Except.ok.inj hValid
    refine ⟨by assumption, ?_⟩
    rcases field_of_literal hType with hMissing | ⟨entry, hEntry, hField, hRead⟩
    · exact Or.inl hMissing
    · refine Or.inr ⟨entry.2, ?_, hRead⟩
      rw [hField]
      rcases List.mem_pair.mp hEntry with rfl | rfl <;> rfl
  · cases hValid

/-- The reconciliation reads an edge as it is validated. -/
theorem keepsEdge_of_valid {ids : List Id} {edge : EdgeData} {valid : UpstreamEdgeData}
    (hValid : validateUpstreamEdge edge = .ok valid) :
    keepsEdge uuid workflowId (ids.map uuid.str) edge = valid.kept uuid workflowId ids := by
  obtain ⟨hId, hType⟩ := fields_of_valid hValid
  have hKnown : ((ids.map uuid.str).any fun actionId => sourceIdText edge = some actionId) =
      (ids.map uuid.str).contains valid.sourceId := by
    rw [sourceIdText, hId, List.contains_eq_any_beq]
    refine congrArg _ (funext fun actionId => ?_)
    rw [Bool.eq_iff_iff]
    simp
  unfold keepsEdge UpstreamEdgeData.kept
  rcases hType with ⟨hField, hRead⟩ | ⟨type, hField, hRead⟩
  · rw [hField, hRead]
    exact hKnown
  · rw [hField, hRead]
    cases type with
    | trigger => simp [EdgeSourceType.text, sourceIdText, hId]
    | udf =>
        simp only [EdgeSourceType.text]
        exact hKnown

end Workflow
end Tracecat
