import Tracecat.Workflow.Reconcile

/-!
# What the build makes of the edges

The actions that `build_action_statements_from_actions` reaches and the
statements that it makes of them, for any list of rows, and the rows that a
reconciliation leaves.
-/

namespace Tracecat
namespace Workflow

open Checks

variable {Id Args : Type} {uuid : PyUuid Id} {workflowId : Id} {yaml : Yaml Args}
  {parsesDate : String → Bool}

/-! ## Rows with their edges -/

def edgedIds (edged : List (EdgedAction Id)) : List Id :=
  edged.map fun action => action.1.id

theorem validateEdges_eq_ok {action : Action Id} {read : EdgedAction Id} :
    validateEdges action = .ok read ↔
      read.1 = action ∧
        List.Forall₂ (fun edge valid => validateUpstreamEdge edge = .ok valid)
          action.upstreamEdges read.2 := by
  unfold validateEdges
  rw [bind_eq_ok]
  simp only [mapM_eq_ok_iff]
  constructor
  · rintro ⟨edges, hEdges, hRead⟩
    obtain rfl := Except.ok.inj hRead
    exact ⟨rfl, hEdges⟩
  · rintro ⟨rfl, hEdges⟩
    exact ⟨read.2, hEdges, rfl⟩

theorem edgedIds_of_read {actions : List (Action Id)} {edged : List (EdgedAction Id)}
    (hRead : actions.mapM validateEdges = .ok edged) : edgedIds edged = actions.map Action.id := by
  unfold edgedIds
  have hRows := mapM_eq_ok_iff.mp hRead
  induction hRows with
  | nil => rfl
  | cons hRow hRows ih =>
      rw [List.map_cons, List.map_cons, ih (mapM_eq_ok hRows), (validateEdges_eq_ok.mp hRow).1]

variable [DecidableEq Id]

variable (uuid workflowId) in
/-- The rows that a reconciliation leaves, with the edges that it keeps. -/
def keptRows (edged : List (EdgedAction Id)) : List (EdgedAction Id) :=
  edged.map fun action =>
    (action.1.filterEdges (keepsEdge uuid workflowId ((edgedIds edged).map uuid.str)),
      action.2.filter fun edge => edge.kept uuid workflowId (edgedIds edged))

theorem forall₂_filter {keeps : EdgeData → Bool} {kept : UpstreamEdgeData → Bool}
    (hSame : ∀ edge valid, validateUpstreamEdge edge = .ok valid → keeps edge = kept valid)
    {edges : List EdgeData} {valids : List UpstreamEdgeData}
    (hEdges : List.Forall₂ (fun edge valid => validateUpstreamEdge edge = .ok valid) edges valids) :
    List.Forall₂ (fun edge valid => validateUpstreamEdge edge = .ok valid) (edges.filter keeps)
      (valids.filter kept) := by
  induction hEdges with
  | nil => exact .nil
  | @cons edge valid edges valids hEdge _ ih =>
      rw [List.filter_cons, List.filter_cons, hSame edge valid hEdge]
      by_cases hKept : kept valid = true
      · rw [if_pos hKept, if_pos hKept]
        exact .cons hEdge ih
      · rw [if_neg hKept, if_neg hKept]
        exact ih

omit [DecidableEq Id] in
theorem read_reconciled {actions : List (Action Id)} {edged : List (EdgedAction Id)}
    (hRead : actions.mapM validateEdges = .ok edged) :
    (reconcileGraphObjectWithActions uuid workflowId actions).1.mapM validateEdges =
      .ok (keptRows uuid workflowId edged) := by
  have hIds : validActionIds uuid actions = (edgedIds edged).map uuid.str := by
    rw [edgedIds_of_read hRead, validActionIds, List.map_map]
    rfl
  unfold reconcileGraphObjectWithActions keptRows
  dsimp only
  rw [hIds, mapM_eq_ok_iff, List.forall₂_map_left_iff, List.forall₂_map_right_iff]
  refine (mapM_eq_ok_iff.mp hRead).imp fun action read hRow => ?_
  obtain ⟨rfl, hEdges⟩ := validateEdges_eq_ok.mp hRow
  exact validateEdges_eq_ok.mpr
    ⟨rfl, forall₂_filter (fun edge valid hValid => keepsEdge_of_valid hValid) hEdges⟩

/-! ## Reached actions -/

/-- An edge from a trigger makes the action a root. -/
def Rooted (edged : List (EdgedAction Id)) (id : Id) : Prop :=
  ∃ action ∈ edged, action.1.id = id ∧ ∃ edge ∈ action.2, edge.fromTrigger = true

variable (uuid) in
/-- An edge leads from one action to another. -/
def Leads (edged : List (EdgedAction Id)) (source target : Id) : Prop :=
  source ∈ edgedIds edged ∧
    ∃ action ∈ edged, action.1.id = target ∧ ∃ edge ∈ action.2, edge.FromUdf uuid source

variable (uuid) in
/-- The edges lead to the action from a trigger edge, or there is no trigger
edge. -/
def Reached (edged : List (EdgedAction Id)) (id : Id) : Prop :=
  id ∈ edgedIds edged ∧
    ((∀ root, ¬Rooted edged root) ∨
      ∃ root, Rooted edged root ∧ Relation.ReflTransGen (Leads uuid edged) root id)

variable {edged : List (EdgedAction Id)}

theorem mem_triggerRoots_iff {id : Id} : id ∈ triggerRoots edged ↔ Rooted edged id := by
  unfold triggerRoots Rooted
  simp only [List.mem_dedup, List.mem_map, List.mem_filter, List.any_eq_true]
  constructor
  · rintro ⟨action, ⟨hAction, hEdge⟩, hId⟩
    exact ⟨action, hAction, hId, hEdge⟩
  · rintro ⟨action, hAction, hId, hEdge⟩
    exact ⟨action, ⟨hAction, hEdge⟩, hId⟩

theorem mem_adjacentActionIds_iff {source target : Id} :
    target ∈ adjacentActionIds uuid edged source ↔ Leads uuid edged source target := by
  unfold adjacentActionIds Leads
  simp only [List.mem_map, List.mem_filter, Bool.and_eq_true, List.contains_iff_mem,
    List.any_eq_true, decide_eq_true_eq, sourceAction?_eq_some]
  constructor
  · rintro ⟨action, ⟨hAction, hSource, hEdge⟩, hId⟩
    exact ⟨List.mem_map.mpr hSource, action, hAction, hId, hEdge⟩
  · rintro ⟨hSource, action, hAction, hId, hEdge⟩
    exact ⟨action, ⟨hAction, List.mem_map.mp hSource, hEdge⟩, hId⟩

omit [DecidableEq Id] in
theorem Leads.target_mem {source target : Id} (hLeads : Leads uuid edged source target) :
    target ∈ edgedIds edged := by
  obtain ⟨-, action, hAction, hId, -⟩ := hLeads
  exact List.mem_map.mpr ⟨action, hAction, hId⟩

omit [DecidableEq Id] in
theorem Rooted.mem {id : Id} (hRooted : Rooted edged id) : id ∈ edgedIds edged := by
  obtain ⟨action, hAction, hId, -⟩ := hRooted
  exact List.mem_map.mpr ⟨action, hAction, hId⟩

theorem mem_reachable_iff {id : Id} :
    id ∈ reachableActionIds uuid edged ↔ Reached uuid edged id := by
  have hNext (source : Id) :
      ∀ target ∈ adjacentActionIds uuid edged source, target ∈ edgedIds edged :=
    fun target hTarget => (mem_adjacentActionIds_iff.mp hTarget).target_mem
  have hRoots : ∀ root ∈ triggerRoots edged, root ∈ edgedIds edged :=
    fun root hRoot => (mem_triggerRoots_iff.mp hRoot).mem
  unfold reachableActionIds Reached
  dsimp only
  by_cases hEmpty : (triggerRoots edged).isEmpty = true
  · have hNone (root : Id) : ¬Rooted edged root := by
      rw [← mem_triggerRoots_iff, List.isEmpty_iff.mp hEmpty]
      exact List.not_mem_nil
    rw [if_pos hEmpty]
    exact ⟨fun hId => ⟨hId, Or.inl hNone⟩, fun hId => hId.1⟩
  · rw [if_neg hEmpty]
    have hFlood : id ∈ Search.flood (adjacentActionIds uuid edged)
        (edged.map fun action => action.1.id).length (triggerRoots edged) (triggerRoots edged) ↔
          Search.Reaches (adjacentActionIds uuid edged) (triggerRoots edged) id :=
      Search.mem_flood hNext (List.nodup_dedup _) hRoots
    rw [hFlood]
    have hWalks {root : Id} : Relation.ReflTransGen
        (fun source target => target ∈ adjacentActionIds uuid edged source) root id ↔
          Relation.ReflTransGen (Leads uuid edged) root id := by
      have hSame : (fun source target => target ∈ adjacentActionIds uuid edged source) =
          Leads uuid edged := by
        funext source target
        exact propext mem_adjacentActionIds_iff
      rw [hSame]
    constructor
    · rintro ⟨root, hRoot, hWalk⟩
      have hWalk' := hWalks.mp hWalk
      have hMem : id ∈ edgedIds edged := by
        cases hWalk' with
        | refl => exact hRoots _ hRoot
        | tail _ hLast => exact hLast.target_mem
      exact ⟨hMem, Or.inr ⟨root, mem_triggerRoots_iff.mp hRoot, hWalk'⟩⟩
    · rintro ⟨-, hNone | ⟨root, hRoot, hWalk⟩⟩
      · obtain ⟨root, hRoot⟩ := List.exists_mem_of_ne_nil _ (mt List.isEmpty_iff.mpr hEmpty)
        exact absurd (mem_triggerRoots_iff.mp hRoot) (hNone root)
      · exact ⟨root, mem_triggerRoots_iff.mpr hRoot, hWalks.mpr hWalk⟩

/-! ## Statements -/

variable (yaml) in
/-- The arguments that are loaded from a text, if it can be loaded. -/
def argsOf (inputs : String) : Args :=
  (yaml.loadInputs inputs).toOption.getD yaml.empty

variable (yaml parsesDate) in
/-- The columns of a row, its edges apart, make a statement. -/
structure Action.Builds (action : Action Id) : Prop where
  controlFlow : action.controlFlow.badFields parsesDate = []
  inputs : yaml.loadInputs action.inputs = .ok (argsOf yaml action.inputs)
  ref : matchesSlugPattern action.ref = true
  type : matchesActionTypePattern action.type = true
  interaction : action.isInteractive = true → action.interaction.isSome →
    (action.controlFlow.forEach.map ForEach.truthy).getD false = false

theorem buildActionStatement_eq_ok {reachable : List Id} {action : EdgedAction Id}
    {stmt : ActionStatement Args} :
    buildActionStatement uuid yaml parsesDate edged reachable action = .ok stmt ↔
      action.1.Builds yaml parsesDate ∧
        stmt = statementOfRow uuid edged reachable action action.1.controlFlow
          (argsOf yaml action.1.inputs) := by
  have hValid (args : Args) : (statementOfRow uuid edged reachable action
        action.1.controlFlow args).validate = .ok () ↔
      matchesSlugPattern action.1.ref = true ∧ matchesActionTypePattern action.1.type = true ∧
        (action.1.isInteractive = true → action.1.interaction.isSome →
          (action.1.controlFlow.forEach.map ForEach.truthy).getD false = false) := by
    rw [ActionStatement.validate_eq_ok]
    unfold statementOfRow
    by_cases hInteractive : action.1.isInteractive = true <;> simp [hInteractive]
  unfold buildActionStatement
  rw [bind_eq_ok]
  constructor
  · rintro ⟨flow, hFlow, hLoads⟩
    obtain ⟨hFields, rfl⟩ := ActionControlFlow.validate_ok_iff.mp hFlow
    obtain ⟨args, hArgs, hRest⟩ := bind_eq_ok.mp hLoads
    obtain ⟨hStmt, hEq⟩ := then_eq_ok.mp hRest
    obtain ⟨hRef, hType, hInteraction⟩ := (hValid args).mp hStmt
    have hSame : argsOf yaml action.1.inputs = args := by
      unfold argsOf
      rw [hArgs]
      rfl
    rw [hSame]
    exact ⟨⟨hFields, hSame ▸ hArgs, hRef, hType, hInteraction⟩, (Except.ok.inj hEq).symm⟩
  · rintro ⟨hBuilds, rfl⟩
    refine ⟨_, ActionControlFlow.validate_ok_iff.mpr ⟨hBuilds.controlFlow, rfl⟩, ?_⟩
    refine bind_eq_ok.mpr ⟨_, hBuilds.inputs, then_eq_ok.mpr ⟨(hValid _).mpr ?_, rfl⟩⟩
    exact ⟨hBuilds.ref, hBuilds.type, hBuilds.interaction⟩

variable (uuid yaml) in
/-- The statements of the rows that are reached. -/
def statementsOf (edged : List (EdgedAction Id)) : List (ActionStatement Args) :=
  (edged.filter fun action => action.1.id ∈ reachableActionIds uuid edged).map fun action =>
    statementOfRow uuid edged (reachableActionIds uuid edged) action action.1.controlFlow
      (argsOf yaml action.1.inputs)

variable (uuid yaml parsesDate) in
/-- Every row that is reached makes a statement. -/
def Builds (edged : List (EdgedAction Id)) : Prop :=
  ∀ action ∈ edged, Reached uuid edged action.1.id → action.1.Builds yaml parsesDate

theorem build_eq_ok {actions : List (Action Id)}
    (hRead : actions.mapM validateEdges = .ok edged) {stmts : List (ActionStatement Args)} :
    buildActionStatementsFromActions uuid yaml parsesDate actions = .ok stmts ↔
      Builds uuid yaml parsesDate edged ∧ stmts = statementsOf uuid yaml edged := by
  unfold buildActionStatementsFromActions
  rw [hRead, bind_eq_ok]
  simp only [Except.ok.injEq, exists_eq_left']
  rw [mapM_eq_ok_iff]
  constructor
  · intro hSteps
    have hRows := hSteps.imp fun action stmt hStep => buildActionStatement_eq_ok.mp hStep
    constructor
    · intro action hAction hReached
      have hMem : action ∈ edged.filter fun action =>
          action.1.id ∈ reachableActionIds uuid edged :=
        List.mem_filter.mpr ⟨hAction, decide_eq_true (mem_reachable_iff.mpr hReached)⟩
      obtain ⟨stmt, -, hBuilds, -⟩ := exists_right_of_forall₂ hRows hMem
      exact hBuilds
    · unfold statementsOf
      have hMap := hRows.imp fun action stmt hRow => hRow.2.symm
      exact (List.forall₂_eq_eq_eq ▸ List.forall₂_map_left_iff.mpr hMap :
        List.map _ _ = stmts).symm
  · rintro ⟨hBuilds, rfl⟩
    unfold statementsOf
    rw [List.forall₂_map_right_iff, List.forall₂_same]
    intro action hAction
    obtain ⟨hMem, hReached⟩ := List.mem_filter.mp hAction
    exact buildActionStatement_eq_ok.mpr
      ⟨hBuilds action hMem (mem_reachable_iff.mp (of_decide_eq_true hReached)), rfl⟩

end Workflow
end Tracecat
