import Tracecat.Lib.Assoc
import Tracecat.Properties.RoundTrip
import Tracecat.Workflow.DraftBuild

/-!
# Reconciliation and the program of a draft

The build makes statements of exactly the actions that the trigger edges lead to,
and the reconciliation keeps them, when the readers of an edge agree: no edge
from the workflow's trigger lacks its type, UUIDs are spelled as `str` spells
them, and what hangs on the trigger IDs that the reconciliation removes is
reached without them.
-/

namespace Tracecat
namespace Workflow

open Checks

/-! ## The contract -/

section Contract

variable {Id Args : Type} [DecidableEq Id]
variable (uuid : PyUuid Id) (yaml : Yaml Args) (parsesDate : String → Bool) (workflowId : Id)

/-- The dependency on an action that an edge stands for. -/
def UpstreamEdgeData.dependency (edge : UpstreamEdgeData) (ref : Ref) : String :=
  if edge.sourceHandle = some .error then depFromEdgeComponents ref .error else ref

/-- The statement of a row: it depends on the actions that are reached and that
its edges come from, by the handle of the edge. -/
structure StatementOf (edged : List (EdgedAction Id)) (action : EdgedAction Id)
    (stmt : ActionStatement Args) : Prop where
  ref : stmt.ref = action.1.ref
  type : stmt.action = action.1.type
  dependsOn : ∀ dep, dep ∈ stmt.dependsOn ↔
    ∃ edge ∈ action.2, ∃ source ∈ edged, edge.FromUdf uuid source.1.id ∧
      Reached uuid edged source.1.id ∧ dep = edge.dependency source.1.ref

/-- The statements are those of the rows that are reached, in their order. -/
def BuildsReached (edged : List (EdgedAction Id)) (stmts : List (ActionStatement Args)) : Prop :=
  ∃ rows, rows.Sublist edged ∧
    (∀ action ∈ edged, action ∈ rows ↔ Reached uuid edged action.1.id) ∧
      List.Forall₂ (StatementOf uuid edged) rows stmts

/-- The source of an edge is an action of the workflow or its trigger. -/
def UpstreamEdgeData.sourceExists (ids : List Id) (edge : UpstreamEdgeData) : Bool :=
  if edge.fromTrigger then edge.sourceId = triggerIdOf uuid workflowId
  else (uuid.parse edge.sourceId).any fun source => source ∈ ids

/-- A stored edge that is read as one whose source exists. -/
def edgeExists (ids : List Id) (edge : EdgeData) : Bool :=
  match validateUpstreamEdge edge with
  | .ok valid => valid.sourceExists uuid workflowId ids
  | .error _ => false

/-- A row before and after the reconciliation: nothing else has changed, and the
edges whose source exists are the same. -/
structure KeepsRow (ids : List Id) (before after : Action Id) : Prop where
  row : after = { before with upstreamEdges := after.upstreamEdges }
  edges : after.upstreamEdges.Sublist before.upstreamEdges
  existing : after.upstreamEdges.filter (edgeExists uuid workflowId ids) =
    before.upstreamEdges.filter (edgeExists uuid workflowId ids)

/-- Normalizing the draft does not change the program. -/
structure Normalizes (actions : List (Action Id)) (edged : List (EdgedAction Id)) : Prop where
  built : ∀ stmts : List (ActionStatement Args),
    buildActionStatementsFromActions uuid yaml parsesDate actions = .ok stmts →
      BuildsReached uuid edged stmts
  same : ∀ stmts : List (ActionStatement Args),
    buildActionStatementsFromActions uuid yaml parsesDate actions = .ok stmts → ∀ n,
      buildActionStatementsFromActions uuid yaml parsesDate
        (reconciled uuid workflowId actions n) = .ok stmts
  rows : List.Forall₂ (KeepsRow uuid workflowId (actions.map Action.id)) actions
    (reconcileGraphObjectWithActions uuid workflowId actions).1
  idempotent : reconcileGraphObjectWithActions uuid workflowId
      (reconcileGraphObjectWithActions uuid workflowId actions).1 =
    ((reconcileGraphObjectWithActions uuid workflowId actions).1, false)

/-- The trigger of the workflow makes the action a root. -/
def OwnRooted (edged : List (EdgedAction Id)) (id : Id) : Prop :=
  ∃ action ∈ edged, action.1.id = id ∧ ∃ edge ∈ action.2, edge.FromOwnTrigger uuid workflowId

/-- The edges that the build and the reconciliation read alike.  The last two
fields matter where the rows that are reached make statements. -/
structure ReadAlike (edged : List (EdgedAction Id)) : Prop where
  typed : ∀ action ∈ edged, ∀ edge ∈ action.2, edge.sourceType = none →
    edge.sourceId ≠ triggerIdOf uuid workflowId
  spelled : ∀ action ∈ edged, ∀ edge ∈ action.2, ∀ source ∈ edgedIds edged,
    edge.FromUdf uuid source → edge.sourceId = uuid.str source
  sources : Builds uuid yaml parsesDate edged → ∀ action ∈ edged, ∀ edge ∈ action.2,
    edge.sourceType = some .trigger → ∀ source, Reached uuid edged source →
      uuid.parse edge.sourceId ≠ some source
  roots : Builds uuid yaml parsesDate edged → ∀ root, Rooted edged root →
    (∃ own, OwnRooted uuid workflowId edged own ∧
        Relation.ReflTransGen (Leads uuid edged) own root) ∨
      (∀ own, ¬OwnRooted uuid workflowId edged own) ∧
        ∀ id ∈ edgedIds edged, Reached uuid edged id

end Contract

section Rows

variable {Id Args : Type} [DecidableEq Id]
variable {uuid : PyUuid Id} {yaml : Yaml Args} {parsesDate : String → Bool} {workflowId : Id}
  {edged : List (EdgedAction Id)}

/-! ## Dependencies -/

theorem dependencyOf_eq_some (hIds : (edgedIds edged).Nodup) {reachable : List Id}
    {edge : UpstreamEdgeData} {dep : String} :
    dependencyOf uuid edged reachable edge = some dep ↔
      ∃ source ∈ edged, uuid.parse edge.sourceId = some source.1.id ∧
        source.1.id ∈ reachable ∧ dep = edge.dependency source.1.ref := by
  unfold dependencyOf UpstreamEdgeData.dependency
  by_cases hEmpty : edge.sourceId = ""
  · simp [hEmpty, uuid.parse_empty]
  · rw [if_neg hEmpty]
    simp only [Option.bind_eq_bind, Option.bind_eq_some_iff]
    constructor
    · rintro ⟨id, hParse, source, hFind, hDep⟩
      obtain ⟨hSource, rfl⟩ := (Assoc.find?_key_eq_some hIds).mp hFind
      by_cases hReached : source.1.id ∈ reachable
      · rw [if_pos hReached] at hDep
        refine ⟨source, hSource, hParse, hReached, ?_⟩
        split at hDep <;> rename_i hHandle
        · rw [if_pos hHandle, Option.some.inj hDep]
        · rw [if_neg hHandle, Option.some.inj hDep]
      · rw [if_neg hReached] at hDep
        cases hDep
    · rintro ⟨source, hSource, hParse, hReached, rfl⟩
      refine ⟨source.1.id, hParse, source, (Assoc.find?_key_eq_some hIds).mpr ⟨hSource, rfl⟩, ?_⟩
      rw [if_pos hReached]
      split <;> rfl

theorem mem_dependsOn {action : EdgedAction Id} {reachable : List Id} {flow : ActionControlFlow}
    {args : Args} {dep : String} :
    dep ∈ (statementOfRow uuid edged reachable action flow args).dependsOn ↔
      ∃ edge ∈ action.2, dependencyOf uuid edged reachable edge = some dep := by
  unfold statementOfRow
  dsimp only
  rw [(List.perm_insertionSort _ _).mem_iff, List.mem_filterMap]

/-! ## What the reconciliation leaves -/

omit [DecidableEq Id] in
theorem edgedIds_keptRows : edgedIds (keptRows uuid workflowId edged) = edgedIds edged := by
  unfold edgedIds keptRows
  rw [List.map_map]
  rfl

omit [DecidableEq Id] in
/-- The roots that are left are those of the workflow's own trigger. -/
theorem rooted_keptRows {id : Id} :
    Rooted (keptRows uuid workflowId edged) id ↔ OwnRooted uuid workflowId edged id := by
  unfold Rooted OwnRooted keptRows
  constructor
  · rintro ⟨_, hRow, rfl, edge, hEdge, hTrigger⟩
    obtain ⟨action, hAction, rfl⟩ := List.mem_map.mp hRow
    obtain ⟨hEdge, hKept⟩ := List.mem_filter.mp hEdge
    exact ⟨action, hAction, rfl, edge, hEdge, kept_fromTrigger_iff.mp ⟨hKept, hTrigger⟩⟩
  · rintro ⟨action, hAction, rfl, edge, hEdge, hOwn⟩
    obtain ⟨hKept, hTrigger⟩ := kept_fromTrigger_iff.mpr hOwn
    exact ⟨_, List.mem_map_of_mem hAction, rfl, edge, List.mem_filter.mpr ⟨hEdge, hKept⟩, hTrigger⟩

/-- UUIDs are spelled as `str` spells them. -/
def Spelled (uuid : PyUuid Id) (edged : List (EdgedAction Id)) : Prop :=
  ∀ action ∈ edged, ∀ edge ∈ action.2, ∀ source ∈ edgedIds edged,
    edge.FromUdf uuid source → edge.sourceId = uuid.str source

omit [DecidableEq Id] in
theorem kept_of_spelled (hSpelled : Spelled uuid edged) {action : EdgedAction Id}
    (hAction : action ∈ edged) {edge : UpstreamEdgeData} (hEdge : edge ∈ action.2) {source : Id}
    (hSource : source ∈ edgedIds edged) (hUdf : edge.FromUdf uuid source) :
    edge.kept uuid workflowId (edgedIds edged) = true := by
  have hText := hSpelled action hAction edge hEdge source hSource hUdf
  have hKnown : ((edgedIds edged).map uuid.str).contains edge.sourceId = true := by
    rw [List.contains_iff_mem, hText]
    exact List.mem_map_of_mem hSource
  unfold UpstreamEdgeData.kept
  split
  · rename_i hType
    exact absurd hType hUdf.1
  · exact hKnown

omit [DecidableEq Id] in
theorem leads_keptRows (hSpelled : Spelled uuid edged) {source target : Id} :
    Leads uuid (keptRows uuid workflowId edged) source target ↔ Leads uuid edged source target := by
  unfold Leads
  rw [edgedIds_keptRows]
  refine and_congr_right fun hSource => ?_
  unfold keptRows
  constructor
  · rintro ⟨_, hRow, rfl, edge, hEdge, hUdf⟩
    obtain ⟨action, hAction, rfl⟩ := List.mem_map.mp hRow
    exact ⟨action, hAction, rfl, edge, List.mem_of_mem_filter hEdge, hUdf⟩
  · rintro ⟨action, hAction, rfl, edge, hEdge, hUdf⟩
    exact ⟨_, List.mem_map_of_mem hAction, rfl, edge,
      List.mem_filter.mpr ⟨hEdge, kept_of_spelled hSpelled hAction hEdge hSource hUdf⟩, hUdf⟩

omit [DecidableEq Id] in
theorem reached_keptRows (hSpelled : Spelled uuid edged) {id : Id} :
    Reached uuid (keptRows uuid workflowId edged) id ↔
      id ∈ edgedIds edged ∧
        ((∀ own, ¬OwnRooted uuid workflowId edged own) ∨
          ∃ own, OwnRooted uuid workflowId edged own ∧
            Relation.ReflTransGen (Leads uuid edged) own id) := by
  have hLeads : Leads uuid (keptRows uuid workflowId edged) = Leads uuid edged := by
    funext source target
    exact propext (leads_keptRows hSpelled)
  unfold Reached
  rw [edgedIds_keptRows, hLeads]
  simp only [rooted_keptRows]

omit [DecidableEq Id] in
theorem OwnRooted.rooted {id : Id} (hOwn : OwnRooted uuid workflowId edged id) :
    Rooted edged id := by
  obtain ⟨action, hAction, hId, edge, hEdge, hFrom⟩ := hOwn
  have hKept : edge.kept uuid workflowId (edgedIds edged) = true ∧ edge.fromTrigger = true :=
    kept_fromTrigger_iff.mpr hFrom
  exact ⟨action, hAction, hId, edge, hEdge, hKept.2⟩

variable (uuid workflowId) in
/-- The reconciliation keeps what is reached. -/
def SameReach (edged : List (EdgedAction Id)) : Prop :=
  ∀ id, Reached uuid (keptRows uuid workflowId edged) id ↔ Reached uuid edged id

omit [DecidableEq Id] in
/-- What is reached stays when the roots that are removed are reached from the
roots that stay, or no root stays and all actions were reached. -/
theorem sameReach_iff (hSpelled : Spelled uuid edged) :
    SameReach uuid workflowId edged ↔ ∀ root, Rooted edged root →
      (∃ own, OwnRooted uuid workflowId edged own ∧
          Relation.ReflTransGen (Leads uuid edged) own root) ∨
        (∀ own, ¬OwnRooted uuid workflowId edged own) ∧
          ∀ id ∈ edgedIds edged, Reached uuid edged id := by
  unfold SameReach
  simp only [reached_keptRows hSpelled]
  constructor
  · intro hSame root hRoot
    rcases ((hSame root).mpr ⟨hRoot.mem, Or.inr ⟨root, hRoot, .refl⟩⟩).2 with hNone | hOwn
    · exact Or.inr ⟨hNone, fun id hId => (hSame id).mp ⟨hId, Or.inl hNone⟩⟩
    · exact Or.inl hOwn
  · intro hRoots id
    constructor
    · rintro ⟨hId, hNone | ⟨own, hOwn, hWalk⟩⟩
      · by_cases hAny : ∃ root, Rooted edged root
        · obtain ⟨root, hRoot⟩ := hAny
          rcases hRoots root hRoot with ⟨own, hOwn, -⟩ | ⟨-, hAll⟩
          · exact absurd hOwn (hNone own)
          · exact hAll id hId
        · exact ⟨hId, Or.inl fun root hRoot => hAny ⟨root, hRoot⟩⟩
      · exact ⟨hId, Or.inr ⟨own, hOwn.rooted, hWalk⟩⟩
    · rintro ⟨hId, hNone | ⟨root, hRoot, hWalk⟩⟩
      · exact ⟨hId, Or.inl fun own hOwn => hNone own hOwn.rooted⟩
      · rcases hRoots root hRoot with ⟨own, hOwn, hTo⟩ | ⟨hNone, -⟩
        · exact ⟨hId, Or.inr ⟨own, hOwn, hTo.trans hWalk⟩⟩
        · exact ⟨hId, Or.inl hNone⟩

/-! ## Statements before and after -/

theorem of_length_filter_eq {α : Type*} {narrow wide : α → Bool} {items : List α}
    (hImp : ∀ item ∈ items, narrow item = true → wide item = true)
    (hLength : (items.filter narrow).length = (items.filter wide).length) {item : α}
    (hItem : item ∈ items) (hWide : wide item = true) : narrow item = true := by
  have hTwice : (items.filter wide).filter narrow = items.filter narrow := by
    rw [List.filter_filter]
    refine List.filter_congr fun other hOther => ?_
    by_cases hNarrow : narrow other = true
    · rw [hNarrow, hImp other hOther hNarrow, Bool.and_self]
    · rw [Bool.not_eq_true] at hNarrow
      rw [hNarrow, Bool.false_and]
  rw [← hTwice, List.length_filter_eq_length_iff] at hLength
  exact hLength item (List.mem_filter.mpr ⟨hItem, hWide⟩)

variable (uuid edged) in
/-- The dependency that an edge adds to a built statement. -/
abbrev addedDep : UpstreamEdgeData → Option String :=
  dependencyOf uuid edged (reachableActionIds uuid edged)

theorem addedDep_keptRows (hIds : (edgedIds edged).Nodup) (hSame : SameReach uuid workflowId edged)
    (edge : UpstreamEdgeData) :
    addedDep uuid (keptRows uuid workflowId edged) edge = addedDep uuid edged edge := by
  have hKeptIds : (edgedIds (keptRows uuid workflowId edged)).Nodup := by
    rw [edgedIds_keptRows]
    exact hIds
  ext dep
  rw [dependencyOf_eq_some hIds, dependencyOf_eq_some hKeptIds]
  simp only [mem_reachable_iff, hSame _]
  unfold keptRows
  constructor
  · rintro ⟨_, hRow, hParse, hReached, rfl⟩
    obtain ⟨source, hSource, rfl⟩ := List.mem_map.mp hRow
    exact ⟨source, hSource, hParse, hReached, rfl⟩
  · rintro ⟨source, hSource, hParse, hReached, rfl⟩
    exact ⟨_, List.mem_map_of_mem hSource, hParse, hReached, rfl⟩

/-- The edges that the reconciliation removes add no dependency. -/
def DropsNoDep (uuid : PyUuid Id) (workflowId : Id) (edged : List (EdgedAction Id)) : Prop :=
  ∀ action ∈ edged, Reached uuid edged action.1.id → ∀ edge ∈ action.2,
    edge.kept uuid workflowId (edgedIds edged) = false → addedDep uuid edged edge = none

theorem statementOfRow_keptRows (hIds : (edgedIds edged).Nodup)
    (hSame : SameReach uuid workflowId edged) (action : EdgedAction Id) (args : Args) :
    statementOfRow uuid (keptRows uuid workflowId edged)
        (reachableActionIds uuid (keptRows uuid workflowId edged))
        (action.1.filterEdges (keepsEdge uuid workflowId ((edgedIds edged).map uuid.str)),
          action.2.filter fun edge => edge.kept uuid workflowId (edgedIds edged))
        action.1.controlFlow args =
      { statementOfRow uuid edged (reachableActionIds uuid edged) action
          action.1.controlFlow args with
        dependsOn := ((action.2.filter fun edge =>
            edge.kept uuid workflowId (edgedIds edged)).filterMap
          (addedDep uuid edged)).insertionSort fun dep dep' => dep ≤ dep' } := by
  have hDeps : (addedDep uuid (keptRows uuid workflowId edged)) = addedDep uuid edged :=
    funext fun edge => addedDep_keptRows hIds hSame edge
  unfold statementOfRow
  unfold addedDep at hDeps
  rw [hDeps]
  rfl

theorem filterMap_filter_eq_iff {α β : Type*} {keep : α → Bool} {f : α → Option β}
    {items : List α} :
    ((items.filter keep).filterMap f).length = (items.filterMap f).length ↔
      ∀ item ∈ items, keep item = false → f item = none := by
  rw [List.length_filterMap_eq_countP, List.length_filterMap_eq_countP, List.countP_filter,
    List.countP_eq_length_filter, List.countP_eq_length_filter]
  constructor
  · intro hLength item hItem hDropped
    by_contra hSome
    have hBoth := of_length_filter_eq (fun other _ hOther => (Bool.and_eq_true_iff.mp hOther).1)
      hLength hItem (Option.isSome_iff_ne_none.mpr hSome)
    rw [hDropped, Bool.and_false] at hBoth
    cases hBoth
  · intro hNone
    congr 1
    refine List.filter_congr fun item hItem => ?_
    cases hKeep : keep item with
    | true => rw [Bool.and_true]
    | false => rw [hNone item hItem hKeep]; rfl

theorem filterMap_filter_eq {α β : Type*} {keep : α → Bool} {f : α → Option β} {items : List α}
    (hNone : ∀ item ∈ items, keep item = false → f item = none) :
    (items.filter keep).filterMap f = items.filterMap f := by
  rw [List.filterMap_filter]
  refine List.filterMap_congr fun item hItem => ?_
  cases hKeep : keep item with
  | true => rfl
  | false => rw [hNone item hItem hKeep]; rfl

/-- As many rows are reached after a reconciliation only when the same ones are:
it removes roots, or the last one. -/
theorem sameReach_of_length (hSpelled : Spelled uuid edged)
    (hLength : (edged.filter fun action =>
        action.1.id ∈ reachableActionIds uuid (keptRows uuid workflowId edged)).length =
      (edged.filter fun action => action.1.id ∈ reachableActionIds uuid edged).length) :
    SameReach uuid workflowId edged := by
  intro id
  have hRow {id : Id} (hId : id ∈ edgedIds edged) : ∃ action ∈ edged, action.1.id = id :=
    List.mem_map.mp hId
  by_cases hOwn : ∃ own, OwnRooted uuid workflowId edged own
  · -- roots are removed and some stay: no more is reached than before
    have hLess (id : Id) (hKept : Reached uuid (keptRows uuid workflowId edged) id) :
        Reached uuid edged id := by
      obtain ⟨hId, hNone | ⟨own, hOwned, hWalk⟩⟩ := (reached_keptRows hSpelled).mp hKept
      · obtain ⟨own, hOwned⟩ := hOwn
        exact absurd hOwned (hNone own)
      · exact ⟨hId, Or.inr ⟨own, hOwned.rooted, hWalk⟩⟩
    refine ⟨hLess id, fun hReached => ?_⟩
    obtain ⟨action, hAction, rfl⟩ := hRow hReached.1
    have hNarrow := of_length_filter_eq (fun other _ hOther => decide_eq_true
      (mem_reachable_iff.mpr (hLess _ (mem_reachable_iff.mp (of_decide_eq_true hOther)))))
      hLength hAction (decide_eq_true (mem_reachable_iff.mpr hReached))
    exact mem_reachable_iff.mp (of_decide_eq_true hNarrow)
  · -- no root stays: everything is reached now
    have hAll (id : Id) (hId : id ∈ edgedIds edged) :
        Reached uuid (keptRows uuid workflowId edged) id :=
      (reached_keptRows hSpelled).mpr ⟨hId, Or.inl fun own hOwned => hOwn ⟨own, hOwned⟩⟩
    refine ⟨fun hKept => ?_, fun hReached => hAll id hReached.1⟩
    obtain ⟨action, hAction, rfl⟩ := hRow ((reached_keptRows hSpelled).mp hKept).1
    have hNarrow := of_length_filter_eq (fun other hOther _ => decide_eq_true
      (mem_reachable_iff.mpr (hAll _ (List.mem_map_of_mem hOther))))
      hLength.symm hAction (decide_eq_true (mem_reachable_iff.mpr hKept))
    exact mem_reachable_iff.mp (of_decide_eq_true hNarrow)

/-- The statements are the same after a reconciliation when it keeps what is
reached and removes no dependency. -/
theorem statementsOf_keptRows_iff (hIds : (edgedIds edged).Nodup)
    (hSpelled : Spelled uuid edged) :
    statementsOf uuid yaml (keptRows uuid workflowId edged) = statementsOf uuid yaml edged ↔
      SameReach uuid workflowId edged ∧ DropsNoDep uuid workflowId edged := by
  have hRows : statementsOf uuid yaml (keptRows uuid workflowId edged) =
      (edged.filter fun action =>
          action.1.id ∈ reachableActionIds uuid (keptRows uuid workflowId edged)).map fun action =>
        statementOfRow uuid (keptRows uuid workflowId edged)
          (reachableActionIds uuid (keptRows uuid workflowId edged))
          (action.1.filterEdges (keepsEdge uuid workflowId ((edgedIds edged).map uuid.str)),
            action.2.filter fun edge => edge.kept uuid workflowId (edgedIds edged))
          action.1.controlFlow (argsOf yaml action.1.inputs) := by
    unfold statementsOf
    conv_lhs => rw [keptRows]
    rw [List.filter_map, List.map_map]
    rfl
  have hReach (hSame : SameReach uuid workflowId edged) : (edged.filter fun action =>
        action.1.id ∈ reachableActionIds uuid (keptRows uuid workflowId edged)) =
      edged.filter fun action => action.1.id ∈ reachableActionIds uuid edged := by
    refine List.filter_congr fun action _ => decide_eq_decide.mpr ?_
    rw [mem_reachable_iff, mem_reachable_iff, hSame]
  rw [hRows]
  unfold statementsOf
  constructor
  · intro hEq
    have hLength := congrArg List.length hEq
    rw [List.length_map, List.length_map] at hLength
    have hSame : SameReach uuid workflowId edged := sameReach_of_length hSpelled hLength
    refine ⟨hSame, ?_⟩
    rw [hReach hSame, List.map_inj_left] at hEq
    intro action hAction hReached edge hEdge hDropped
    have hRow := hEq action (List.mem_filter.mpr
      ⟨hAction, decide_eq_true (mem_reachable_iff.mpr hReached)⟩)
    rw [statementOfRow_keptRows hIds hSame] at hRow
    have hDeps := congrArg (fun stmt => stmt.dependsOn.length) hRow
    unfold statementOfRow at hDeps
    simp only [List.length_insertionSort] at hDeps
    exact filterMap_filter_eq_iff.mp hDeps edge hEdge hDropped
  · rintro ⟨hSame, hDrops⟩
    rw [hReach hSame]
    refine List.map_congr_left fun action hAction => ?_
    obtain ⟨hMem, hReached⟩ := List.mem_filter.mp hAction
    have hNone := hDrops action hMem (mem_reachable_iff.mp (of_decide_eq_true hReached))
    rw [statementOfRow_keptRows hIds hSame, filterMap_filter_eq hNone]
    rfl

/-! ## Edges whose source exists -/

omit [DecidableEq Id] in
theorem parse_triggerIdOf : uuid.parse (triggerIdOf uuid workflowId) = none :=
  uuid.parse_trigger (uuid.str workflowId)

/-- An edge whose source exists is removed for want of a type or for the spelling
of its UUID. -/
theorem kept_of_exists_iff {ids : List Id} {edge : UpstreamEdgeData} :
    (edge.sourceExists uuid workflowId ids = true → edge.kept uuid workflowId ids = true) ↔
      (edge.sourceType = none → edge.sourceId ≠ triggerIdOf uuid workflowId) ∧
        ∀ source ∈ ids, edge.FromUdf uuid source → edge.sourceId = uuid.str source := by
  have hKnown {source : Id} (hParse : uuid.parse edge.sourceId = some source) :
      (ids.map uuid.str).contains edge.sourceId = true → edge.sourceId = uuid.str source := by
    rw [List.contains_iff_mem, List.mem_map]
    rintro ⟨other, -, hOther⟩
    rw [← hOther, uuid.parse_str] at hParse
    rw [← hOther, Option.some.inj hParse]
  by_cases hTrigger : edge.fromTrigger = true
  · -- an edge from a trigger is kept in the present format only
    have hExists : edge.sourceExists uuid workflowId ids = true ↔
        edge.sourceId = triggerIdOf uuid workflowId := by
      unfold UpstreamEdgeData.sourceExists
      rw [if_pos hTrigger, decide_eq_true_eq]
    have hKept : edge.kept uuid workflowId ids = true ↔ edge.FromOwnTrigger uuid workflowId := by
      rw [← kept_fromTrigger_iff, and_iff_left hTrigger]
    have hNoUdf (source : Id) : ¬edge.FromUdf uuid source := by
      rw [← sourceAction?_eq_some, UpstreamEdgeData.sourceAction?, hTrigger]
      simp
    have hNotUdf : edge.sourceType ≠ some .udf := by
      intro hUdf
      rw [UpstreamEdgeData.fromTrigger, hUdf] at hTrigger
      simp at hTrigger
    rw [hExists, hKept]
    unfold UpstreamEdgeData.FromOwnTrigger
    constructor
    · intro hKeeps
      refine ⟨fun hType hOwn => ?_, fun source _ hUdf => absurd hUdf (hNoUdf source)⟩
      rw [(hKeeps hOwn).1] at hType
      cases hType
    · rintro ⟨hTyped, -⟩ hOwn
      cases hType : edge.sourceType with
      | none => exact absurd hOwn (hTyped hType)
      | some type =>
          cases type with
          | trigger => exact ⟨rfl, hOwn⟩
          | udf => exact absurd hType hNotUdf
  · -- any other edge is kept by the text of its UUID
    have hExists : edge.sourceExists uuid workflowId ids = true ↔
        ∃ source ∈ ids, uuid.parse edge.sourceId = some source := by
      unfold UpstreamEdgeData.sourceExists
      rw [if_neg hTrigger]
      cases uuid.parse edge.sourceId <;> simp [eq_comm]
    have hUntyped : edge.sourceType = none → edge.sourceId ≠ triggerIdOf uuid workflowId := by
      intro hType hOwn
      apply hTrigger
      have hPrefix : "trigger-".toList.isPrefixOf edge.sourceId.toList = true := by
        rw [hOwn, triggerIdOf, String.toList_append]
        exact List.isPrefixOf_iff_prefix.mpr (List.prefix_append _ _)
      have hText : edge.sourceId ≠ "" := hOwn ▸ triggerIdOf_ne_empty
      rw [UpstreamEdgeData.fromTrigger, hType, hPrefix]
      simp [hText]
    rw [hExists, and_iff_right hUntyped]
    have hNotTrigger {source : Id} (hParse : uuid.parse edge.sourceId = some source) :
        edge.sourceType ≠ some .trigger := by
      intro hType
      apply hTrigger
      have hText : edge.sourceId ≠ "" := by
        intro hEmpty
        rw [hEmpty, uuid.parse_empty] at hParse
        cases hParse
      simp [UpstreamEdgeData.fromTrigger, hType, hText]
    constructor
    · rintro hKeeps source hSource ⟨hType, hParse⟩
      have hKept := hKeeps ⟨source, hSource, hParse⟩
      unfold UpstreamEdgeData.kept at hKept
      split at hKept
      · rename_i hIs
        exact absurd hIs hType
      · exact hKnown hParse hKept
    · rintro hSpelled ⟨source, hSource, hParse⟩
      have hText := hSpelled source hSource ⟨hNotTrigger hParse, hParse⟩
      unfold UpstreamEdgeData.kept
      split
      · rename_i hIs
        exact absurd hIs (hNotTrigger hParse)
      · rw [List.contains_iff_mem, hText]
        exact List.mem_map_of_mem hSource

theorem keepsRow_filterEdges_iff {ids : List Id} {keeps : EdgeData → Bool} {action : Action Id} :
    KeepsRow uuid workflowId ids action (action.filterEdges keeps) ↔
      ∀ edge ∈ action.upstreamEdges, edgeExists uuid workflowId ids edge = true →
        keeps edge = true := by
  have hEdges : (action.filterEdges keeps).upstreamEdges = action.upstreamEdges.filter keeps := rfl
  constructor
  · intro hKeeps edge hEdge hExists
    have hMem : edge ∈ action.upstreamEdges.filter (edgeExists uuid workflowId ids) :=
      List.mem_filter.mpr ⟨hEdge, hExists⟩
    rw [← hKeeps.existing, hEdges] at hMem
    exact (List.mem_filter.mp (List.mem_of_mem_filter hMem)).2
  · intro hKeeps
    refine ⟨rfl, List.filter_sublist, ?_⟩
    rw [hEdges, List.filter_filter]
    refine List.filter_congr fun edge hEdge => ?_
    cases hExists : edgeExists uuid workflowId ids edge with
    | true => rw [hKeeps edge hEdge hExists, Bool.and_self]
    | false => rw [Bool.false_and]

theorem keepsRows_iff {actions : List (Action Id)}
    (hRead : actions.mapM validateEdges = .ok edged) :
    List.Forall₂ (KeepsRow uuid workflowId (actions.map Action.id)) actions
        (reconcileGraphObjectWithActions uuid workflowId actions).1 ↔
      (∀ action ∈ edged, ∀ edge ∈ action.2, edge.sourceType = none →
        edge.sourceId ≠ triggerIdOf uuid workflowId) ∧ Spelled uuid edged := by
  have hIds : edgedIds edged = actions.map Action.id := edgedIds_of_read hRead
  have hValidIds : validActionIds uuid actions = (actions.map Action.id).map uuid.str := by
    rw [validActionIds, List.map_map]
    rfl
  have hRows := mapM_eq_ok_iff.mp hRead
  have hEdges : (∀ action ∈ actions, ∀ edge ∈ action.upstreamEdges,
        edgeExists uuid workflowId (actions.map Action.id) edge = true →
          keepsEdge uuid workflowId (validActionIds uuid actions) edge = true) ↔
      ∀ action ∈ edged, ∀ edge ∈ action.2,
        edge.sourceExists uuid workflowId (edgedIds edged) = true →
          edge.kept uuid workflowId (edgedIds edged) = true := by
    rw [hIds, hValidIds]
    have hOne {edge : EdgeData} {valid : UpstreamEdgeData}
        (hValid : validateUpstreamEdge edge = .ok valid) :
        (edgeExists uuid workflowId (actions.map Action.id) edge = true →
          keepsEdge uuid workflowId ((actions.map Action.id).map uuid.str) edge = true) ↔
        (valid.sourceExists uuid workflowId (actions.map Action.id) = true →
          valid.kept uuid workflowId (actions.map Action.id) = true) := by
      rw [keepsEdge_of_valid hValid, edgeExists, hValid]
    constructor
    · intro hAll action hAction valid hValidMem
      obtain ⟨row, hRow, hReadRow⟩ := exists_left_of_forall₂ hRows hAction
      obtain ⟨-, hReadEdges⟩ := validateEdges_eq_ok.mp hReadRow
      obtain ⟨edge, hEdge, hValid⟩ := exists_left_of_forall₂ hReadEdges hValidMem
      exact (hOne hValid).mp (hAll row hRow edge hEdge)
    · intro hAll row hRow edge hEdge
      obtain ⟨action, hAction, hReadRow⟩ := exists_right_of_forall₂ hRows hRow
      obtain ⟨-, hReadEdges⟩ := validateEdges_eq_ok.mp hReadRow
      obtain ⟨valid, hValidMem, hValid⟩ := exists_right_of_forall₂ hReadEdges hEdge
      exact (hOne hValid).mpr (hAll action hAction valid hValidMem)
  unfold reconcileGraphObjectWithActions
  dsimp only
  rw [List.forall₂_map_right_iff, List.forall₂_same]
  simp only [keepsRow_filterEdges_iff]
  rw [hEdges]
  simp only [kept_of_exists_iff]
  exact ⟨fun hAll => ⟨fun action hAction edge hEdge => (hAll action hAction edge hEdge).1,
      fun action hAction edge hEdge => (hAll action hAction edge hEdge).2⟩,
    fun hBoth action hAction edge hEdge =>
      ⟨hBoth.1 action hAction edge hEdge, hBoth.2 action hAction edge hEdge⟩⟩

/-! ## The contract, exactly -/

theorem builds_reached (hIds : (edgedIds edged).Nodup)
    (hSources : ∀ action ∈ edged, ∀ edge ∈ action.2, edge.sourceType = some .trigger →
      ∀ source, Reached uuid edged source → uuid.parse edge.sourceId ≠ some source) :
    BuildsReached uuid edged (statementsOf uuid yaml edged) := by
  refine ⟨edged.filter fun action => action.1.id ∈ reachableActionIds uuid edged,
    List.filter_sublist, fun action hAction => ?_, ?_⟩
  · rw [List.mem_filter, and_iff_right hAction, decide_eq_true_eq, mem_reachable_iff]
  · unfold statementsOf
    rw [List.forall₂_map_right_iff, List.forall₂_same]
    intro action hAction
    have hMem := List.mem_of_mem_filter hAction
    refine ⟨rfl, rfl, fun dep => ?_⟩
    rw [mem_dependsOn]
    refine exists_congr fun edge => and_congr_right fun hEdge => ?_
    rw [dependencyOf_eq_some hIds]
    simp only [mem_reachable_iff]
    refine exists_congr fun source => and_congr_right fun _ => ?_
    constructor
    · rintro ⟨hParse, hReached, hDep⟩
      exact ⟨⟨fun hType => hSources action hMem edge hEdge hType _ hReached hParse, hParse⟩,
        hReached, hDep⟩
    · rintro ⟨hUdf, hReached, hDep⟩
      exact ⟨hUdf.2, hReached, hDep⟩

omit [DecidableEq Id] in
theorem builds_keptRows (hSame : SameReach uuid workflowId edged)
    (hBuilds : Builds uuid yaml parsesDate edged) :
    Builds uuid yaml parsesDate (keptRows uuid workflowId edged) := by
  intro row hRow hReached
  obtain ⟨action, hAction, rfl⟩ := List.mem_map.mp hRow
  have hRowBuilds := hBuilds action hAction ((hSame _).mp hReached)
  exact ⟨hRowBuilds.controlFlow, hRowBuilds.inputs, hRowBuilds.ref, hRowBuilds.type,
    hRowBuilds.interaction⟩

/-- A removed edge that adds a dependency is typed as an edge from a trigger. -/
theorem dropsNoDep_iff (hIds : (edgedIds edged).Nodup) (hSpelled : Spelled uuid edged) :
    DropsNoDep uuid workflowId edged ↔
      ∀ action ∈ edged, ∀ edge ∈ action.2, edge.sourceType = some .trigger →
        ∀ source, Reached uuid edged source → uuid.parse edge.sourceId ≠ some source := by
  constructor
  · intro hDrops action hAction edge hEdge hType source hReached hParse
    have hText : edge.sourceId ≠ "" := by
      intro hEmpty
      rw [hEmpty, uuid.parse_empty] at hParse
      cases hParse
    have hDropped : edge.kept uuid workflowId (edgedIds edged) = false := by
      unfold UpstreamEdgeData.kept
      rw [hType]
      refine decide_eq_false fun hOwn => ?_
      rw [hOwn, parse_triggerIdOf] at hParse
      cases hParse
    have hRooted : Rooted edged action.1.id :=
      ⟨action, hAction, rfl, edge, hEdge, by simp [UpstreamEdgeData.fromTrigger, hType, hText]⟩
    have hNone := hDrops action hAction ⟨hRooted.mem, Or.inr ⟨_, hRooted, .refl⟩⟩ edge hEdge hDropped
    obtain ⟨row, hRow, rfl⟩ := List.mem_map.mp hReached.1
    have hSome := (dependencyOf_eq_some hIds).mpr
      ⟨row, hRow, hParse, mem_reachable_iff.mpr hReached, rfl⟩
    cases hNone.symm.trans hSome
  · intro hSources action hAction _ edge hEdge hDropped
    by_contra hSome
    obtain ⟨dep, hDep⟩ := Option.ne_none_iff_exists'.mp hSome
    obtain ⟨source, hSource, hParse, hReached, -⟩ := (dependencyOf_eq_some hIds).mp hDep
    by_cases hType : edge.sourceType = some .trigger
    · exact hSources action hAction edge hEdge hType _ (mem_reachable_iff.mp hReached) hParse
    · have hKept : edge.kept uuid workflowId (edgedIds edged) = true :=
        kept_of_spelled hSpelled hAction hEdge (List.mem_map_of_mem hSource) ⟨hType, hParse⟩
      rw [hDropped] at hKept
      cases hKept

/-- For rows with distinct identifiers whose edges have the shapes that the build
reads: normalizing the draft does not change the program exactly when the edges
are read alike. -/
theorem normalizes_iff (uuid : PyUuid Id) (yaml : Yaml Args) (parsesDate : String → Bool)
    (workflowId : Id) (actions : List (Action Id)) (edged : List (EdgedAction Id))
    (hNodup : (actions.map Action.id).Nodup) (hRead : actions.mapM validateEdges = .ok edged) :
    Normalizes uuid yaml parsesDate workflowId actions edged ↔
      ReadAlike uuid yaml parsesDate workflowId edged := by
  have hIds : (edgedIds edged).Nodup := by
    rw [edgedIds_of_read hRead]
    exact hNodup
  have hReconciled : (reconcileGraphObjectWithActions uuid workflowId actions).1.mapM
      validateEdges = .ok (keptRows uuid workflowId edged) := read_reconciled hRead
  constructor
  · intro hNormalizes
    obtain ⟨hTyped, hSpelled⟩ := (keepsRows_iff hRead).mp hNormalizes.rows
    have hKeeps (hBuilds : Builds uuid yaml parsesDate edged) :
        SameReach uuid workflowId edged ∧ DropsNoDep uuid workflowId edged := by
      have hOnce := hNormalizes.same _ ((build_eq_ok hRead).mpr ⟨hBuilds, rfl⟩) 1
      obtain ⟨-, hEq⟩ := (build_eq_ok hReconciled).mp hOnce
      exact (statementsOf_keptRows_iff hIds hSpelled).mp hEq.symm
    constructor
    case typed => exact hTyped
    case spelled => exact hSpelled
    case sources => exact fun hBuilds => (dropsNoDep_iff hIds hSpelled).mp (hKeeps hBuilds).2
    case roots => exact fun hBuilds => (sameReach_iff hSpelled).mp (hKeeps hBuilds).1
  · intro hAlike
    constructor
    case built =>
      intro stmts hStmts
      obtain ⟨hBuilds, rfl⟩ := (build_eq_ok hRead).mp hStmts
      exact builds_reached hIds (hAlike.sources hBuilds)
    case same =>
      intro stmts hStmts n
      cases n with
      | zero => exact hStmts
      | succ n =>
          obtain ⟨hBuilds, rfl⟩ := (build_eq_ok hRead).mp hStmts
          have hSame := (sameReach_iff hAlike.spelled).mpr (hAlike.roots hBuilds)
          have hDrops : DropsNoDep uuid workflowId edged :=
            (dropsNoDep_iff hIds hAlike.spelled).mpr (hAlike.sources hBuilds)
          rw [reconciled_succ, build_eq_ok hReconciled]
          exact ⟨builds_keptRows hSame hBuilds,
            ((statementsOf_keptRows_iff hIds hAlike.spelled).mpr ⟨hSame, hDrops⟩).symm⟩
    case rows => exact (keepsRows_iff hRead).mpr ⟨hAlike.typed, hAlike.spelled⟩
    case idempotent => exact reconcile_reconciled actions

end Rows

/-! ## Two roots -/

namespace Sample

def rowOf (id : Bool) (title : String) (edge : EdgeData) : Action Bool where
  id := id
  type := .udf "core.http_request"
  inputs := ""
  title := title
  description := ""
  controlFlow := {}
  upstreamEdges := [edge]

/-- Two actions that hang on the trigger.  The edge of the first has no
`source_type`. -/
def legacyRows (sourceType : JsonField) : List (Action Bool) :=
  [rowOf false "Fetch" ⟨.str (triggerIdOf uuid true), sourceType, .missing⟩,
    rowOf true "Notify" ⟨.str (triggerIdOf uuid true), .str "trigger", .missing⟩]

/-- The first action is no longer a statement once the draft is reconciled. -/
theorem legacyRows_not_normalizes :
    ∃ (actions : List (Action Bool)) (edged : List (EdgedAction Bool)),
      (actions.map Action.id).Nodup ∧ actions.mapM validateEdges = .ok edged ∧
        ¬Normalizes uuid yaml (fun _ => true) true actions edged := by
  refine ⟨legacyRows .missing, _, by decide, rfl, fun hNormalizes => ?_⟩
  have hOnce := hNormalizes.same _ rfl 1
  have hLength := congrArg (fun result => result.toOption.map List.length) hOnce
  exact absurd hLength (by decide)

/-- With its type the edge stays, and so does the statement. -/
theorem legacyRows_normalizes :
    Normalizes uuid yaml (fun _ => true) true (legacyRows (.str "trigger"))
      ((legacyRows (.str "trigger")).map fun action =>
        (action, [⟨triggerIdOf uuid true, some .trigger, none⟩])) := by
  refine (normalizes_iff uuid yaml (fun _ => true) true _ _ (by decide) rfl).mpr ?_
  have hEdges : ∀ action ∈ (legacyRows (.str "trigger")).map fun action =>
      (action, [(⟨triggerIdOf uuid true, some .trigger, none⟩ : UpstreamEdgeData)]),
      ∀ edge ∈ action.2, edge.FromOwnTrigger uuid true := by
    intro action hAction edge hEdge
    obtain ⟨row, -, rfl⟩ := List.mem_map.mp hAction
    rw [List.mem_singleton.mp hEdge]
    exact ⟨rfl, rfl⟩
  constructor
  case typed =>
    intro action hAction edge hEdge hType
    rw [(hEdges action hAction edge hEdge).1] at hType
    cases hType
  case spelled =>
    intro action hAction edge hEdge source _ hUdf
    exact absurd (hEdges action hAction edge hEdge).1 hUdf.1
  case sources =>
    intro _ action hAction edge hEdge _ source _
    rw [(hEdges action hAction edge hEdge).2, parse_triggerIdOf]
    exact (Option.some_ne_none source).symm
  case roots =>
    rintro - root ⟨action, hAction, hId, edge, hEdge, -⟩
    exact Or.inl ⟨root, ⟨action, hAction, hId, edge, hEdge, hEdges action hAction edge hEdge⟩, .refl⟩

end Sample

end Workflow
end Tracecat
