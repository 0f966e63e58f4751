import Mathlib.Data.List.ReduceOption
import Tracecat.Lib.Checks
import Tracecat.Dsl.Accepted
import Tracecat.Workflow.Draft

/-!
# The rows of an imported definition

The import of an accepted definition in closed form: the row of each statement,
the edges that the build reads in it, the actions that it reaches, and the
statement that it makes of the row.
-/

namespace Tracecat
namespace Workflow

open Checks

variable {Id Args : Type}

/-- The import creates one action for each statement, so `uuid4` is drawn once
for each ref. -/
structure ImportEnv (Id Args : Type) where
  uuid : PyUuid Id
  yaml : Yaml Args
  parsesDate : String → Bool
  reader : ExpressionReader Args
  draw : Ref → Id
  workflowId : Id

/-- An entry action is reached from the trigger, and so is an action with a
dependency on a reached one. -/
inductive FromEntry (dsl : DSLInput Args) : Ref → Prop
  | entry {stmt : ActionStatement Args} (hStmt : stmt ∈ dsl.actions)
      (hEntry : stmt.dependsOn = []) : FromEntry dsl stmt.ref
  | after {stmt : ActionStatement Args} (hStmt : stmt ∈ dsl.actions) {dep : String}
      {edge : AdjDst} (hDep : dep ∈ stmt.dependsOn)
      (hEdge : edgeComponentsFromDep dep = some edge) (hSource : FromEntry dsl edge.1) :
      FromEntry dsl stmt.ref

def ActionStatement.deps (stmt : ActionStatement Args) : List AdjDst :=
  stmt.dependsOn.filterMap edgeComponentsFromDep

/-- A dependency as the build spells it. -/
def depText (edge : AdjDst) : String :=
  match edge.2 with
  | .success => edge.1
  | .error => depFromEdgeComponents edge.1 .error

def handleOf : EdgeType → EdgeHandle
  | .success => .success
  | .error => .error

namespace ImportEnv

variable (env : ImportEnv Id Args) (stmt : ActionStatement Args)

/-- The edges that the import stores for a statement. -/
def storedEdges : List EdgeData :=
  if stmt.dependsOn.isEmpty then [triggerEdge env.uuid env.workflowId]
  else stmt.deps.map fun edge => udfEdge env.uuid (env.draw edge.1) edge.2

/-- The stored edges, as the build reads them. -/
def readEdges : List UpstreamEdgeData :=
  if stmt.dependsOn.isEmpty then
    [⟨"trigger-" ++ env.uuid.str env.workflowId, some .trigger, none⟩]
  else stmt.deps.map fun edge =>
    ⟨env.uuid.str (env.draw edge.1), some .udf, some (handleOf edge.2)⟩

/-- The row that the import creates for a statement. -/
def row : Action Id where
  id := env.draw stmt.ref
  type := stmt.action
  inputs := env.yaml.dump stmt.args
  title := titleOfRef stmt.ref
  description := stmt.description
  controlFlow := stmt.storedControlFlow
  upstreamEdges := env.storedEdges stmt

/-- The row and its edges. -/
def edged : EdgedAction Id :=
  (env.row stmt, env.readEdges stmt)

end ImportEnv

/-! ## The import -/

section Import

variable {env : ImportEnv Id Args} {dsl : DSLInput Args}

theorem ActionStatement.validate_eq_ok {stmt : ActionStatement Args} :
    stmt.validate = .ok () ↔ matchesSlugPattern stmt.ref = true ∧
      matchesActionTypePattern stmt.action = true ∧
        (stmt.interaction.isSome → (stmt.forEach.map ForEach.truthy).getD false = false) := by
  unfold validate badFields
  rw [throw_if_eq_ok, throw_if_eq_ok]
  by_cases hRef : matchesSlugPattern stmt.ref = true <;>
    by_cases hType : matchesActionTypePattern stmt.action = true <;> simp [hRef, hType]

theorem ActionControlFlow.validate_ok_iff {parsesDate : String → Bool}
    {flow checked : ActionControlFlow} :
    flow.validate parsesDate = .ok checked ↔ flow.badFields parsesDate = [] ∧ checked = flow := by
  unfold ActionControlFlow.validate
  cases flow.badFields parsesDate with
  | nil => simp [eq_comm]
  | cons field fields => simp

namespace DSLInput.Accepted

variable (hAccepted : dsl.Accepted env.reader)
include hAccepted

theorem refs_nodup : (dsl.actions.map ActionStatement.ref).Nodup := by
  have hNodup := hAccepted.structured.validated.refs_nodup
  unfold DSLInput.controlFlow at hNodup
  rw [List.map_map] at hNodup
  exact hNodup

theorem dep_known {stmt : ActionStatement Args} (hStmt : stmt ∈ dsl.actions) {dep : String}
    (hDep : dep ∈ stmt.dependsOn) :
    ∃ edge, edgeComponentsFromDep dep = some edge ∧
      edge.1 ∈ dsl.actions.map ActionStatement.ref := by
  have hValid := hAccepted.structured.validated
  have hMem : stmt.controlFlow env.reader ∈ (dsl.controlFlow env.reader).actions :=
    List.mem_map_of_mem hStmt
  cases hEdge : edgeComponentsFromDep dep with
  | none => exact absurd hEdge (hValid.deps_parse _ hMem dep hDep)
  | some edge =>
      have hKnown := hValid.deps_known _ hMem edge (List.mem_filterMap.mpr ⟨dep, hDep, hEdge⟩)
      unfold DSLInput.controlFlow at hKnown
      rw [List.map_map] at hKnown
      exact ⟨edge, rfl, hKnown⟩

theorem deps_known {stmt : ActionStatement Args} (hStmt : stmt ∈ dsl.actions) {edge : AdjDst}
    (hEdge : edge ∈ stmt.deps) : edge.1 ∈ dsl.actions.map ActionStatement.ref := by
  obtain ⟨dep, hDep, hParse⟩ := List.mem_filterMap.mp hEdge
  obtain ⟨known, hKnown, hMem⟩ := hAccepted.dep_known hStmt hDep
  rw [hParse] at hKnown
  cases hKnown
  exact hMem

theorem exists_entry : ∃ stmt ∈ dsl.actions, stmt.dependsOn = [] := by
  have hStructured := hAccepted.structured
  unfold Tracecat.DSLInput.Accepted Tracecat.DSLInput.validateStructure at hStructured
  simp only [throw_if_eq_ok] at hStructured
  obtain ⟨-, -, hEntry, -⟩ := hStructured
  obtain ⟨stmt, hStmt⟩ := List.exists_mem_of_length_pos (Nat.pos_of_ne_zero hEntry)
  obtain ⟨hMem, hEmpty⟩ := List.mem_filter.mp hStmt
  obtain ⟨source, hSource, rfl⟩ := List.mem_map.mp hMem
  exact ⟨source, hSource, List.isEmpty_iff.mp hEmpty⟩

theorem ref_pattern {stmt : ActionStatement Args} (hStmt : stmt ∈ dsl.actions) :
    matchesSlugPattern stmt.ref := by
  exact (ActionStatement.validate_eq_ok.mp (hAccepted.statements stmt hStmt)).1

theorem upstreamEdges_eq {stmt : ActionStatement Args} (hStmt : stmt ∈ dsl.actions) :
    dsl.upstreamEdges env.uuid env.draw env.workflowId stmt = .ok (env.storedEdges stmt) := by
  unfold DSLInput.upstreamEdges ImportEnv.storedEdges
  by_cases hEntry : stmt.dependsOn.isEmpty
  · rw [if_pos hEntry, if_pos hEntry]
  · rw [if_neg hEntry, if_neg hEntry]
    have hEdges : stmt.dependsOn.mapM (dsl.edgeOfDep env.uuid env.draw) =
        .ok (stmt.dependsOn.map fun dep => (edgeComponentsFromDep dep).map fun edge =>
          udfEdge env.uuid (env.draw edge.1) edge.2) := by
      apply mapM_eq_map
      intro dep hDep
      obtain ⟨edge, hEdge, hMem⟩ := hAccepted.dep_known hStmt hDep
      unfold DSLInput.edgeOfDep
      simp only [hEdge, if_pos hMem, Option.map_some]
    rw [hEdges]
    refine congrArg Except.ok ?_
    rw [ActionStatement.deps, List.reduceOption, List.filterMap_map, List.map_filterMap]
    rfl

theorem createActionsFromDsl_eq
    (hFlows : ∀ stmt ∈ dsl.actions, stmt.storedControlFlow.badFields env.parsesDate = []) :
    dsl.createActionsFromDsl env.uuid env.yaml env.parsesDate env.draw env.workflowId =
      .ok (dsl.actions.map env.row) := by
  have hNew : dsl.actions.mapM (DSLInput.newAction env.yaml env.parsesDate env.draw) =
      .ok (dsl.actions.map fun stmt => { env.row stmt with upstreamEdges := [] }) := by
    apply mapM_eq_map
    intro stmt hStmt
    have hFlow := ActionControlFlow.validate_ok_iff.mpr ⟨hFlows stmt hStmt, rfl⟩
    unfold DSLInput.newAction
    rw [hFlow]
    rfl
  unfold DSLInput.createActionsFromDsl
  rw [hNew]
  have hZip : dsl.actions.zip (dsl.actions.map fun stmt =>
        { env.row stmt with upstreamEdges := [] }) =
      dsl.actions.map fun stmt => (stmt, { env.row stmt with upstreamEdges := [] }) := by
    rw [← List.map_prod_left_eq_zip]
  have hSet : (dsl.actions.map fun stmt =>
        (stmt, ({ env.row stmt with upstreamEdges := [] } : Action Id))).mapM
        (dsl.setEdges env.uuid env.draw env.workflowId) =
      .ok (dsl.actions.map env.row) := by
    refine mapM_eq_ok_iff.mpr ?_
    rw [List.forall₂_map_left_iff, List.forall₂_map_right_iff, List.forall₂_same]
    intro stmt hStmt
    unfold DSLInput.setEdges
    rw [hAccepted.upstreamEdges_eq hStmt]
    rfl
  rw [← hSet, ← hZip]
  rfl

omit hAccepted in
theorem flows_of_created {actions : List (Action Id)}
    (hCreated : dsl.createActionsFromDsl env.uuid env.yaml env.parsesDate env.draw
      env.workflowId = .ok actions) :
    ∀ stmt ∈ dsl.actions, stmt.storedControlFlow.badFields env.parsesDate = [] := by
  unfold DSLInput.createActionsFromDsl at hCreated
  obtain ⟨rows, hRows, -⟩ := bind_eq_ok.mp hCreated
  intro stmt hStmt
  obtain ⟨row, -, hRow⟩ := exists_right_of_forall₂ (mapM_eq_ok_iff.mp hRows) hStmt
  obtain ⟨flow, hFlow, -⟩ := bind_eq_ok.mp hRow
  exact (ActionControlFlow.validate_ok_iff.mp hFlow).1

end DSLInput.Accepted

end Import

/-! ## What the build reads -/

section Build

variable {env : ImportEnv Id Args} {stmt : ActionStatement Args}

theorem UuidText.str_ne_empty (uuid : PyUuid Id) (id : Id) : uuid.str id ≠ "" := by
  intro hEmpty
  have hParse := uuid.parse_str id
  rw [hEmpty, uuid.parse_empty] at hParse
  cases hParse

theorem validateEdges_row : validateEdges (env.row stmt) = .ok (env.edged stmt) := by
  have hEdges : (env.storedEdges stmt).mapM validateUpstreamEdge = .ok (env.readEdges stmt) := by
    unfold ImportEnv.storedEdges ImportEnv.readEdges
    by_cases hEntry : stmt.dependsOn.isEmpty
    · rw [if_pos hEntry, if_pos hEntry]
      rfl
    · rw [if_neg hEntry, if_neg hEntry, mapM_eq_ok_iff, List.forall₂_map_left_iff,
        List.forall₂_map_right_iff, List.forall₂_same]
      rintro ⟨src, type⟩ -
      cases type <;> rfl
  unfold validateEdges
  show ((env.storedEdges stmt).mapM validateUpstreamEdge >>= fun edges =>
    pure (env.row stmt, edges)) = _
  rw [hEdges]
  rfl

theorem any_fromTrigger :
    (env.readEdges stmt).any UpstreamEdgeData.fromTrigger = stmt.dependsOn.isEmpty := by
  unfold ImportEnv.readEdges
  by_cases hEntry : stmt.dependsOn.isEmpty
  · have hText : "trigger-" ++ env.uuid.str env.workflowId ≠ "" := by
      intro hEmpty
      have hLength := congrArg String.length hEmpty
      rw [String.length_append] at hLength
      simp at hLength
    rw [if_pos hEntry, hEntry]
    simp [UpstreamEdgeData.fromTrigger, hText]
  · rw [if_neg hEntry, List.any_map]
    have hNone (edges : List AdjDst) : (edges.any fun edge =>
        UpstreamEdgeData.fromTrigger
          ⟨env.uuid.str (env.draw edge.1), some .udf, some (handleOf edge.2)⟩) = false := by
      simp [UpstreamEdgeData.fromTrigger]
    rw [Bool.not_eq_true] at hEntry
    rw [hEntry]
    exact hNone stmt.deps

variable [DecidableEq Id]

theorem any_sourceAction_iff {id : Id} :
    ((env.readEdges stmt).any fun edge => edge.sourceAction? env.uuid = some id) = true ↔
      ∃ edge ∈ stmt.deps, env.draw edge.1 = id := by
  unfold ImportEnv.readEdges
  by_cases hEntry : stmt.dependsOn.isEmpty
  · have hDeps : stmt.deps = [] := by
      rw [ActionStatement.deps, List.isEmpty_iff.mp hEntry]
      rfl
    have hTrigger : (env.readEdges stmt).any UpstreamEdgeData.fromTrigger =
        stmt.dependsOn.isEmpty := any_fromTrigger
    rw [ImportEnv.readEdges, if_pos hEntry, hEntry, List.any_cons, List.any_nil,
      Bool.or_false] at hTrigger
    rw [if_pos hEntry, hDeps]
    simp [UpstreamEdgeData.sourceAction?, hTrigger]
  · rw [if_neg hEntry, List.any_map, List.any_eq_true]
    refine exists_congr fun edge => and_congr_right fun _ => ?_
    have hText := UuidText.str_ne_empty env.uuid (env.draw edge.1)
    simp [UpstreamEdgeData.sourceAction?, UpstreamEdgeData.fromTrigger, hText,
      env.uuid.parse_str]

/-- An accepted definition whose actions have been given distinct UUIDs, and its
statements in the order in which the database lists their rows. -/
structure Imported (env : ImportEnv Id Args) (dsl : DSLInput Args)
    (stmts : List (ActionStatement Args)) : Prop where
  accepted : dsl.Accepted env.reader
  drawn : ∀ ref ∈ dsl.actions.map ActionStatement.ref,
    ∀ other ∈ dsl.actions.map ActionStatement.ref, env.draw ref = env.draw other → ref = other
  listed : stmts.Perm dsl.actions

namespace Imported

variable {dsl : DSLInput Args} {stmts : List (ActionStatement Args)}
  (hImported : Imported env dsl stmts)
include hImported

omit [DecidableEq Id] in
theorem stmt_of_ref {ref : Ref} (hRef : ref ∈ dsl.actions.map ActionStatement.ref) :
    ∃ stmt ∈ stmts, stmt.ref = ref := by
  obtain ⟨stmt, hStmt, hEq⟩ := List.mem_map.mp hRef
  exact ⟨stmt, hImported.listed.mem_iff.mpr hStmt, hEq⟩

omit [DecidableEq Id] in
theorem ref_mem {stmt : ActionStatement Args} (hStmt : stmt ∈ stmts) :
    stmt.ref ∈ dsl.actions.map ActionStatement.ref :=
  List.mem_map_of_mem (hImported.listed.mem_iff.mp hStmt)

omit [DecidableEq Id] hImported in
theorem mem_ids {id : Id} : id ∈ (stmts.map env.edged).map (fun action => action.1.id) ↔
    ∃ stmt ∈ stmts, env.draw stmt.ref = id := by
  simp [ImportEnv.edged, ImportEnv.row]

omit hImported in
theorem mem_triggerRoots {id : Id} : id ∈ triggerRoots (stmts.map env.edged) ↔
    ∃ stmt ∈ stmts, stmt.dependsOn = [] ∧ env.draw stmt.ref = id := by
  simp only [triggerRoots, List.mem_dedup, List.mem_map, List.mem_filter]
  constructor
  · rintro ⟨_, ⟨⟨stmt, hStmt, rfl⟩, hEntry⟩, rfl⟩
    rw [ImportEnv.edged, any_fromTrigger, List.isEmpty_iff] at hEntry
    exact ⟨stmt, hStmt, hEntry, rfl⟩
  · rintro ⟨stmt, hStmt, hEntry, rfl⟩
    refine ⟨env.edged stmt, ⟨⟨stmt, hStmt, rfl⟩, ?_⟩, rfl⟩
    rw [ImportEnv.edged, any_fromTrigger, List.isEmpty_iff]
    exact hEntry

omit hImported in
theorem mem_adjacentActionIds {sourceId id : Id} :
    id ∈ adjacentActionIds env.uuid (stmts.map env.edged) sourceId ↔
      (∃ source ∈ stmts, env.draw source.ref = sourceId) ∧
        ∃ stmt ∈ stmts, (∃ edge ∈ stmt.deps, env.draw edge.1 = sourceId) ∧
          env.draw stmt.ref = id := by
  simp only [adjacentActionIds, List.mem_map, List.mem_filter, Bool.and_eq_true,
    List.contains_iff_mem]
  constructor
  · rintro ⟨_, ⟨⟨stmt, hStmt, rfl⟩, ⟨_, ⟨source, hSource, rfl⟩, rfl⟩, hEdge⟩, rfl⟩
    exact ⟨⟨source, hSource, rfl⟩, stmt, hStmt, any_sourceAction_iff.mp hEdge, rfl⟩
  · rintro ⟨⟨source, hSource, rfl⟩, stmt, hStmt, hEdge, rfl⟩
    exact ⟨env.edged stmt, ⟨⟨stmt, hStmt, rfl⟩, ⟨_, ⟨source, hSource, rfl⟩, rfl⟩,
      any_sourceAction_iff.mpr hEdge⟩, rfl⟩

theorem reaches_iff {ref : Ref} (hRef : ref ∈ dsl.actions.map ActionStatement.ref) :
    Search.Reaches (adjacentActionIds env.uuid (stmts.map env.edged))
      (triggerRoots (stmts.map env.edged)) (env.draw ref) ↔ FromEntry dsl ref := by
  have hMem {stmt : ActionStatement Args} : stmt ∈ stmts ↔ stmt ∈ dsl.actions :=
    hImported.listed.mem_iff
  constructor
  · rintro ⟨root, hRoot, hWalk⟩
    suffices hReached : ∃ stmt ∈ dsl.actions, env.draw stmt.ref = env.draw ref ∧
        FromEntry dsl stmt.ref by
      obtain ⟨stmt, hStmt, hDraw, hEntry⟩ := hReached
      rwa [hImported.drawn _ (List.mem_map_of_mem hStmt) _ hRef hDraw] at hEntry
    generalize env.draw ref = id at hWalk
    induction hWalk with
    | refl =>
        obtain ⟨stmt, hStmt, hEntry, hDraw⟩ := mem_triggerRoots.mp hRoot
        exact ⟨stmt, hMem.mp hStmt, hDraw, .entry (hMem.mp hStmt) hEntry⟩
    | tail _ hStep ih =>
        obtain ⟨source, hSource, hDraw, hEntry⟩ := ih
        obtain ⟨-, stmt, hStmt, ⟨edge, hEdge, hFrom⟩, hTo⟩ := mem_adjacentActionIds.mp hStep
        obtain ⟨dep, hDep, hParse⟩ := List.mem_filterMap.mp hEdge
        refine ⟨stmt, hMem.mp hStmt, hTo, .after (hMem.mp hStmt) hDep hParse ?_⟩
        have hKnown := hImported.accepted.deps_known (hMem.mp hStmt) hEdge
        rwa [hImported.drawn _ hKnown _ (List.mem_map_of_mem hSource) (hFrom.trans hDraw.symm)]
  · intro hEntry
    induction hEntry with
    | @entry stmt hStmt hEmpty =>
        apply Search.Reaches.root
        exact mem_triggerRoots.mpr ⟨stmt, hMem.mpr hStmt, hEmpty, rfl⟩
    | @after stmt hStmt dep edge hDep hParse _ ih =>
        have hEdge : edge ∈ stmt.deps := List.mem_filterMap.mpr ⟨dep, hDep, hParse⟩
        have hKnown := hImported.accepted.deps_known hStmt hEdge
        obtain ⟨source, hSource, hSourceRef⟩ := hImported.stmt_of_ref hKnown
        apply (ih hKnown).next
        apply mem_adjacentActionIds.mpr
        exact ⟨⟨source, hSource, by rw [hSourceRef]⟩, stmt, hMem.mpr hStmt, ⟨edge, hEdge, rfl⟩, rfl⟩

/-- An action is reachable when the dependency edges lead to it from an entry. -/
theorem mem_reachableActionIds {ref : Ref} (hRef : ref ∈ dsl.actions.map ActionStatement.ref) :
    env.draw ref ∈ reachableActionIds env.uuid (stmts.map env.edged) ↔ FromEntry dsl ref := by
  have hSome : ¬ (triggerRoots (stmts.map env.edged)).isEmpty := by
    obtain ⟨stmt, hStmt, hEntry⟩ := hImported.accepted.exists_entry
    intro hEmpty
    have hRoot : env.draw stmt.ref ∈ triggerRoots (stmts.map env.edged) :=
      mem_triggerRoots.mpr ⟨stmt, hImported.listed.mem_iff.mpr hStmt, hEntry, rfl⟩
    rw [List.isEmpty_iff.mp hEmpty] at hRoot
    cases hRoot
  have hNext (sourceId : Id) :
      ∀ id ∈ adjacentActionIds env.uuid (stmts.map env.edged) sourceId,
        id ∈ (stmts.map env.edged).map fun action => action.1.id := by
    intro id hId
    obtain ⟨-, stmt, hStmt, -, hDraw⟩ := mem_adjacentActionIds.mp hId
    exact mem_ids.mpr ⟨stmt, hStmt, hDraw⟩
  have hRoots : ∀ id ∈ triggerRoots (stmts.map env.edged),
      id ∈ (stmts.map env.edged).map fun action => action.1.id := by
    intro id hId
    obtain ⟨stmt, hStmt, -, hDraw⟩ := mem_triggerRoots.mp hId
    exact mem_ids.mpr ⟨stmt, hStmt, hDraw⟩
  unfold reachableActionIds
  dsimp only
  rw [if_neg hSome]
  exact (Search.mem_flood hNext (List.nodup_dedup _) hRoots).trans (hImported.reaches_iff hRef)

/-- The row with the identifier of a known source is the row of its statement. -/
theorem find_source {ref : Ref} (hRef : ref ∈ dsl.actions.map ActionStatement.ref) :
    ∃ source ∈ stmts, source.ref = ref ∧ (stmts.map env.edged).find?
      (fun action => action.1.id = env.draw ref) = some (env.edged source) := by
  obtain ⟨stmt, hStmt, hEq⟩ := hImported.stmt_of_ref hRef
  cases hFound : (stmts.map env.edged).find? fun action => action.1.id = env.draw ref with
  | none =>
      have hNone := List.find?_eq_none.mp hFound (env.edged stmt) (List.mem_map_of_mem hStmt)
      simp [ImportEnv.edged, ImportEnv.row, hEq] at hNone
  | some action =>
      obtain ⟨source, hSource, rfl⟩ := List.mem_map.mp (List.mem_of_find?_eq_some hFound)
      have hId : (env.edged source).1.id = env.draw ref := by simpa using List.find?_some hFound
      exact ⟨source, hSource,
        hImported.drawn _ (hImported.ref_mem hSource) _ hRef hId, rfl⟩

theorem dependencyOf_edge (hCanonical : ∀ stmt ∈ dsl.actions, CanonicalRef stmt.ref)
    (hReachable : ∀ stmt ∈ dsl.actions, FromEntry dsl stmt.ref) {edge : AdjDst}
    (hKnown : edge.1 ∈ dsl.actions.map ActionStatement.ref) :
    dependencyOf env.uuid (stmts.map env.edged)
      (reachableActionIds env.uuid (stmts.map env.edged))
      ⟨env.uuid.str (env.draw edge.1), some .udf, some (handleOf edge.2)⟩ =
        some (depText edge) := by
  obtain ⟨source, hSource, hRef, hFound⟩ := hImported.find_source hKnown
  have hMem := hImported.listed.mem_iff.mp hSource
  have hReached := (hImported.mem_reachableActionIds hKnown).mpr (hRef ▸ hReachable source hMem)
  have hSlug : (env.edged source).1.ref = edge.1 := by
    rw [← hRef]
    exact slugify_of_canonical (hImported.accepted.ref_pattern hMem) (hCanonical source hMem)
  have hText := UuidText.str_ne_empty env.uuid (env.draw edge.1)
  unfold dependencyOf
  simp only [hText, if_false, env.uuid.parse_str, Option.bind_eq_bind, Option.bind_some, hFound,
    hReached, if_true, hSlug]
  unfold depText
  cases edge.2 <;> rfl

/-- With canonical refs and every action reachable, the edges of a row give its
dependencies back. -/
theorem filterMap_dependencyOf (hCanonical : ∀ stmt ∈ dsl.actions, CanonicalRef stmt.ref)
    (hReachable : ∀ stmt ∈ dsl.actions, FromEntry dsl stmt.ref) {stmt : ActionStatement Args}
    (hStmt : stmt ∈ dsl.actions) :
    (env.readEdges stmt).filterMap (dependencyOf env.uuid (stmts.map env.edged)
      (reachableActionIds env.uuid (stmts.map env.edged))) = stmt.deps.map depText := by
  unfold ImportEnv.readEdges
  by_cases hEntry : stmt.dependsOn.isEmpty
  · have hDeps : stmt.deps = [] := by
      rw [ActionStatement.deps, List.isEmpty_iff.mp hEntry]
      rfl
    rw [if_pos hEntry, hDeps]
    simp [dependencyOf, env.uuid.parse_trigger]
  · rw [if_neg hEntry, List.filterMap_map]
    have hEdges : ∀ edge ∈ stmt.deps, (dependencyOf env.uuid (stmts.map env.edged)
        (reachableActionIds env.uuid (stmts.map env.edged)) ∘ fun edge : AdjDst =>
          (⟨env.uuid.str (env.draw edge.1), some .udf, some (handleOf edge.2)⟩ :
            UpstreamEdgeData)) edge = some (depText edge) := by
      intro edge hEdge
      exact hImported.dependencyOf_edge hCanonical hReachable
        (hImported.accepted.deps_known hStmt hEdge)
    rw [List.filterMap_congr hEdges]
    exact congrFun List.filterMap_eq_map' stmt.deps

end Imported

end Build
end Workflow
end Tracecat
