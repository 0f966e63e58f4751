import Mathlib.Data.List.TakeWhile
import Tracecat.Dsl.DepOrder
import Tracecat.Workflow.DraftRows

/-!
# Round trip of a definition through the draft

When an accepted definition that is imported and built back comes back
equivalent.  The import drops the environment and the interaction of a
statement, refs pass through the slug of their title, the control flow of the
draft has limits of its own, statements that no entry leads to are not built,
and the statements come back in the order of the database.
-/

namespace Tracecat
namespace Workflow

open Checks

variable {Id Args : Type}

/-! ## What comes back -/

/-- The same statement, up to the order and the spelling of its edges and its
description, which no execution reads. -/
structure ActionStatement.Equiv (stmt other : ActionStatement Args) : Prop where
  edges : (stmt.dependsOn.map edgeComponentsFromDep).Perm
    (other.dependsOn.map edgeComponentsFromDep)
  rest : { stmt with dependsOn := [], description := "" } =
    { other with dependsOn := [], description := "" }

/-- What reads neither the edges nor the description is the same. -/
theorem ActionStatement.Equiv.read_eq {β : Type} {stmt other : ActionStatement Args}
    (hEquiv : stmt.Equiv other) (read : ActionStatement Args → β)
    (hRead : ∀ stmt : ActionStatement Args,
      read { stmt with dependsOn := [], description := "" } = read stmt) :
    read stmt = read other := by
  rw [← hRead stmt, ← hRead other, hEquiv.rest]

/-- The same set of statements, and the same fields of the workflow. -/
structure DSLInput.Equiv (dsl other : DSLInput Args) : Prop where
  statements : ∃ stmts, stmts.Perm dsl.actions ∧
    List.Forall₂ ActionStatement.Equiv stmts other.actions
  fields : { dsl with actions := ([] : List (ActionStatement Args)) } =
    { other with actions := ([] : List (ActionStatement Args)) }

/-- Every reference in an expression names an action of the definition. -/
def DSLInput.ReferencesResolve (dsl : DSLInput Args) (reader : ExpressionReader Args) : Prop :=
  ∀ stmt ∈ dsl.actions, ∀ field ∈ (stmt.controlFlow reader).exprFields, ∀ dep ∈ field.2,
    dep ∈ dsl.actions.map ActionStatement.ref

/-- The items in the order of a listing of their positions. -/
def listed {α : Type} (listing : List Nat) (items : List α) : List α :=
  listing.filterMap fun position => items[position]?

/-- The draft that an import leaves, with its actions in the order in which the
database lists them. -/
def ImportEnv.importDraft (env : ImportEnv Id Args) (dsl : DSLInput Args) (listing : List Nat) :
    Except DraftError (Draft Id) := do
  let actions ← dsl.createActionsFromDsl env.uuid env.yaml env.parsesDate env.draw env.workflowId
  return dsl.workflowFieldsFromDsl (listed listing actions)

/-- The import succeeds, the build succeeds, and the definition is back. -/
def RoundTrips [DecidableEq Id] (env : ImportEnv Id Args) (dsl : DSLInput Args)
    (listing : List Nat) : Prop :=
  ∃ draft built, env.importDraft dsl listing = .ok draft ∧
    buildDslFromWorkflow env.uuid env.yaml env.parsesDate env.reader draft = .ok built ∧
      dsl.Equiv built ∧ built.ReferencesResolve env.reader

/-- The definition in the order of the database, without descriptions. -/
def DSLInput.inDatabase (dsl : DSLInput Args) (listing : List Nat) : DSLInput Args :=
  { dsl with
    actions := (listed listing dsl.actions).map fun stmt => { stmt with description := "" } }

/-- The import and the build keep every statement. -/
structure KeepsStatements (env : ImportEnv Id Args) (dsl : DSLInput Args) : Prop where
  refs : ∀ stmt ∈ dsl.actions, CanonicalRef stmt.ref
  environment : ∀ stmt ∈ dsl.actions, stmt.environment = none
  interaction : ∀ stmt ∈ dsl.actions, stmt.interaction = none
  controlFlow : ∀ stmt ∈ dsl.actions, stmt.storedControlFlow.badFields env.parsesDate = []
  reachable : ∀ stmt ∈ dsl.actions, FromEntry dsl stmt.ref

/-- The conditions under which a definition survives. -/
structure Survives (env : ImportEnv Id Args) (dsl : DSLInput Args) (listing : List Nat) : Prop
    extends KeepsStatements env dsl where
  ordered : ((dsl.inDatabase listing).controlFlow env.reader).Accepted

/-! ## The order of the database -/

section Listed

variable {α β : Type} {listing : List Nat} {items : List α}

theorem filterMap_range (items : List α) :
    (List.range items.length).filterMap (fun position => items[position]?) = items := by
  induction items using List.reverseRecOn with
  | nil => rfl
  | append_singleton items item ih =>
      have hFirst : (List.range items.length).filterMap
          (fun position => (items ++ [item])[position]?) = items := by
        refine Eq.trans (List.filterMap_congr ?_) ih
        intro position hPosition
        exact List.getElem?_append_left (List.mem_range.mp hPosition)
      rw [List.length_append, List.length_singleton, List.range_succ, List.filterMap_append, hFirst]
      simp

theorem listed_perm (hListing : listing.Perm (List.range items.length)) :
    (listed listing items).Perm items := by
  have hPerm := hListing.filterMap fun position => items[position]?
  rwa [filterMap_range] at hPerm

theorem listed_map (f : α → β) : listed listing (items.map f) = (listed listing items).map f := by
  unfold listed
  rw [List.map_filterMap]
  simp

end Listed

/-! ## The statement of a row -/

/-- The statement that comes back, when it survives. -/
def ActionStatement.rebuilt (stmt : ActionStatement Args) : ActionStatement Args :=
  { stmt with
    description := ""
    dependsOn := (stmt.deps.map depText).insertionSort fun dep dep' => dep ≤ dep' }

section Build

variable [DecidableEq Id] {env : ImportEnv Id Args} {dsl : DSLInput Args}
  {stmts : List (ActionStatement Args)}

theorem built_row {stmt built : ActionStatement Args} {actions : List (EdgedAction Id)}
    {reachable : List Id}
    (hBuilt : buildActionStatement env.uuid env.yaml env.parsesDate actions reachable
      (env.edged stmt) = .ok built) :
    built.ref = slugify (titleOfRef stmt.ref) ∧ matchesSlugPattern built.ref ∧
      built.environment = none ∧ built.interaction = none := by
  unfold buildActionStatement at hBuilt
  obtain ⟨flow, hFlow, hRest⟩ := bind_eq_ok.mp hBuilt
  obtain ⟨-, rfl⟩ := ActionControlFlow.validate_ok_iff.mp hFlow
  obtain ⟨args, -, hStatement⟩ := bind_eq_ok.mp hRest
  obtain ⟨hValid, hEq⟩ := then_eq_ok.mp hStatement
  obtain rfl := Except.ok.inj hEq
  exact ⟨rfl, (ActionStatement.validate_eq_ok.mp hValid).1, rfl, rfl⟩

theorem Imported.buildActionStatement_row (hImported : Imported env dsl stmts)
    (hKeeps : KeepsStatements env dsl) {stmt : ActionStatement Args} (hStmt : stmt ∈ dsl.actions) :
    buildActionStatement env.uuid env.yaml env.parsesDate (stmts.map env.edged)
      (reachableActionIds env.uuid (stmts.map env.edged)) (env.edged stmt) = .ok stmt.rebuilt := by
  have hFlow : (env.edged stmt).1.controlFlow.validate env.parsesDate =
      .ok stmt.storedControlFlow :=
    ActionControlFlow.validate_ok_iff.mpr ⟨hKeeps.controlFlow stmt hStmt, rfl⟩
  have hArgs : env.yaml.loadInputs (env.edged stmt).1.inputs = .ok stmt.args :=
    env.yaml.load_dump stmt.args
  have hRow : statementOfRow env.uuid (stmts.map env.edged)
      (reachableActionIds env.uuid (stmts.map env.edged)) (env.edged stmt)
      stmt.storedControlFlow stmt.args = stmt.rebuilt := by
    have hRef : (env.edged stmt).1.ref = stmt.ref :=
      slugify_of_canonical (hImported.accepted.ref_pattern hStmt) (hKeeps.refs stmt hStmt)
    have hDeps : (env.edged stmt).2.filterMap (dependencyOf env.uuid (stmts.map env.edged)
        (reachableActionIds env.uuid (stmts.map env.edged))) = stmt.deps.map depText :=
      hImported.filterMap_dependencyOf hKeeps.refs hKeeps.reachable hStmt
    unfold statementOfRow
    rw [hRef, hDeps]
    unfold ActionStatement.rebuilt
    rw [hKeeps.environment stmt hStmt, hKeeps.interaction stmt hStmt]
    rfl
  have hValid : stmt.rebuilt.validate = .ok () := by
    have hAccepted := ActionStatement.validate_eq_ok.mp (hImported.accepted.statements stmt hStmt)
    have hInteraction : stmt.rebuilt.interaction = none := hKeeps.interaction stmt hStmt
    exact ActionStatement.validate_eq_ok.mpr ⟨hAccepted.1, hAccepted.2.1, by simp [hInteraction]⟩
  unfold buildActionStatement
  refine bind_eq_ok.mpr ⟨_, hFlow, bind_eq_ok.mpr ⟨_, hArgs, ?_⟩⟩
  rw [hRow]
  exact then_eq_ok.mpr ⟨hValid, rfl⟩

omit [DecidableEq Id] in
theorem validateEdges_rows :
    (stmts.map env.row).mapM validateEdges = .ok (stmts.map env.edged) := by
  rw [mapM_eq_ok_iff, List.forall₂_map_left_iff, List.forall₂_map_right_iff, List.forall₂_same]
  exact fun stmt _ => validateEdges_row

theorem built_rows {built : List (ActionStatement Args)}
    (hBuilt : buildActionStatementsFromActions env.uuid env.yaml env.parsesDate
      (stmts.map env.row) = .ok built) :
    List.Forall₂ (fun stmt statement =>
        buildActionStatement env.uuid env.yaml env.parsesDate (stmts.map env.edged)
          (reachableActionIds env.uuid (stmts.map env.edged)) (env.edged stmt) = .ok statement)
      (stmts.filter fun stmt =>
        env.draw stmt.ref ∈ reachableActionIds env.uuid (stmts.map env.edged)) built := by
  unfold buildActionStatementsFromActions at hBuilt
  rw [validateEdges_rows] at hBuilt
  have hSteps := mapM_eq_ok_iff.mp hBuilt
  rw [List.filter_map, List.forall₂_map_left_iff] at hSteps
  exact hSteps

theorem Imported.buildActionStatements_rows (hImported : Imported env dsl stmts)
    (hKeeps : KeepsStatements env dsl) :
    buildActionStatementsFromActions env.uuid env.yaml env.parsesDate (stmts.map env.row) =
      .ok (stmts.map ActionStatement.rebuilt) := by
  have hAll : ((stmts.map env.edged).filter fun action =>
      action.1.id ∈ reachableActionIds env.uuid (stmts.map env.edged)) = stmts.map env.edged := by
    rw [List.filter_eq_self]
    intro action hAction
    obtain ⟨stmt, hStmt, rfl⟩ := List.mem_map.mp hAction
    have hReached := (hImported.mem_reachableActionIds (hImported.ref_mem hStmt)).mpr
      (hKeeps.reachable stmt (hImported.listed.mem_iff.mp hStmt))
    exact decide_eq_true hReached
  unfold buildActionStatementsFromActions
  refine bind_eq_ok.mpr ⟨_, validateEdges_rows, ?_⟩
  dsimp only
  rw [hAll, mapM_eq_ok_iff, List.forall₂_map_left_iff, List.forall₂_map_right_iff,
    List.forall₂_same]
  intro stmt hStmt
  exact hImported.buildActionStatement_row hKeeps (hImported.listed.mem_iff.mp hStmt)

end Build

/-! ## The edges of a rebuilt statement -/

/-- A dependency as the build spells it is read as the edge. -/
theorem edgeComponentsFromDep_depText {edge : AdjDst} (hPattern : matchesSlugPattern edge.1) :
    edgeComponentsFromDep (depText edge) = some edge := by
  obtain ⟨ref, type⟩ := edge
  have hPlain : ∀ char ∈ ref.toList, decide (char ≠ '.') = true := by
    intro char hChar
    have hRefChar := refChars hPattern char hChar
    apply decide_eq_true
    rintro rfl
    exact absurd hRefChar (by decide)
  unfold edgeComponentsFromDep
  cases type with
  | success =>
      have hText : depText (ref, .success) = ref := rfl
      rw [hText, List.dropWhile_eq_nil_iff.mpr hPlain, List.takeWhile_eq_self_iff.mpr hPlain,
        String.ofList_toList]
  | error =>
      have hChars : (depText (ref, .error)).toList = ref.toList ++ '.' :: "error".toList := by
        simp [depText, depFromEdgeComponents, EdgeType.value, String.toList_append]
      rw [hChars, List.takeWhile_append_of_pos hPlain, List.dropWhile_append_of_pos hPlain]
      simp [EdgeType.value]

variable {env : ImportEnv Id Args} {dsl : DSLInput Args} {stmts : List (ActionStatement Args)}

theorem DSLInput.Accepted.rebuilt_edges (hAccepted : dsl.Accepted env.reader)
    {stmt : ActionStatement Args} (hStmt : stmt ∈ dsl.actions) :
    (stmt.dependsOn.map edgeComponentsFromDep).Perm
      (stmt.rebuilt.dependsOn.map edgeComponentsFromDep) := by
  have hParsed : stmt.dependsOn.map edgeComponentsFromDep = stmt.deps.map some := by
    have hSome : ∀ dep ∈ stmt.dependsOn, (edgeComponentsFromDep dep).isSome := by
      intro dep hDep
      obtain ⟨edge, hEdge, -⟩ := hAccepted.dep_known hStmt hDep
      rw [hEdge]
      rfl
    unfold ActionStatement.deps
    generalize stmt.dependsOn = deps at hSome
    induction deps with
    | nil => rfl
    | cons dep deps ih =>
        obtain ⟨edge, hEdge⟩ := Option.isSome_iff_exists.mp (hSome dep List.mem_cons_self)
        rw [List.map_cons, List.filterMap_cons_some hEdge, List.map_cons, hEdge,
          ih fun other hOther => hSome other (List.mem_cons_of_mem _ hOther)]
  have hSpelled : (stmt.deps.map depText).map edgeComponentsFromDep = stmt.deps.map some := by
    rw [List.map_map]
    apply List.map_congr_left
    intro edge hEdge
    obtain ⟨source, hSource, hRef⟩ := List.mem_map.mp (hAccepted.deps_known hStmt hEdge)
    exact edgeComponentsFromDep_depText (hRef ▸ hAccepted.ref_pattern hSource)
  rw [hParsed, ← hSpelled]
  exact ((List.perm_insertionSort _ _).symm).map edgeComponentsFromDep

/-- The rebuilt definition is accepted when the definition in the order of the
database is. -/
theorem Imported.rebuilt_accepted_iff (hImported : Imported env dsl stmts)
    {rebuilt cleared : DSLInput Args} (hRebuilt : rebuilt.actions = stmts.map ActionStatement.rebuilt)
    (hCleared : cleared.actions = stmts.map fun stmt => { stmt with description := "" }) :
    (rebuilt.controlFlow env.reader).Accepted ↔ (cleared.controlFlow env.reader).Accepted := by
  apply DSLInput.SameEdges.accepted_iff
  unfold Tracecat.DSLInput.SameEdges DSLInput.controlFlow
  rw [hRebuilt, hCleared]
  simp only [List.map_map]
  rw [List.forall₂_map_left_iff, List.forall₂_map_right_iff, List.forall₂_same]
  intro stmt hStmt
  constructor
  · exact (hImported.accepted.rebuilt_edges (hImported.listed.mem_iff.mp hStmt)).symm
  · rfl

theorem construct_eq_ok {reader : ExpressionReader Args} {built : DSLInput Args} :
    dsl.construct reader = .ok built ↔ (dsl.controlFlow reader).Accepted ∧ built = dsl := by
  unfold DSLInput.construct Tracecat.DSLInput.Accepted
  cases (dsl.controlFlow reader).validateStructure with
  | error error => simp
  | ok value => simp [eq_comm]

theorem referencesResolve_of_accepted {reader : ExpressionReader Args}
    (hAccepted : (dsl.controlFlow reader).Accepted) : dsl.ReferencesResolve reader := by
  intro stmt hStmt field hField dep hDep
  have hKnown := hAccepted.validated.exprs_known _ (List.mem_map_of_mem hStmt) field hField dep hDep
  unfold DSLInput.controlFlow at hKnown
  rw [List.map_map] at hKnown
  exact hKnown

/-! ## The two directions -/

section Main

variable [DecidableEq Id] {listing : List Nat}

omit [DecidableEq Id] in
theorem importDraft_eq (hAccepted : dsl.Accepted env.reader)
    (hFlows : ∀ stmt ∈ dsl.actions, stmt.storedControlFlow.badFields env.parsesDate = []) :
    env.importDraft dsl listing =
      .ok (dsl.workflowFieldsFromDsl ((listed listing dsl.actions).map env.row)) := by
  unfold ImportEnv.importDraft
  rw [hAccepted.createActionsFromDsl_eq hFlows, ← listed_map]
  rfl

theorem Imported.build_eq (hImported : Imported env dsl stmts) (hKeeps : KeepsStatements env dsl)
    (hSome : stmts ≠ []) :
    buildDslFromWorkflow env.uuid env.yaml env.parsesDate env.reader
        (dsl.workflowFieldsFromDsl (stmts.map env.row)) =
      ({ dsl with actions := stmts.map ActionStatement.rebuilt } : DSLInput Args).construct
        env.reader := by
  have hRows : ¬ (dsl.workflowFieldsFromDsl (stmts.map env.row)).actions.isEmpty = true := by
    simpa [DSLInput.workflowFieldsFromDsl] using hSome
  have hStatements := hImported.buildActionStatements_rows hKeeps
  unfold buildDslFromWorkflow
  rw [if_neg hRows]
  show (buildActionStatementsFromActions env.uuid env.yaml env.parsesDate (stmts.map env.row) >>=
    fun actions => _) = _
  rw [hStatements]
  rfl

omit [DecidableEq Id] in
theorem workflowFieldsFromDsl_actions (actions : List (Action Id)) :
    (dsl.workflowFieldsFromDsl actions).actions = actions := rfl

theorem build_ok {workflow : Draft Id} {built : DSLInput Args}
    (hBuilt : buildDslFromWorkflow env.uuid env.yaml env.parsesDate env.reader workflow =
      .ok built) :
    buildActionStatementsFromActions env.uuid env.yaml env.parsesDate workflow.actions =
      .ok built.actions ∧ (built.controlFlow env.reader).Accepted := by
  unfold buildDslFromWorkflow at hBuilt
  rw [throw_if_eq_ok] at hBuilt
  obtain ⟨actions, hActions, hConstruct⟩ := bind_eq_ok.mp hBuilt.2
  obtain ⟨hAccepted, rfl⟩ := construct_eq_ok.mp hConstruct
  exact ⟨hActions, hAccepted⟩

theorem Survives.roundTrips (hSurvives : Survives env dsl listing)
    (hImported : Imported env dsl (listed listing dsl.actions)) :
    RoundTrips env dsl listing := by
  obtain ⟨entry, hEntry, -⟩ := hImported.accepted.exists_entry
  have hSome : listed listing dsl.actions ≠ [] :=
    List.ne_nil_of_mem (hImported.listed.mem_iff.mpr hEntry)
  let rebuilt : DSLInput Args :=
    { dsl with actions := (listed listing dsl.actions).map ActionStatement.rebuilt }
  have hRebuilt : (rebuilt.controlFlow env.reader).Accepted :=
    (hImported.rebuilt_accepted_iff rfl rfl).mpr hSurvives.ordered
  have hBuild := hImported.build_eq hSurvives.toKeepsStatements hSome
  refine ⟨_, rebuilt, importDraft_eq hImported.accepted hSurvives.controlFlow, ?_, ?_, ?_⟩
  · rw [hBuild]
    exact construct_eq_ok.mpr ⟨hRebuilt, rfl⟩
  · refine ⟨⟨listed listing dsl.actions, hImported.listed, ?_⟩, rfl⟩
    rw [List.forall₂_map_right_iff, List.forall₂_same]
    intro stmt hStmt
    exact ⟨hImported.accepted.rebuilt_edges (hImported.listed.mem_iff.mp hStmt), rfl⟩
  · exact referencesResolve_of_accepted hRebuilt

/-- Where every statement has a counterpart, the conditions on statements hold. -/
theorem Imported.keepsStatements (hImported : Imported env dsl stmts)
    (hFlows : ∀ stmt ∈ dsl.actions, stmt.storedControlFlow.badFields env.parsesDate = [])
    {built : DSLInput Args} (hEquiv : dsl.Equiv built)
    (hBuilt : List.Forall₂ (fun stmt statement =>
        buildActionStatement env.uuid env.yaml env.parsesDate (stmts.map env.edged)
          (reachableActionIds env.uuid (stmts.map env.edged)) (env.edged stmt) = .ok statement)
      (stmts.filter fun stmt =>
        env.draw stmt.ref ∈ reachableActionIds env.uuid (stmts.map env.edged)) built.actions) :
    KeepsStatements env dsl := by
  obtain ⟨stmts', hPerm, hForall⟩ := hEquiv.statements
  have hReachable : ∀ stmt ∈ dsl.actions, FromEntry dsl stmt.ref := by
    have hLength : (stmts.filter fun stmt =>
        env.draw stmt.ref ∈ reachableActionIds env.uuid (stmts.map env.edged)).length =
          stmts.length := by
      rw [hBuilt.length_eq, ← hForall.length_eq, hPerm.length_eq, hImported.listed.length_eq]
    rw [List.length_filter_eq_length_iff] at hLength
    intro stmt hStmt
    have hListed := hImported.listed.mem_iff.mpr hStmt
    exact (hImported.mem_reachableActionIds (hImported.ref_mem hListed)).mp
      (of_decide_eq_true (hLength stmt hListed))
  -- the row behind the counterpart of a statement
  have hRows : ∀ stmt ∈ dsl.actions, CanonicalRef stmt.ref ∧ stmt.environment = none ∧
      stmt.interaction = none := by
    intro stmt hStmt
    obtain ⟨statement, hStatement, hSame⟩ :=
      exists_right_of_forall₂ hForall (hPerm.mem_iff.mpr hStmt)
    obtain ⟨source, hSource, hRow⟩ := exists_left_of_forall₂ hBuilt hStatement
    obtain ⟨hRef, hPattern, hEnvironment, hInteraction⟩ := built_row hRow
    have hMem := hImported.listed.mem_iff.mp (List.mem_of_mem_filter hSource)
    have hStmtRef : stmt.ref = statement.ref := hSame.read_eq _ fun _ => rfl
    refine ⟨?_, ?_, ?_⟩
    · rw [hStmtRef, hRef]
      exact canonical_slugify (hImported.accepted.ref_pattern hMem) (hRef ▸ hPattern)
    · exact (hSame.read_eq ActionStatement.environment fun _ => rfl).trans hEnvironment
    · exact (hSame.read_eq ActionStatement.interaction fun _ => rfl).trans hInteraction
  exact ⟨fun stmt hStmt => (hRows stmt hStmt).1, fun stmt hStmt => (hRows stmt hStmt).2.1,
    fun stmt hStmt => (hRows stmt hStmt).2.2, hFlows, hReachable⟩

theorem RoundTrips.survives (hRoundTrips : RoundTrips env dsl listing)
    (hImported : Imported env dsl (listed listing dsl.actions)) :
    Survives env dsl listing := by
  obtain ⟨draft, built, hDraft, hBuilt, hEquiv, -⟩ := hRoundTrips
  obtain ⟨actions, hCreated, hFields⟩ := bind_eq_ok.mp hDraft
  have hFlows := DSLInput.Accepted.flows_of_created hCreated
  rw [importDraft_eq hImported.accepted hFlows] at hDraft
  obtain rfl := Except.ok.inj hDraft
  obtain ⟨hStatements, hAccepted⟩ := build_ok hBuilt
  rw [workflowFieldsFromDsl_actions] at hStatements
  have hKeeps : KeepsStatements env dsl :=
    hImported.keepsStatements hFlows hEquiv (built_rows hStatements)
  have hSame := hImported.buildActionStatements_rows hKeeps
  rw [hStatements] at hSame
  exact ⟨hKeeps, (hImported.rebuilt_accepted_iff (Except.ok.inj hSame) rfl).mp hAccepted⟩

/-- An accepted definition comes back from the draft exactly when its refs are
canonical, no statement sets an environment or an interaction, every control flow
passes the checks of the draft, every statement is reachable from an entry, and
the definition in the order of the database is accepted. -/
theorem round_trip_iff (env : ImportEnv Id Args) (dsl : DSLInput Args) (listing : List Nat)
    (hAccepted : dsl.Accepted env.reader)
    (hDrawn : ∀ ref ∈ dsl.actions.map ActionStatement.ref,
      ∀ other ∈ dsl.actions.map ActionStatement.ref, env.draw ref = env.draw other → ref = other)
    (hListing : listing.Perm (List.range dsl.actions.length)) :
    RoundTrips env dsl listing ↔ Survives env dsl listing := by
  have hImported : Imported env dsl (listed listing dsl.actions) :=
    ⟨hAccepted, hDrawn, listed_perm hListing⟩
  constructor
  · exact fun hRoundTrips => hRoundTrips.survives hImported
  · exact fun hSurvives => hSurvives.roundTrips hImported

end Main

/-! ## Two definitions -/

namespace Sample

def text (id : Bool) : String :=
  if id then "9f1c2f8e-6f0d-4c0b-8a53-2b7f3f6f0a01" else "9f1c2f8e-6f0d-4c0b-8a53-2b7f3f6f0a02"

def parse (other : String) : Option Bool :=
  if other = text true then some true else if other = text false then some false else none

def uuid : PyUuid Bool where
  str := text
  parse := parse
  parse_str := by decide
  parse_empty := by decide
  parse_trigger other := by
    have hNe (id : Bool) : "trigger-" ++ other ≠ text id := by
      intro hEq
      have hFirst := congrArg (fun text => text.toList.head?) hEq
      cases id <;> simp [String.toList_append, text] at hFirst
    unfold parse
    rw [if_neg (hNe true), if_neg (hNe false)]

/-- The mappings with no entry, or with one boolean entry `value`. -/
def yaml : Yaml (Option Bool) where
  dump
    | none => "\x7b\x7d\n"
    | some true => "value: true\n"
    | some false => "value: false\n"
  load document :=
    if document = "value: true\n" then .ok (some (some true))
    else if document = "value: false\n" then .ok (some (some false))
    else .ok none
  empty := none
  load_dump
    | none => rfl
    | some true => rfl
    | some false => rfl

def importEnv : ImportEnv Bool (Option Bool) where
  uuid := uuid
  yaml := yaml
  parsesDate document := document = "2025-01-01"
  reader :=
    { template := fun document =>
        if document = "$\x7b\x7b ACTIONS.fetch.result \x7d\x7d" then ⟨[.action "fetch"]⟩ else {}
      actionArgs := fun _ => .other [] }
  draw ref := ref = "notify"
  workflowId := true

def fetch : ActionStatement (Option Bool) where
  ref := "fetch"
  action := .udf "core.http_request"
  args := none

/-- An action that runs when `fetch` has a result. -/
def notify : ActionStatement (Option Bool) where
  ref := "notify"
  action := .udf "core.transform.reshape"
  args := some true
  dependsOn := ["fetch.success"]
  runIf := some "$\x7b\x7b ACTIONS.fetch.result \x7d\x7d"

def fetchNotify : DSLInput (Option Bool) where
  title := "Fetch and notify"
  description := ""
  actions := [fetch, notify]

/-- An action with an environment of its own. -/
def fetchStaging : DSLInput (Option Bool) where
  title := "Fetch"
  description := ""
  actions := [{ fetch with environment := some "staging" }]

theorem fetchNotify_accepted : fetchNotify.Accepted importEnv.reader :=
  ⟨by decide, by decide⟩

theorem fetchStaging_accepted : fetchStaging.Accepted importEnv.reader :=
  ⟨by decide, by decide⟩

theorem fetchNotify_survives : Survives importEnv fetchNotify [1, 0] where
  refs := by decide
  environment := by decide
  interaction := by decide
  controlFlow := by decide
  reachable := by
    have hFetch : FromEntry fetchNotify fetch.ref := .entry List.mem_cons_self rfl
    have hEdge : edgeComponentsFromDep "fetch.success" = some ("fetch", .success) := by decide
    have hNotify : FromEntry fetchNotify notify.ref :=
      .after (List.mem_cons_of_mem _ List.mem_cons_self) List.mem_cons_self hEdge hFetch
    intro stmt hStmt
    rcases List.mem_cons.mp hStmt with rfl | hStmt
    · exact hFetch
    · rw [List.mem_singleton.mp hStmt]
      exact hNotify
  ordered := by decide

/-- The definition comes back, although the database lists its actions the other
way round. -/
theorem fetchNotify_roundTrips : RoundTrips importEnv fetchNotify [1, 0] :=
  (round_trip_iff importEnv fetchNotify [1, 0] fetchNotify_accepted (by decide) (by decide)).mpr
    fetchNotify_survives

/-- The environment of the action is lost. -/
theorem fetchStaging_not_roundTrips :
    fetchStaging.Accepted importEnv.reader ∧ ¬ RoundTrips importEnv fetchStaging [0] := by
  refine ⟨fetchStaging_accepted, fun hRoundTrips => ?_⟩
  have hImported : Imported importEnv fetchStaging (listed [0] fetchStaging.actions) :=
    ⟨fetchStaging_accepted, by decide, listed_perm (by decide)⟩
  have hSurvives := hRoundTrips.survives hImported
  have hLost := hSurvives.environment _ List.mem_cons_self
  cases hLost

end Sample

end Workflow
end Tracecat
