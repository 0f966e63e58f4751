import Mathlib.Algebra.GroupWithZero.Nat
import Tracecat.Lib.Dict
import Tracecat.Dsl.Schemas

/-!
# Validation of a workflow definition

`DSLInput.validate_structure` and the passes it calls (`dsl/common.py`):
reference checks, scope assignment by topological sort, the scope rules for
edges and expressions, and the synchronization rule of loop regions.  Each
definition follows the function of the same name; a `TracecatDSLError` is a
value of `DSLError`.
-/

namespace Tracecat

/-- A scope id: the root scope, or the ref of the action that opened it.  Refs
match `[a-z0-9_]+`, so `"<root>"` is no ref. -/
inductive Scope
  | root
  | opened (opener : Ref)
  deriving DecidableEq, Repr

def Scope.name : Scope → String
  | root => "<root>"
  | opened opener => opener

inductive DSLError
  | noActions
  | duplicateRefs (refs : List Ref)
  | noEntrypoints
  | invalidDep (dep : String) (ref : Ref)
  | unknownDeps (refs : List Ref)
  | unknownExprRef (ref : Ref) (key : String) (dep : Ref)
  | moreGathersThanScatters
  | unbalancedLoops (starts ends : Nat)
  | multipleScopes (ref : Ref) (current new : Scope)
  | closerInRootScope (action : ActionType) (ref : Ref)
  | closesWrongScopeType (ref : Ref)
  | cycle
  | edgeOutsideParentScope (action : ActionType) (ref : Ref) (dep : String)
  | edgeOutsideClosedLoop (ref : Ref) (dep : String) (scope : Scope)
  | edgeClosesWrongScopeType (ref : Ref) (dep : String)
  | edgeOutsideChildScope (action : ActionType) (ref : Ref) (dep : String)
  | edgeInDifferentScope (ref : Ref) (dep : String)
  | exprOutsideParentScope (action : ActionType) (ref : Ref) (key : String) (dep : Ref)
  | conditionOutsideLoop (ref : Ref) (dep : Ref) (scope : Scope)
  | exprClosesWrongScopeType (ref : Ref) (dep : Ref)
  | exprOutsideChildScope (action : ActionType) (ref : Ref) (key : String) (dep : Ref)
  | exprNotReferencable (ref : Ref) (key : String) (dep : Ref)
  | loopEndManyScopes (ref : Ref)
  | loopEndNotChildScope (ref : Ref)
  | loopEndNotLoopScope (ref : Ref)
  | multipleLoopEnds (scope : Scope) (first second : Ref)
  | missingLoopEnd (scope : Scope)
  | unsynchronized (scope : Scope) (loopEnd : Ref) (refs : List Ref)
  deriving DecidableEq, Repr

/-- `key2loc`. -/
def keyToLoc (key : String) : String :=
  if key = "args" then "inputs" else key

namespace DSLInput

variable (dsl : DSLInput)

/-- `stmts[ref]`, or `self.tasks[ref]` in the scheduler. -/
def stmt? (ref : Ref) : Option ActionStatement :=
  dsl.actions.find? fun action => action.ref = ref

/-- `DSLInput._to_adjacency`: one entry per dependency string. -/
def toAdjacency (src : Ref) : List Ref :=
  dsl.actions.flatMap fun action =>
    (action.deps.filter fun dep => dep.1 = src).map fun _ => action.ref

/-- `DSLInput._to_typed_adjacency`. -/
def toTypedAdjacency (src : Ref) : List AdjDst :=
  dsl.actions.flatMap fun action =>
    (action.deps.filter fun dep => dep.1 = src).map fun dep => (action.ref, dep.2)

end DSLInput

/-- The templated entries of `action.model_dump(exclude={"depends_on"})` with
the `ACTIONS` references found in each. -/
def ActionStatement.exprFields (stmt : ActionStatement) : List (String × List Ref) :=
  [("description", stmt.description.actionRefs),
    ("args", stmt.args.template.actionRefs),
    ("interaction", (stmt.interaction.getD {}).actionRefs),
    ("run_if", (stmt.runIf.getD {}).actionRefs),
    ("for_each", (stmt.forEach.getD {}).actionRefs),
    ("retry_policy", (stmt.retryUntil.getD {}).actionRefs),
    ("wait_until", (stmt.waitUntil.getD {}).actionRefs),
    ("environment", (stmt.environment.getD {}).actionRefs)]

/-! ## Scope assignment -/

/-- The three mappings that `_assign_action_scopes` returns. -/
structure ActionScopes where
  scopes : Dict Ref Scope := ∅
  hierarchy : Dict Scope (Option Scope) := ∅
  openers : Dict Scope ActionType := ∅

namespace ActionScopes

/-- `scopes[ref]`. -/
def scopeOf (assigned : ActionScopes) (ref : Ref) : Scope :=
  assigned.scopes.getD ref .root

/-- `scope_hierarchy.get(scope)`. -/
def parentOf (assigned : ActionScopes) (scope : Scope) : Option Scope :=
  assigned.hierarchy.getD scope none

/-- `while curr_scope is not None: ...; curr_scope = scope_hierarchy.get(curr_scope)`:
the scope and its ancestors.  The walk visits each scope of the hierarchy at
most once. -/
def chainFrom (assigned : ActionScopes) : Nat → Scope → List Scope
  | 0, scope => [scope]
  | fuel + 1, scope =>
      match assigned.parentOf scope with
      | none => [scope]
      | some parent => scope :: chainFrom assigned fuel parent

def chain (assigned : ActionScopes) (scope : Scope) : List Scope :=
  assigned.chainFrom assigned.hierarchy.entries.length scope

/-- `_is_same_or_ancestor_scope`, `_is_same_or_descendant_scope` and
`DSLScheduler._scope_is_descendant`: the walk from `scope` meets `ancestor`. -/
def isDescendant (assigned : ActionScopes) (scope ancestor : Scope) : Bool :=
  ancestor ∈ assigned.chain scope

/-- The walk of `_is_loop_descendant_scope`. -/
def loopDescendantFrom (assigned : ActionScopes) (actionScope : Scope) : Nat → Scope → Bool
  | 0, scope => scope = actionScope
  | fuel + 1, scope =>
      if scope = actionScope then true
      else if assigned.openers.lookup scope ≠ some .loopStart then false
      else
        match assigned.parentOf scope with
        | none => false
        | some parent => loopDescendantFrom assigned actionScope fuel parent

/-- `_is_loop_descendant_scope`. -/
def isLoopDescendant (assigned : ActionScopes) (depScope actionScope : Scope) : Bool :=
  if depScope = actionScope then false
  else assigned.loopDescendantFrom actionScope assigned.hierarchy.entries.length depScope

/-- `assign_scope`. -/
def assignScope (assigned : ActionScopes) (ref : Ref) (scope : Scope) :
    Except DSLError ActionScopes :=
  match assigned.scopes.lookup ref with
  | none => .ok { assigned with scopes := assigned.scopes.insert ref scope }
  | some current =>
      if current ≠ scope then .error (.multipleScopes ref current scope)
      else .ok assigned

/-- The scope transition of one visited action: the updated mappings and
`next_scope`. -/
def visit (assigned : ActionScopes) (stmt : ActionStatement) (current : Scope) :
    Except DSLError (ActionScopes × Scope) :=
  if stmt.action.isOpener then do
    let next := Scope.opened stmt.ref
    let assigned ← assigned.assignScope stmt.ref next
    .ok ({ assigned with
            hierarchy := assigned.hierarchy.insert next (some current)
            openers := assigned.openers.insert next stmt.action }, next)
  else if stmt.action.isCloser then
    match assigned.parentOf current with
    | none => .error (.closerInRootScope stmt.action stmt.ref)
    | some next =>
        if assigned.openers.lookup current ≠ stmt.action.openerOf then
          .error (.closesWrongScopeType stmt.ref)
        else do
          let assigned ← assigned.assignScope stmt.ref next
          .ok (assigned, next)
  else do
    let assigned ← assigned.assignScope stmt.ref current
    .ok (assigned, current)

end ActionScopes

/-- The local variables of the topological sort. -/
structure TopoState where
  assigned : ActionScopes
  indegrees : Dict Ref Int
  queue : List (Ref × Scope)
  visited : Nat

namespace TopoState

/-- One turn of `for next_ref in adj.get(ref, [])`. -/
def release (next : Scope) (state : TopoState) (nextRef : Ref) : TopoState :=
  let indegree := state.indegrees.getD nextRef 0 - 1
  { state with
    indegrees := state.indegrees.insert nextRef indegree
    queue := if indegree = 0 then state.queue ++ [(nextRef, next)] else state.queue }

/-- `while queue: ...`.  Every action enters the queue at most once, so the
number of actions bounds the number of turns. -/
def run (dsl : DSLInput) : Nat → TopoState → Except DSLError TopoState
  | 0, state => .ok state
  | fuel + 1, state =>
      match state.queue with
      | [] => .ok state
      | (ref, current) :: rest =>
          match dsl.stmt? ref with
          | none => .error .cycle
          | some stmt => do
              let (assigned, next) ← state.assigned.visit stmt current
              let popped : TopoState :=
                { state with
                  assigned := assigned, queue := rest, visited := state.visited + 1 }
              run dsl fuel ((dsl.toAdjacency ref).foldl (release next) popped)

/-- The state before the first turn: indegrees and the entry actions. -/
def start (dsl : DSLInput) : TopoState where
  assigned := { hierarchy := (∅ : Dict Scope (Option Scope)).insert .root none }
  indegrees := dsl.actions.foldl
    (fun indegrees action => indegrees.insert action.ref (action.dependsOn.length : Int)) ∅
  queue := (dsl.actions.filter fun action => action.dependsOn.length = 0).map
    fun action => (action.ref, .root)
  visited := 0

end TopoState

namespace DSLInput

variable (dsl : DSLInput)

/-- `DSLInput._assign_action_scopes`. -/
def assignActionScopes : Except DSLError ActionScopes := do
  let final ← TopoState.run dsl dsl.actions.length (TopoState.start dsl)
  if final.visited ≠ dsl.actions.length then .error .cycle
  else .ok final.assigned

/-! ## Scope rules -/

/-- The scopes of the dependencies of a statement, as a set. -/
def depScopes (assigned : ActionScopes) (stmt : ActionStatement) : List Scope :=
  (stmt.deps.map fun dep => assigned.scopeOf dep.1).dedup

/-- `_resolve_closed_loop_scope`. -/
def resolveClosedLoopScope (assigned : ActionScopes) (loopEnd : ActionStatement) :
    Except DSLError Scope :=
  match depScopes assigned loopEnd with
  | [loopScope] =>
      if assigned.parentOf loopScope ≠ some (assigned.scopeOf loopEnd.ref) then
        .error (.loopEndNotChildScope loopEnd.ref)
      else if assigned.openers.lookup loopScope ≠ some .loopStart then
        .error (.loopEndNotLoopScope loopEnd.ref)
      else .ok loopScope
  | _ => .error (.loopEndManyScopes loopEnd.ref)

/-- The edge rule of `_validate_scope_dependencies` for one dependency. -/
def checkEdge (assigned : ActionScopes) (stmt : ActionStatement) (dep : String) :
    Except DSLError Unit :=
  let actionScope := assigned.scopeOf stmt.ref
  let depScope := assigned.scopeOf (((edgeComponentsFromDep dep).map Prod.fst).getD "")
  if stmt.action.isOpener then
    if some depScope ≠ assigned.parentOf actionScope then
      .error (.edgeOutsideParentScope stmt.action stmt.ref dep)
    else .ok ()
  else if stmt.action = .loopEnd then do
    let closed ← resolveClosedLoopScope assigned stmt
    if depScope ≠ closed then .error (.edgeOutsideClosedLoop stmt.ref dep closed)
    else .ok ()
  else if stmt.action.isCloser then
    if some actionScope ≠ assigned.parentOf depScope then
      if assigned.openers.lookup depScope ≠ stmt.action.openerOf then
        .error (.edgeClosesWrongScopeType stmt.ref dep)
      else .error (.edgeOutsideChildScope stmt.action stmt.ref dep)
    else .ok ()
  else if depScope ≠ actionScope then .error (.edgeInDifferentScope stmt.ref dep)
  else .ok ()

/-- The rule that a closer's expression references come from a child scope. -/
def checkCloserExpr (assigned : ActionScopes) (stmt : ActionStatement) (key : String)
    (dep : Ref) : Except DSLError Unit :=
  if some (assigned.scopeOf stmt.ref) ≠ assigned.parentOf (assigned.scopeOf dep) then
    if assigned.openers.lookup (assigned.scopeOf dep) ≠ stmt.action.openerOf then
      .error (.exprClosesWrongScopeType stmt.ref dep)
    else .error (.exprOutsideChildScope stmt.action stmt.ref (keyToLoc key) dep)
  else .ok ()

/-- The references of the `condition` entry of the arguments. -/
def conditionRefs (stmt : ActionStatement) : List Ref :=
  match stmt.args with
  | .loopEnd args => args.condition.actionRefs
  | .other entries =>
      (entries.filter fun entry => entry.1 = "condition").flatMap
        fun entry => entry.2.actionRefs
  | _ => []

/-- The expression rule of `_validate_scope_dependencies` for one reference. -/
def checkExpr (assigned : ActionScopes) (stmt : ActionStatement) (key : String) (dep : Ref) :
    Except DSLError Unit :=
  let actionScope := assigned.scopeOf stmt.ref
  let depScope := assigned.scopeOf dep
  if stmt.action.isOpener then
    if some depScope ≠ assigned.parentOf actionScope then
      .error (.exprOutsideParentScope stmt.action stmt.ref (keyToLoc key) dep)
    else .ok ()
  else if stmt.action = .loopEnd then do
    let closed ← resolveClosedLoopScope assigned stmt
    if key = "args" ∧ dep ∈ conditionRefs stmt ∧ depScope ≠ closed then
      .error (.conditionOutsideLoop stmt.ref dep closed)
    else checkCloserExpr assigned stmt key dep
  else if stmt.action.isCloser then checkCloserExpr assigned stmt key dep
  else if ¬ assigned.isDescendant actionScope depScope ∧
      ¬ assigned.isLoopDescendant depScope actionScope then
    .error (.exprNotReferencable stmt.ref (keyToLoc key) dep)
  else .ok ()

/-- `_validate_scope_dependencies`. -/
def validateScopeDependencies (assigned : ActionScopes) : Except DSLError Unit := do
  dsl.actions.forM fun stmt =>
    if stmt.action = .loopEnd then do
      let _ ← resolveClosedLoopScope assigned stmt
      .ok ()
    else .ok ()
  dsl.actions.forM fun stmt => do
    stmt.dependsOn.forM fun dep => checkEdge assigned stmt dep
    stmt.exprFields.forM fun field =>
      field.2.forM fun dep => checkExpr assigned stmt field.1 dep

/-! ## Synchronization of loop regions -/

/-- `loop_end_by_scope`, built in statement order. -/
def loopEndByScope (assigned : ActionScopes) : Except DSLError (Dict Scope Ref) :=
  (dsl.actions.filter fun stmt => stmt.action = .loopEnd).foldlM
    (fun ends stmt => do
      let loopScope ← resolveClosedLoopScope assigned stmt
      match ends.lookup loopScope with
      | some existing => throw (.multipleLoopEnds loopScope existing stmt.ref)
      | none => return ends.insert loopScope stmt.ref) ∅

/-- `reverse_success_adj`: the sources of the success edges into `ref`. -/
def reverseSuccessAdj (ref : Ref) : List Ref :=
  match dsl.stmt? ref with
  | none => []
  | some stmt =>
      ((stmt.deps.filter fun dep => dep.2 = .success).map Prod.fst).dedup

/-- `while stack: ...`: the refs that reach the start of the search along
success edges. -/
def canReach : Nat → List Ref → List Ref → List Ref
  | 0, _, found => found
  | _ + 1, [], found => found
  | fuel + 1, current :: stack, found =>
      if current ∈ found then canReach fuel stack found
      else canReach fuel (dsl.reverseSuccessAdj current ++ stack) (current :: found)

/-- `can_reach_loop_end`.  A turn of the search pops the loop end or an edge,
so one turn more than there are edges suffices. -/
def canReachLoopEnd (loopEnd : Ref) : List Ref :=
  dsl.canReach ((dsl.actions.map fun stmt => stmt.deps.length).sum + 1) [loopEnd] []

/-- `_validate_loop_scope_synchronization`. -/
def validateLoopScopeSynchronization (assigned : ActionScopes) : Except DSLError Unit :=
  let loopScopes :=
    (assigned.openers.entries.filter fun entry => entry.2 = .loopStart).map Sigma.fst
  if loopScopes.isEmpty then .ok ()
  else do
    let ends ← dsl.loopEndByScope assigned
    loopScopes.forM fun scope =>
      if ends.lookup scope = none then .error (.missingLoopEnd scope) else .ok ()
    ends.entries.forM fun entry =>
      let unsynchronized := (assigned.scopes.entries.filter fun item =>
        assigned.isDescendant item.2 entry.1 &&
          !(dsl.canReachLoopEnd entry.2).contains item.1).map Sigma.fst
      if unsynchronized.isEmpty then .ok ()
      else .error (.unsynchronized entry.1 entry.2 unsynchronized)

/-- `_validate_scatter_gather_scopes`. -/
def validateScatterGatherScopes : Except DSLError Unit :=
  let count (action : ActionType) : Nat :=
    (dsl.actions.filter fun stmt => stmt.action = action).length
  if count .transformGather > count .transformScatter then
    .error .moreGathersThanScatters
  else if count .loopEnd ≠ count .loopStart then
    .error (.unbalancedLoops (count .loopStart) (count .loopEnd))
  else if count .transformScatter = 0 ∧ count .loopStart = 0 then .ok ()
  else do
    let assigned ← dsl.assignActionScopes
    dsl.validateScopeDependencies assigned
    dsl.validateLoopScopeSynchronization assigned

/-- `_all_action_expressions_valid`. -/
def allActionExpressionsValid : Except DSLError Unit :=
  dsl.actions.forM fun stmt =>
    stmt.exprFields.forM fun field =>
      field.2.forM fun dep =>
        if dep ∈ dsl.actions.map ActionStatement.ref then .ok ()
        else .error (.unknownExprRef stmt.ref (keyToLoc field.1) dep)

/-- `DSLInput.validate_structure`. -/
def validateStructure : Except DSLError Unit :=
  let refs := dsl.actions.map ActionStatement.ref
  if dsl.actions.isEmpty then .error .noActions
  else if refs.dedup.length ≠ refs.length then
    .error (.duplicateRefs (refs.dedup.filter fun ref => 1 < refs.count ref))
  else if (dsl.actions.filter fun stmt => stmt.dependsOn.isEmpty).length = 0 then
    .error .noEntrypoints
  else do
    dsl.actions.forM fun stmt => stmt.dependsOn.forM fun dep =>
      if edgeComponentsFromDep dep = none then .error (.invalidDep dep stmt.ref) else .ok ()
    let invalid := (dsl.actions.flatMap fun stmt => stmt.deps.map Prod.fst).filter
      fun ref => ref ∉ refs
    if !invalid.isEmpty then .error (.unknownDeps invalid)
    else do
      dsl.allActionExpressionsValid
      dsl.validateScatterGatherScopes

/-- `validate_structure` accepts the definition. -/
def Accepted : Prop :=
  dsl.validateStructure = .ok ()

instance : Decidable dsl.Accepted :=
  inferInstanceAs (Decidable (_ = _))

end DSLInput

end Tracecat
