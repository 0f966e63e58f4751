import Mathlib.Data.List.Basic
import Mathlib.Data.String.Basic

/-!
# Data model of a workflow definition

The part of `dsl/schemas.py`, `dsl/enums.py` and `dsl/types.py` that control
flow reads: action statements with their dependency strings, the arguments of
the four control-flow actions, stream identifiers and task instances.

A templated field is represented by what `extract_expressions` finds in it,
the references to `ACTIONS`, `TRIGGER` and `ENV`; the expression language
itself is not part of control flow.
-/

namespace Tracecat

abbrev Ref : Type := String

/-- `EdgeType`: which outcome of the source the edge waits for. -/
inductive EdgeType
  | success
  | error
  deriving DecidableEq, Repr

/-- `EdgeType.value`. -/
def EdgeType.value : EdgeType → String
  | .success => "success"
  | .error => "error"

/-- `EdgeMarker`: what the scheduler has recorded about an edge. -/
inductive EdgeMarker
  | pending
  | visited
  | skipped
  deriving DecidableEq, Repr

/-- `JoinStrategy`. -/
inductive JoinStrategy
  | any
  | all
  deriving DecidableEq, Repr

/-- `StreamErrorHandlingStrategy`. -/
inductive StreamErrorHandlingStrategy
  | partition
  | include
  | drop
  | raise
  deriving DecidableEq, Repr

/-- The `action` string of a statement, with the `PlatformAction` members set
apart from the registry actions. -/
inductive ActionType
  | childWorkflowExecute
  | transformScatter
  | transformGather
  | loopStart
  | loopEnd
  | aiAgent
  | aiPresetAgent
  | aiAction
  | runPython
  | udf (name : String)
  deriving DecidableEq, Repr

namespace ActionType

/-- `SCOPE_OPENER_ACTIONS`. -/
def isOpener : ActionType → Bool
  | transformScatter | loopStart => true
  | _ => false

/-- `SCOPE_CLOSER_ACTIONS`. -/
def isCloser : ActionType → Bool
  | transformGather | loopEnd => true
  | _ => false

/-- `CLOSER_TO_OPENER_ACTION`, defined on the closers. -/
def openerOf : ActionType → Option ActionType
  | transformGather => some transformScatter
  | loopEnd => some loopStart
  | _ => none

/-- An action that neither opens nor closes a scope. -/
def isPlain (action : ActionType) : Bool :=
  !action.isOpener && !action.isCloser

end ActionType

/-- What an expression can refer to. -/
inductive ExprRef
  | action (ref : Ref)
  | trigger
  | env
  deriving DecidableEq, Repr

/-- A templated value: the references that occur in it, in order. -/
structure Template where
  refs : List ExprRef := []
  deriving DecidableEq, Repr

/-- The `ACTIONS` references of a template. -/
def Template.actionRefs (template : Template) : List Ref :=
  template.refs.filterMap fun
    | .action ref => some ref
    | _ => none

/-- `ScatterArgs`; the interval counts clock ticks. -/
structure ScatterArgs where
  collection : Template
  interval : Option Int := none
  deriving DecidableEq, Repr

/-- `GatherArgs`. -/
structure GatherArgs where
  items : Template
  dropNulls : Bool := false
  errorStrategy : StreamErrorHandlingStrategy := .partition
  deriving DecidableEq, Repr

/-- `LoopEndArgs`, before the bounds on `max_iterations` are checked. -/
structure LoopEndArgs where
  condition : Template
  maxIterations : Int := 100
  deriving DecidableEq, Repr

/-- `MAX_DO_WHILE_ITERATIONS`. -/
def maxDoWhileIterations : Int := 2048

/-- The `args` mapping, by the argument model that accepts it.  `other` is a
mapping that none of the control-flow argument models accepts; it keeps the
templates of its entries under their keys. -/
inductive ActionArgs
  | scatter (args : ScatterArgs)
  | gather (args : GatherArgs)
  | loopEnd (args : LoopEndArgs)
  | other (entries : List (String × Template))
  deriving DecidableEq, Repr

/-- Every template inside the arguments. -/
def ActionArgs.template : ActionArgs → Template
  | scatter args => args.collection
  | gather args => args.items
  | loopEnd args => args.condition
  | other entries => ⟨entries.flatMap fun entry => entry.2.refs⟩

/-- `ActionStatement`. -/
structure ActionStatement where
  ref : Ref
  action : ActionType
  args : ActionArgs := .other []
  dependsOn : List String := []
  description : Template := {}
  interaction : Option Template := none
  runIf : Option Template := none
  forEach : Option Template := none
  retryUntil : Option Template := none
  waitUntil : Option Template := none
  joinStrategy : JoinStrategy := .all
  environment : Option Template := none
  deriving DecidableEq, Repr

/-- `AdjDst`: a neighbour and the type of the edge that leads to it. -/
abbrev AdjDst : Type := Ref × EdgeType

/-- `edge_components_from_dep`: `ref`, `ref.success` or `ref.error`.  `none`
stands for the `ValueError` on any other path. -/
def edgeComponentsFromDep (dep : String) : Option AdjDst :=
  let src := String.ofList (dep.toList.takeWhile (· ≠ '.'))
  match dep.toList.dropWhile (· ≠ '.') with
  | [] => some (src, .success)
  | _ :: path =>
      if String.ofList path = EdgeType.success.value then some (src, .success)
      else if String.ofList path = EdgeType.error.value then some (src, .error)
      else none

/-- The dependencies of a statement as edges.  Every entry of an accepted
definition parses, so nothing is dropped there. -/
def ActionStatement.deps (stmt : ActionStatement) : List AdjDst :=
  stmt.dependsOn.filterMap edgeComponentsFromDep

/-- The segment index of a stream: a position in the scattered collection, or
the token of a skipped scatter. -/
inductive StreamIndex
  | item (index : Nat)
  | skip
  deriving DecidableEq, Repr

/-- `StreamID`: the root stream, or a segment appended to a base stream. -/
inductive StreamID
  | root
  | child (base : StreamID) (scope : Ref) (index : StreamIndex)
  deriving DecidableEq, Repr

namespace StreamID

/-- `StreamID.new(scope, index, base_stream_id=base)`. -/
abbrev new (scope : Ref) (index : Nat) (base : StreamID) : StreamID :=
  child base scope (.item index)

/-- `StreamID.skip(scope, base_stream_id=base)`. -/
abbrev skip (scope : Ref) (base : StreamID) : StreamID :=
  child base scope .skip

/-- `_stream_within`: the stream is `base` or lies below it. -/
def within (base : StreamID) : StreamID → Bool
  | root => root = base
  | child parent scope index => child parent scope index = base || within base parent

/-- The scatter refs of the segments after the root, innermost first. -/
def scatters : StreamID → List Ref
  | root => []
  | child base scope _ => scope :: base.scatters

/-- Some segment carries the skip token. -/
def hasSkip : StreamID → Bool
  | root => false
  | child base _ index => index = .skip || base.hasSkip

end StreamID

/-- `ROOT_STREAM`. -/
abbrev rootStream : StreamID := .root

/-- `Task`, by the fields that take part in its equality. -/
structure Task where
  ref : Ref
  stream : StreamID
  deriving DecidableEq, Repr

/-- A `Task` together with its `delay`, which equality ignores. -/
structure DelayedTask where
  task : Task
  delay : Int := 0
  deriving DecidableEq, Repr

/-- `DSLEdge`. -/
structure DSLEdge where
  src : Ref
  dst : Ref
  type : EdgeType
  stream : StreamID
  deriving DecidableEq, Repr

/-- `DSLInput`: the statements of a workflow definition. -/
structure DSLInput where
  actions : List ActionStatement
  deriving DecidableEq, Repr

end Tracecat
