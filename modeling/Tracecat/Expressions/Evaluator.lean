import Tracecat.Dsl.Values
import Tracecat.Expressions.PyValue

/-!
# The expression evaluator

`ExprEvaluator` of `expressions/parser/evaluator.py`: a method for each rule and
each terminal, the bottom-up traversal that the class inherits, and its override
of the traversal for conditionals.

A walk logs the methods that it runs and the selections that it makes, each with
the address of its node.
-/

namespace Tracecat

variable {ω σ κ : Type} [DecidableEq κ]

/-- `ExprEvaluator`, with the `_operand` and the `_strict` of `__init__`. -/
structure ExprEvaluator (ω σ κ : Type) where
  runtime : Runtime ω σ κ
  operand : PyValue ω
  strict : Bool

/-- The symbol in `OPERATORS` that the method of a rule applies. -/
def Rule.operator? : Rule → Option String
  | .orOp => some "||"
  | .andOp => some "&&"
  | .eqOp => some "=="
  | .neOp => some "!="
  | .gtOp => some ">"
  | .geOp => some ">="
  | .ltOp => some "<"
  | .leOp => some "<="
  | .inOp => some "in"
  | .notInOp => some "not in"
  | .isOp => some "is"
  | .isNotOp => some "is not"
  | .addOp => some "+"
  | .subOp => some "-"
  | .mulOp => some "*"
  | .divOp => some "/"
  | .modOp => some "%"
  | _ => none

/-- `MAX_VARS_PATH_DEPTH`. -/
def maxVarsPathDepth : Nat := 1

namespace ExprEvaluator

variable (evaluator : ExprEvaluator ω σ κ)

/-! ## Methods -/

/-- `functions._bool`. -/
def toBool : PyValue ω → PyM σ Bool
  | .bool value => pure value
  | .str value =>
      let lowered := value.map Char.toLower
      pure (lowered == "true".toList || lowered == "1".toList)
  | value => value.truth evaluator.runtime

/-- `functions.cast`. -/
def cast (value : PyValue ω) (typename : TokenText) : PyM σ (PyValue ω) :=
  if typename = "bool".toList then .bool <$> evaluator.toBool value
  else
    match evaluator.runtime.builtinTypeMapping typename with
    | some builtin => builtin value
    | none =>
        throw (.valueError
          ("Unknown type '" ++ String.ofList typename ++ "' for cast operation."))

/-- `_apply_index`. -/
def applyIndex (value index : PyValue ω) : PyM σ (PyValue ω) :=
  let rt := evaluator.runtime
  let raise (message : String) : PyM σ (PyValue ω) := throw (.tracecatExpression message none)
  if value.isMapping rt then
    tryCatch (value.getitem rt index) fun
      | .keyError _ => raise ("Key " ++ rt.repr index ++ " not found for mapping access")
      | .typeError _ =>
          raise ("Invalid key type '" ++ index.className rt ++ "' for mapping access")
      | error => throw error
  else if value.isSequence rt then
    if index.isInt rt then
      tryCatch (value.getitem rt index) fun
        | .indexError _ => raise ("Sequence index " ++ rt.repr index ++ " out of range")
        | error => throw error
    else raise ("Sequence indices must be integers, got '" ++ index.className rt ++ "'")
  else raise ("Object of type '" ++ value.className rt ++ "' is not indexable")

/-- `primary_expr`. -/
def primaryExpr (base : PyValue ω) (indexers : List (PyValue ω)) : PyM σ (PyValue ω) :=
  indexers.foldlM evaluator.applyIndex base

/-- `iterator`. -/
def iterator (iterVarExpr collection : PyValue ω) : PyM σ (PyValue ω) :=
  let rt := evaluator.runtime
  if collection.isIterable rt then pure (.object (rt.iterableExpr iterVarExpr collection))
  else
    throw (.valueError
      ("Invalid iterator collection: " ++ rt.repr collection ++ ". Must be an iterable."))

/-- `list`: `list(*args)`. -/
def list : List (PyValue ω) → PyM σ (PyValue ω)
  | [] => pure (.list [])
  | [value] => .list <$> value.items evaluator.runtime
  | args =>
      throw (.typeError ("list expected at most 1 argument, got " ++ toString args.length))

/-- What `dict` does with an element of its argument. -/
def dictElement (entries : List (PyValue ω × PyValue ω)) (element : PyValue ω) :
    PyM σ (List (PyValue ω × PyValue ω)) :=
  if element.isIterable evaluator.runtime then do
    match ← element.items evaluator.runtime with
    | [key, value] => PyValue.setitem evaluator.runtime entries key value
    | items =>
        throw (.valueError
          ("dictionary update sequence element has length " ++ toString items.length ++
            "; 2 is required"))
  else throw (.typeError "cannot convert dictionary update sequence element to a sequence")

/-- `dict`: `dict(args)`. -/
def dict (args : List (PyValue ω)) : PyM σ (PyValue ω) :=
  .dict <$> args.foldlM evaluator.dictElement []

/-- The methods that look up a context: `eval_jsonpath` of its name and the path. -/
def contextPath (context : ExprContext) (path : TokenText) : PyM σ (PyValue ω) :=
  evaluator.runtime.evalJsonpath (context.value.toList ++ path) evaluator.operand
    evaluator.strict

/-- `actions`. -/
def actions (path : TokenText) : PyM σ (PyValue ω) := evaluator.contextPath .actions path

/-- `secrets`. -/
def secrets (path : TokenText) : PyM σ (PyValue ω) := evaluator.contextPath .secrets path

/-- `vars`. -/
def vars (path : TokenText) : PyM σ (PyValue ω) :=
  let trimmed := path.dropWhile (· == '.')
  let parts := if trimmed.isEmpty then [] else trimmed.splitOn '.'
  let keySegments := parts.drop 1
  if keySegments.length > maxVarsPathDepth then
    throw (.tracecatExpression
      ("VARS expressions currently support at most one key segment " ++
        "(`VARS.<name>.<key>`). Got VARS." ++ String.ofList trimmed ++ " with " ++
        toString keySegments.length ++ " key segments after the variable name.") none)
  else evaluator.contextPath .vars path

/-- `env`. -/
def env (path : TokenText) : PyM σ (PyValue ω) := evaluator.contextPath .env path

/-- `local_vars`. -/
def localVars (path : TokenText) : PyM σ (PyValue ω) := evaluator.contextPath .localVars path

/-- `trigger`; the path may be absent. -/
def trigger (path : Option TokenText) : PyM σ (PyValue ω) :=
  evaluator.contextPath .trigger (path.getD [])

/-- `template_action_inputs`. -/
def templateActionInputs (path : TokenText) : PyM σ (PyValue ω) :=
  evaluator.contextPath .templateActionInputs path

/-- `template_action_steps`. -/
def templateActionSteps (path : TokenText) : PyM σ (PyValue ω) :=
  evaluator.contextPath .templateActionSteps path

/-- `function`; a name that ends in `.map` asks for the `map` of the function. -/
def function (fnName : TokenText) (fnArgs : List (PyValue ω)) : PyM σ (PyValue ω) :=
  let isMapped := ".map".toList.isSuffixOf fnName
  let fnName := if isMapped then fnName.take (fnName.length - 4) else fnName
  match evaluator.runtime.functionMapping fnName with
  | none => throw (.tracecatExpression ("Unknown function '" ++ String.ofList fnName ++ "'") none)
  | some fn => fn isMapped fnArgs

/-- The method of a rule.  A method that gets other arguments than it takes raises. -/
def rule : Rule → List (PyValue ω) → PyM σ (PyValue ω)
  | .root, [node] => pure node
  | .trailingTypecastExpression, [value, .str typename] => evaluator.cast value typename
  | .iterator, [iterVarExpr, collection] => evaluator.iterator iterVarExpr collection
  | .expression, [value] => pure value
  | .ternary, [trueValue, condition, falseValue] => do
      if ← condition.truth evaluator.runtime then return trueValue else return falseValue
  | .notOp, [value] => (fun truth => .bool !truth) <$> value.truth evaluator.runtime
  | .negOp, [value] => evaluator.runtime.neg value
  | .posOp, [value] => evaluator.runtime.pos value
  | .primaryExpr, base :: indexers => evaluator.primaryExpr base indexers
  | .baseExpr, [value] => pure value
  | .typecast, [.str typename, value] => evaluator.cast value typename
  | .indexer, [index] => pure index
  | .context, [value] => pure value
  | .argList, args => pure (.tuple args)
  | .actions, [.str path] => evaluator.actions path
  | .secrets, [.str path] => evaluator.secrets path
  | .vars, [.str path] => evaluator.vars path
  | .env, [.str path] => evaluator.env path
  | .localVars, [.str path] => evaluator.localVars path
  | .trigger, [.str path] => evaluator.trigger (some path)
  | .trigger, [.none] => evaluator.trigger none
  | .function, [.str fnName, .tuple fnArgs] => evaluator.function fnName fnArgs
  | .function, [.str fnName, .none] => evaluator.function fnName []
  | .localVarsAssignment, [path] => pure path
  | .templateActionInputs, [.str path] => evaluator.templateActionInputs path
  | .templateActionSteps, [.str path] => evaluator.templateActionSteps path
  | .literal, [value] => pure value
  | .list, args => evaluator.list args
  | .dict, args => evaluator.dict args
  | .kvpair, args => pure (.tuple args)
  | data, args =>
      match data.operator?, args with
      | some symbol, [lhs, rhs] => evaluator.runtime.operators symbol.toList lhs rhs
      | _, _ => throw (.typeError "unexpected arguments")

/-- `NUMERIC_LITERAL`: `int` of a row of digits, `float` of other texts.  The runtime
reads the texts that are not rows of ASCII digits. -/
def numericLiteral (value : TokenText) : PyM σ (PyValue ω) :=
  if value.all Char.isDigit && !value.isEmpty then
    pure (.int (Nat.ofDigitChars 10 value 0))
  else evaluator.runtime.number value

def terminal : Terminal → TokenText → PyM σ (PyValue ω)
  | .attributePath, value => pure (.str value)
  | .fnNameWithTransform, value => pure (.str value)
  | .partialJsonpathExpr, value => pure (.str value)
  | .typeSpecifier, value => pure (.str value)
  -- `token.value[1:-1]`: the quotes go, backslashes stay.
  | .stringLiteral, value => pure (.str (value.drop 1).dropLast)
  | .boolLiteral, value => evaluator.cast (.str value) "bool".toList
  | .numericLiteral, value => evaluator.numericLiteral value
  | .noneLiteral, _ => pure .none

/-! ## Traversal -/

/-- What a traversal raises: the `VisitError` around what a method raised, or an
exception that it lets through. -/
inductive Raised
  | visitError (obj : ParseTree) (origExc : PyError)
  | exc (error : PyError)

/-- An entry of the log of a walk: the method of a node was run, or a conditional
selected a branch. -/
inductive Visit
  | called (address : Address)
  | chose (address : Address) (selected : Bool)
  deriving DecidableEq, Repr

def Visit.address : Visit → Address
  | .called address => address
  | .chose address _ => address

/-- What becomes of an exception that the method of a node raised. -/
def wrap (obj : ParseTree) : PyError → Raised
  | .grammarError message => .exc (.grammarError message)
  | error => .visitError obj error

/-- `_call_userfunc` and `_call_userfunc_token`. -/
def callUserfunc (address : Address) (obj : ParseTree) (method : PyM σ (PyValue ω)) :
    Logged σ Visit Raised (PyValue ω) :=
  Logged.call (.called address) fun world =>
    let outcome := method.run.run world
    (outcome.1.mapError (wrap obj), outcome.2)

/-- The truth of a condition, which no method reads: what it raises is not wrapped. -/
def truthOf (condition : PyValue ω) : Logged σ Visit Raised Bool :=
  Logged.silent fun world =>
    let outcome := (condition.truth evaluator.runtime).run.run world
    (outcome.1.mapError Raised.exc, outcome.2)

/-- `_transform_tree`, with the parts of the traversal that the children stand for: those
of a conditional are taken up as they are needed, others all from left to right. -/
def transformTree (address : Address) (data : Rule) (children : List ParseTree)
    (walks : List (Logged σ Visit Raised (PyValue ω))) : Logged σ Visit Raised (PyValue ω) :=
  if data = .ternary then
    match walks with
    | [trueNode, conditionNode, falseNode] => do
        let condition ← conditionNode
        let selected ← evaluator.truthOf condition
        Logged.tell (.chose address selected)
        if selected then trueNode else falseNode
    | _ => Logged.raise (.exc (.valueError "expected 3 values to unpack"))
  else do
    let values ← Logged.all walks
    callUserfunc address (.tree data children) (evaluator.rule data values)

mutual

/-- `_transform_child`. -/
def transformChild (address : Address) : ParseTree → Logged σ Visit Raised (PyValue ω)
  | .tree data children =>
      evaluator.transformTree address data children (transformChildren address 0 children)
  | .token type value =>
      callUserfunc address (.token type value) (evaluator.terminal type value)
  | .absent => pure .none

/-- The children of a node from a position on. -/
def transformChildren (address : Address) (position : Nat) :
    List ParseTree → List (Logged σ Visit Raised (PyValue ω))
  | [] => []
  | child :: children =>
      transformChild (address ++ [position]) child ::
        transformChildren address (position + 1) children

end

/-- What `evaluate` raises for what its traversal raised. -/
def report (tree : ParseTree) : Raised → PyError
  | .visitError obj origExc =>
      let text := evaluator.runtime.visitErrorText obj origExc
      .tracecatExpression
        ("[evaluator] Evaluation failed at node:\n```\n" ++ evaluator.runtime.pretty tree ++
          "\n```\nReason: " ++ text)
        (some text)
  | .exc error => error

/-- `evaluate`. -/
def evaluate (tree : ParseTree) (world : σ) : LoggedRun σ Visit PyError (PyValue ω) :=
  let run := evaluator.transformChild [] tree world
  { run with result := run.result.mapError (evaluator.report tree) }

end ExprEvaluator

end Tracecat
