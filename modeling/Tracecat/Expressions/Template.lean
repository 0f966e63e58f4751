import Tracecat.Expressions.Evaluator
import Tracecat.Lib.Stateful
import Tracecat.Workflow.Folders

/-!
# Templates in strings

`patterns.py`, `TemplateExpression` (`core.py`), `eval_templated_object`
(`eval.py`) and `traverse_expressions` (`parse.py`): expressions between `${{` and
`}}` in the strings of nested objects.

The pattern is matched as `re` matches it: greedy and lazy repetitions give back
what they have taken, or take more, until the rest matches.
-/

namespace Tracecat
namespace Templating

open Folders (isSpace strip)

/-! ## The pattern -/

/-- `${{`. -/
def opening : TokenText := ['$', '{', '{']

/-- `}}`. -/
def closing : TokenText := ['}', '}']

/-- `\s*}}`: the text after it. -/
def afterClosing (text : TokenText) : Option TokenText :=
  match text.dropWhile isSpace with
  | '}' :: '}' :: rest => some rest
  | _ => none

/-- `(?P<expr>.+?)\s*}}`: the expression and the text after the match. -/
def lazyExpr : TokenText → Option (TokenText × TokenText)
  | [] => none
  | char :: text =>
      match afterClosing text with
      | some rest => some ([char], rest)
      | none => (lazyExpr text).map fun (expr, rest) => (char :: expr, rest)

/-- `\s*(?P<expr>.+?)\s*}}`: white space is given back when the rest does not match. -/
def spacedExpr : TokenText → Option (TokenText × TokenText)
  | [] => none
  | char :: text =>
      if isSpace char then (spacedExpr text).or (lazyExpr (char :: text))
      else lazyExpr (char :: text)

/-- A match of `TEMPLATE_STRING`: its groups. -/
structure TemplateMatch where
  template : TokenText
  expr : TokenText
  deriving DecidableEq, Repr

/-- `TEMPLATE_STRING.match(text)`. -/
def matchTemplate (text : TokenText) : Option TemplateMatch :=
  match text with
  | '$' :: '{' :: '{' :: body =>
      (spacedExpr body).map fun (expr, rest) =>
        { template := text.take (text.length - rest.length), expr := expr }
  | _ => none

/-- A character that is in no match, or a match. -/
inductive Segment
  | char (char : Char)
  | template (found : TemplateMatch)
  deriving DecidableEq, Repr

def Segment.found? : Segment → Option TemplateMatch
  | .template found => some found
  | .char _ => none

/-- A text from left to right: characters and matches; the first characters, which belong to a
match, are skipped. -/
def segments : Nat → TokenText → List Segment
  | _, [] => []
  | skip + 1, _ :: text => segments skip text
  | 0, char :: text =>
      match matchTemplate (char :: text) with
      | some found => .template found :: segments (found.template.length - 1) text
      | none => .char char :: segments 0 text

/-- `TEMPLATE_STRING.finditer(text)`. -/
def finditer (text : TokenText) : List TemplateMatch :=
  (segments 0 text).filterMap Segment.found?

/-! ## Expressions -/

variable {ω σ κ : Type} [DecidableEq κ]

/-- What expressions are evaluated with: the parser, the evaluator with the operand, and `str`. -/
structure Evaluation (ω σ κ : Type) where
  /-- `ExprParser.parse`; the error is the message of a `TracecatExpressionError`. -/
  parse : TokenText → Except String ParseTree
  evaluator : ExprEvaluator ω σ κ
  /-- `str` of a value that is no text. -/
  strOther : PyValue ω → PyM σ TokenText

namespace Evaluation

variable (evaluation : Evaluation ω σ κ)

/-- `ExprEvaluator.evaluate`. -/
def evaluate (tree : ParseTree) : PyM σ (PyValue ω) :=
  ExceptT.mk fun world =>
    let run := evaluation.evaluator.evaluate tree world
    (run.result, run.world)

/-- `Expression(expr, operand=operand).result()`. -/
def result (expr : TokenText) : PyM σ (PyValue ω) :=
  match evaluation.parse expr with
  | .error message =>
      throw (.tracecatExpression
        ("Error parsing expression `" ++ String.ofList expr ++ "`\n\n" ++ message) (some message))
  | .ok tree =>
      tryCatch (evaluation.evaluate tree) fun
        | .tracecatExpression message _ =>
            throw (.tracecatExpression
              ("Error evaluating expression `" ++ String.ofList expr ++ "`\n\n" ++ message)
              (some message))
        | error => throw error

/-- `str(value)`. -/
def str : PyValue ω → PyM σ TokenText
  | .str text => pure text
  | value => evaluation.strOther value

/-- `TemplateExpression(template, operand=operand).result()`. -/
def templateExpression (template : TokenText) : PyM σ (PyValue ω) :=
  match matchTemplate template with
  | none =>
      throw (.tracecatExpression
        ("Template expression " ++ evaluation.evaluator.runtime.repr (.str template) ++
          " does not match expected pattern. ") none)
  | some found => evaluation.result found.expr

/-- `_eval_expression_op`. -/
def evalExpressionOp (found : TemplateMatch) : PyM σ TokenText := do
  let result ← evaluation.templateExpression found.template
  tryCatch (evaluation.str result) fun _ =>
    throw (.valueError
      ("Error evaluating str expression: " ++
        evaluation.evaluator.runtime.repr (.str found.template)))

/-- `pattern.sub(evaluator, line)`, for the characters and the matches of the line. -/
def substitute : List Segment → PyM σ TokenText
  | [] => pure []
  | .char char :: rest => (char :: ·) <$> substitute rest
  | .template found :: rest => do
      let text ← evaluation.evalExpressionOp found
      let texts ← substitute rest
      return text ++ texts

/-! ## Objects -/

/-- `is_template_only`. -/
def isTemplateOnly (template : TokenText) : Bool :=
  opening.isPrefixOf template && closing.isSuffixOf template

/-- `operator` of `eval_templated_object`. -/
def operator (line : TokenText) : PyM σ (PyValue ω) :=
  if isTemplateOnly line && (finditer line).length = 1 then evaluation.templateExpression line
  else .str <$> evaluation.substitute (segments 0 line)

/-- The key of an entry that `_eval_templated_obj_rec` rewrites. -/
def evalKey : PyValue ω → PyM σ (PyValue ω)
  | .str text => evaluation.operator text
  | key => pure key

mutual

/-- `_eval_templated_obj_rec`, and so `eval_templated_object`. -/
def evalTemplatedObject : PyValue ω → PyM σ (PyValue ω)
  | .str text => evaluation.operator text
  | .list items => .list <$> evalItems items
  | .dict entries => .dict <$> evalEntries [] entries
  | value => pure value

def evalItems : List (PyValue ω) → PyM σ (List (PyValue ω))
  | [] => pure []
  | item :: items => do
      let value ← evalTemplatedObject item
      let values ← evalItems items
      return value :: values

/-- The comprehension: a key, its value, and then the entry. -/
def evalEntries (built : List (PyValue ω × PyValue ω)) :
    List (PyValue ω × PyValue ω) → PyM σ (List (PyValue ω × PyValue ω))
  | [] => pure built
  | (key, value) :: entries => do
      let newKey ← evaluation.evalKey key
      let newValue ← evalTemplatedObject value
      let built ← PyValue.setitem evaluation.evaluator.runtime built newKey newValue
      evalEntries built entries

end

end Evaluation

/-! ## Traversal -/

mutual

/-- `traverse_nodes`. -/
def traverseNodes : PyValue ω → List (PyValue ω)
  | .dict entries => traverseEntries entries
  | .list items => traverseItems items
  | value => [value]

def traverseItems : List (PyValue ω) → List (PyValue ω)
  | [] => []
  | item :: items => traverseNodes item ++ traverseItems items

def traverseEntries : List (PyValue ω × PyValue ω) → List (PyValue ω)
  | [] => []
  | (key, value) :: entries => key :: traverseNodes value ++ traverseEntries entries

end

/-- `traverse_expressions`; no expression of a match is empty. -/
def traverseExpressions (value : PyValue ω) : List TokenText :=
  (traverseNodes value).flatMap fun
    | .str text => (finditer text).map TemplateMatch.expr
    | _ => []

end Templating
end Tracecat
