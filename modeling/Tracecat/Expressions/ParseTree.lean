import Tracecat.Lib.Logged

/-!
# Parse trees

The trees that the parser builds for the expression grammar
(`expressions/parser/grammar.py`): nodes under the names of the rules and of
their aliases, the tokens that are kept, and the placeholder of an optional part
that is absent.
-/

namespace Tracecat

/-- A rule of the grammar that nodes are named after, or an alias. -/
inductive Rule
  | root
  | trailingTypecastExpression
  | iterator
  | expression
  | ternary
  | orOp
  | andOp
  | notOp
  | eqOp
  | neOp
  | gtOp
  | geOp
  | ltOp
  | leOp
  | inOp
  | notInOp
  | isOp
  | isNotOp
  | addOp
  | subOp
  | mulOp
  | divOp
  | modOp
  | negOp
  | posOp
  | primaryExpr
  | baseExpr
  | typecast
  | indexer
  | context
  | argList
  | actions
  | secrets
  | vars
  | env
  | localVars
  | trigger
  | function
  | localVarsAssignment
  | templateActionInputs
  | templateActionSteps
  | literal
  | list
  | dict
  | kvpair
  deriving DecidableEq, Repr

/-- A terminal whose tokens the tree keeps. -/
inductive Terminal
  | attributePath
  | fnNameWithTransform
  | partialJsonpathExpr
  | typeSpecifier
  | stringLiteral
  | boolLiteral
  | numericLiteral
  | noneLiteral
  deriving DecidableEq, Repr

abbrev TokenText : Type := List Char

/-- A tree; `absent` is the `None` that stands for an optional part without text. -/
inductive ParseTree
  | tree (data : Rule) (children : List ParseTree)
  | token (type : Terminal) (value : TokenText)
  | absent

/-- The place of a node: the positions to take from the root. -/
abbrev Address : Type := List Nat

namespace ParseTree

def at? : ParseTree → Address → Option ParseTree
  | node, [] => some node
  | .tree _ children, position :: address =>
      match children[position]? with
      | some child => child.at? address
      | none => none
  | _, _ :: _ => none

mutual

/-- Every conditional has its three parts: the value, the condition and the
alternative. -/
def Conditionals : ParseTree → Prop
  | .tree data children =>
      (data = .ternary → children.length = 3) ∧ ChildConditionals children
  | .token _ _ => True
  | .absent => True

def ChildConditionals : List ParseTree → Prop
  | [] => True
  | child :: children => child.Conditionals ∧ ChildConditionals children

end

end ParseTree

/-- A tree of the grammar, whose conditionals have the three parts that the rule
`or_expr "if" or_expr "else" ternary_expr` keeps. -/
structure ExprTree where
  tree : ParseTree
  conditionals : tree.Conditionals

end Tracecat
