import Mathlib.Data.List.Basic
import Tracecat.Expressions.ParseTree

/-!
# Python values in expressions

The values that an expression evaluates to, the exceptions that its evaluation
raises, and the operations of the language that the evaluator applies to values.
What objects of other classes do, and the functions and operators of
`expressions/functions.py`, belong to a runtime.
-/

namespace Tracecat

inductive PyError
  | tracecatExpression (message : String) (detail : Option String)
  | valueError (message : String)
  | typeError (message : String)
  | keyError (key : String)
  | indexError (message : String)
  | grammarError (message : String)
  | other (name message : String)
  deriving DecidableEq, Repr

/-- `str(e)`. -/
def PyError.message : PyError → String
  | .tracecatExpression message _ => message
  | .valueError message => message
  | .typeError message => message
  | .keyError key => key
  | .indexError message => message
  | .grammarError message => message
  | .other _ message => message

abbrev PyM (σ α : Type) : Type := ExceptT PyError (StateM σ) α

/-- A value; `object` is an instance of a class that is not named here, such as a
float or a date. -/
inductive PyValue (ω : Type)
  | none
  | bool (value : Bool)
  | int (value : Int)
  | str (value : TokenText)
  | list (items : List (PyValue ω))
  | tuple (items : List (PyValue ω))
  | dict (entries : List (PyValue ω × PyValue ω))
  | object (it : ω)

/-- A piece of the key under which a dict finds a value. -/
inductive KeyPiece (κ : Type)
  | none
  | int (value : Int)
  | str (value : TokenText)
  | tuple (length : Nat)
  | object (key : κ)
  deriving DecidableEq

/-- What a dict compares: keys are the same if and only if the values are equal in
Python, where `True == 1`. -/
abbrev DictKey (κ : Type) : Type := List (KeyPiece κ)

/-- What the evaluator relies on besides the built-in types. -/
structure Runtime (ω σ κ : Type) where
  className : ω → String
  repr : PyValue ω → String
  /-- `None` when the object cannot be hashed. -/
  hashKey : ω → Option (DictKey κ)
  isMapping : ω → Bool
  isSequence : ω → Bool
  isInt : ω → Bool
  isIterable : ω → Bool
  truth : ω → PyM σ Bool
  items : ω → PyM σ (List (PyValue ω))
  getitem : PyValue ω → PyValue ω → PyM σ (PyValue ω)
  neg : PyValue ω → PyM σ (PyValue ω)
  pos : PyValue ω → PyM σ (PyValue ω)
  /-- `IterableExpr(iterator, collection)`. -/
  iterableExpr : PyValue ω → PyValue ω → ω
  /-- `int` or `float` of a text that is not a plain row of ASCII digits. -/
  number : TokenText → PyM σ (PyValue ω)
  /-- The entries of `OPERATORS`. -/
  operators : TokenText → PyValue ω → PyValue ω → PyM σ (PyValue ω)
  /-- The entries of `FUNCTION_MAPPING`; the flag asks for the `map` of the function. -/
  functionMapping : TokenText → Option (Bool → List (PyValue ω) → PyM σ (PyValue ω))
  /-- The entries of `BUILTIN_TYPE_MAPPING` other than `bool`. -/
  builtinTypeMapping : TokenText → Option (PyValue ω → PyM σ (PyValue ω))
  /-- `eval_jsonpath(expr, operand, strict=strict)`. -/
  evalJsonpath : TokenText → PyValue ω → Bool → PyM σ (PyValue ω)
  /-- `tree.pretty()`. -/
  pretty : ParseTree → String
  /-- `str` of the `VisitError` for a node and what its method raised. -/
  visitErrorText : ParseTree → PyError → String

namespace PyValue

variable {ω σ κ : Type} (rt : Runtime ω σ κ)

/-- `type(value).__name__`. -/
def className : PyValue ω → String
  | .none => "NoneType"
  | .bool _ => "bool"
  | .int _ => "int"
  | .str _ => "str"
  | .list _ => "list"
  | .tuple _ => "tuple"
  | .dict _ => "dict"
  | .object it => rt.className it

/-- `bool(value)`. -/
def truth : PyValue ω → PyM σ Bool
  | .none => pure false
  | .bool value => pure value
  | .int value => pure (value != 0)
  | .str value => pure !value.isEmpty
  | .list items => pure !items.isEmpty
  | .tuple items => pure !items.isEmpty
  | .dict entries => pure !entries.isEmpty
  | .object it => rt.truth it

mutual

/-- The key of a value in a dict; lists and dicts have none. -/
def hashKey : PyValue ω → Option (DictKey κ)
  | .none => some [.none]
  | .bool value => some [.int value.toNat]
  | .int value => some [.int value]
  | .str value => some [.str value]
  | .list _ => Option.none
  | .tuple items => (itemKeys items).map (.tuple items.length :: ·)
  | .dict _ => Option.none
  | .object it => rt.hashKey it

def itemKeys : List (PyValue ω) → Option (DictKey κ)
  | [] => some []
  | item :: items => do
      let key ← hashKey item
      let keys ← itemKeys items
      return key ++ keys

end

/-- `isinstance(value, Mapping)`. -/
def isMapping : PyValue ω → Bool
  | .dict _ => true
  | .object it => rt.isMapping it
  | _ => false

/-- `isinstance(value, Sequence)`. -/
def isSequence : PyValue ω → Bool
  | .str _ => true
  | .list _ => true
  | .tuple _ => true
  | .object it => rt.isSequence it
  | _ => false

/-- `isinstance(value, int)`. -/
def isInt : PyValue ω → Bool
  | .bool _ => true
  | .int _ => true
  | .object it => rt.isInt it
  | _ => false

/-- `hasattr(value, "__iter__")`. -/
def isIterable : PyValue ω → Bool
  | .none => false
  | .bool _ => false
  | .int _ => false
  | .object it => rt.isIterable it
  | _ => true

/-- The items of `iter(value)`. -/
def items : PyValue ω → PyM σ (List (PyValue ω))
  | .str value => pure (value.map fun char => .str [char])
  | .list items => pure items
  | .tuple items => pure items
  | .dict entries => pure (entries.map Prod.fst)
  | .object it => rt.items it
  | value => throw (.typeError ("'" ++ value.className rt ++ "' object is not iterable"))

section Entries

variable [DecidableEq κ]

def find? (entries : List (PyValue ω × PyValue ω)) (key : DictKey κ) : Option (PyValue ω) :=
  (entries.find? fun entry => entry.1.hashKey rt == some key).map Prod.snd

/-- `entries[key] = value` under the key of the value: a key that is there keeps its
place and its object. -/
def setEntry (key value : PyValue ω) :
    List (PyValue ω × PyValue ω) → List (PyValue ω × PyValue ω)
  | [] => [(key, value)]
  | entry :: entries =>
      if entry.1.hashKey rt = key.hashKey rt then (entry.1, value) :: entries
      else entry :: setEntry key value entries

/-- `entries[key] = value`. -/
def setitem (entries : List (PyValue ω × PyValue ω)) (key value : PyValue ω) :
    PyM σ (List (PyValue ω × PyValue ω)) :=
  match key.hashKey rt with
  | some _ => pure (setEntry rt key value entries)
  | Option.none => throw (.typeError ("unhashable type: '" ++ key.className rt ++ "'"))

/-- The item at a position, counted from the end when it is negative. -/
def itemAt? {α : Type} (items : List α) (position : Int) : Option α :=
  if 0 ≤ position then items[position.toNat]?
  else if 0 ≤ position + items.length then items[(position + items.length).toNat]?
  else Option.none

/-- `items[index]` for a position. -/
def itemAt {α : Type} (kind : String) (items : List α) (position : Int) : PyM σ α :=
  match itemAt? items position with
  | some item => pure item
  | Option.none => throw (.indexError (kind ++ " index out of range"))

/-- `value[index]`. -/
def getitem : PyValue ω → PyValue ω → PyM σ (PyValue ω)
  | .dict entries, index =>
      match index.hashKey rt with
      | Option.none => throw (.typeError ("unhashable type: '" ++ index.className rt ++ "'"))
      | some key =>
          match find? rt entries key with
          | some value => pure value
          | Option.none => throw (.keyError (rt.repr index))
  | .list items, .int position => itemAt "list" items position
  | .list items, .bool position => itemAt "list" items position.toNat
  | .tuple items, .int position => itemAt "tuple" items position
  | .tuple items, .bool position => itemAt "tuple" items position.toNat
  | .str value, .int position => (fun char => .str [char]) <$> itemAt "string" value position
  | .str value, .bool position =>
      (fun char => .str [char]) <$> itemAt "string" value position.toNat
  | value, index => rt.getitem value index

end Entries

end PyValue

end Tracecat
