import Mathlib.Data.Rat.Defs
import Tracecat.Expressions.LoopInput
import Tracecat.Storage.Object

/-!
# Preparation of a child workflow loop

`prepare_subflow_activity` for a task with `for_each` (`dsl/action.py`) and
`PreparedSubflowResult` (`dsl/common.py`): the arguments of every iteration are
evaluated one after another in patched copies of one context, and the trigger
inputs are stored at the end.

What the evaluated arguments refer to is read when it is stored, and not before.
-/

namespace Tracecat

/-- A value as the tree that its references unfold to. -/
abbrev ObjectTree (Atom : Type) : Type := List Access → Option (Shape Atom)

/-- JSON scalars; floats are finite. -/
inductive Scalar
  | null
  | bool (value : Bool)
  | int (value : Int)
  | float (value : Rat)
  | str (value : String)
  deriving DecidableEq

abbrev Tree : Type := ObjectTree Scalar

def Tree.scalar (value : Scalar) : Tree
  | [] => some (.atom value)
  | _ => none

def Tree.list (items : List Tree) : Tree
  | [] => some (.list items.length)
  | .index position :: path => items[position]?.bind fun item => item path
  | _ => none

def Tree.dict (entries : List (String × Tree)) : Tree
  | [] => some (.dict (entries.map Prod.fst))
  | .key name :: path => (entries.lookup name).bind fun value => value path
  | _ => none

/-- The value of a template: new structure around objects of the context, which
are not copied. -/
inductive Evaluated
  | object (path : List Access)
  | scalar (value : Scalar)
  | list (items : List Evaluated)
  | dict (entries : List (String × Evaluated))

mutual

def Evaluated.tree (object : List Access → Tree) : Evaluated → Tree
  | .object path => object path
  | .scalar value => Tree.scalar value
  | .list items => Tree.list (Evaluated.itemTrees object items)
  | .dict entries => Tree.dict (Evaluated.entryTrees object entries)

def Evaluated.itemTrees (object : List Access → Tree) : List Evaluated → List Tree
  | [] => []
  | item :: items => item.tree object :: itemTrees object items

def Evaluated.entryTrees (object : List Access → Tree) :
    List (String × Evaluated) → List (String × Tree)
  | [] => []
  | (key, value) :: entries => (key, value.tree object) :: entryTrees object entries

end

structure DSLConfig where
  environment : String := "default"
  timeout : Rat := 0
  deriving DecidableEq, Repr

/-- What the loop uses of `ExecuteSubflowArgs`. -/
structure ExecuteSubflowArgs where
  triggerInputs : Evaluated := .scalar .null
  environment : Option String := none
  timeout : Option Rat := none

/-- `first or second`, for texts. -/
def orText (first : Option String) (second : String) : String :=
  match first with
  | some text => if text = "" then second else text
  | none => second

/-- `first or second`, for numbers. -/
def orNumber (first : Option Rat) (second : Rat) : Rat :=
  match first with
  | some number => if number = 0 then second else number
  | none => second

def ExecuteSubflowArgs.config (args : ExecuteSubflowArgs) (dslConfig : DSLConfig) : DSLConfig where
  environment := orText args.environment dslConfig.environment
  timeout := orNumber args.timeout dslConfig.timeout

/-- `_evaluate_subflow_args`: the arguments as a function of the identities and
the values in the context, or the text of the error. -/
abbrev EvaluateArgs : Type :=
  (List Access → Option (HeapRef LoopArena)) → Tree → Except String ExecuteSubflowArgs

inductive PrepareError
  | userError (message : String)
  | patchError (error : PatchError)
  deriving DecidableEq, Repr

def maxLoopIterations : Nat := 4096

/-- `T | list[T]`. -/
inductive RuntimeConfigs
  | shared (config : DSLConfig)
  | each (configs : List DSLConfig)

/-- `first_config if all_configs_same and first_config else configs_list`. -/
def runtimeConfigs : List DSLConfig → RuntimeConfigs
  | [] => .each []
  | first :: rest =>
      if rest.all fun config => config = first then .shared first else .each (first :: rest)

/-- The trigger inputs of an iteration and its configuration.  `object` is what
each path of the patched context referred to. -/
structure SubflowIteration where
  object : List Access → Option (HeapRef LoopArena)
  triggerInputs : Evaluated
  config : DSLConfig

def SubflowIteration.read (heap : ObjectHeap LoopArena Scalar) (iteration : SubflowIteration) :
    Tree :=
  iteration.triggerInputs.tree fun path rest =>
    (iteration.object path).bind fun ref => heap.view ref rest

section

variable (evaluate : EvaluateArgs) (dslConfig : DSLConfig)

/-- The body of the loop over the zipped iterables. -/
def evaluateIteration (heap : ObjectHeap LoopArena Scalar) (base : HeapRef LoopArena)
    (index : Nat) (row : LoopRow LoopArena) :
    Except PrepareError (SubflowIteration × ObjectHeap LoopArena Scalar) :=
  match patchedContext heap (some index) base row with
  | .error error => .error (.patchError error)
  | .ok (context, heap) =>
      match evaluate (heap.follow context) (heap.view context) with
      | .error message => .error (.userError message)
      | .ok args =>
          .ok (⟨heap.follow context, args.triggerInputs, args.config dslConfig⟩, heap)

/-- The loop over the zipped iterables, from `index` on. -/
def evaluateIterations (base : HeapRef LoopArena) :
    Nat → List (LoopRow LoopArena) → ObjectHeap LoopArena Scalar →
      Except PrepareError (List SubflowIteration × ObjectHeap LoopArena Scalar)
  | _, [], heap => .ok ([], heap)
  | index, row :: rows, heap => do
      let (iteration, heap) ← evaluateIteration evaluate dslConfig heap base index row
      let (iterations, heap) ← evaluateIterations base (index + 1) rows heap
      .ok (iteration :: iterations, heap)

/-- `_evaluate_loop_iterations`, with the trigger inputs as they are stored
afterwards. -/
def evaluateLoopIterations (input : LoopInput Scalar) :
    Except PrepareError (List Tree × RuntimeConfigs) :=
  if maxLoopIterations < input.rows.length then
    .error (.userError s!"Loop exceeds max iterations: {input.rows.length} > {maxLoopIterations}")
  else do
    let (iterations, heap) ←
      evaluateIterations evaluate dslConfig input.base 0 input.rows input.heap
    .ok (iterations.map (SubflowIteration.read heap), runtimeConfigs (iterations.map (·.config)))

end

/-- `PreparedSubflowResult`.  A single child workflow has neither trigger inputs
nor, where it was not resolved, a configuration. -/
structure PreparedSubflowResult (Digest : Type) where
  dslConfig : DSLConfig
  triggerInputs : Option (StoredHandle Tree Digest)
  runtimeConfigs : Option RuntimeConfigs

inductive PreparedError
  | indexError
  | typeError
  deriving DecidableEq, Repr

namespace PreparedSubflowResult

variable {Digest : Type} (prepared : PreparedSubflowResult Digest)

def count : Except PreparedError Nat :=
  match prepared.triggerInputs with
  | none => .ok 1
  | some (.collection collection) => .ok collection.count
  | some (.inlineList items) => .ok items.length
  | some (.item _) => .error .typeError

def getTriggerInputAt (index : Nat) :
    Except PreparedError (Option (StoredHandle Tree Digest)) :=
  match prepared.triggerInputs with
  | none => .ok none
  | some (.collection collection) => .ok (some (.collection (collection.at index)))
  | some (.inlineList items) =>
      match items[index]? with
      | some item => .ok (some (.item (.inline item)))
      | none => .error .indexError
  | some (.item _) => .error .typeError

def getConfig (index : Nat) : Except PreparedError DSLConfig :=
  match prepared.runtimeConfigs with
  | none => .ok prepared.dslConfig
  | some (.shared config) => .ok config
  | some (.each configs) =>
      match configs[index]? with
      | some config => .ok config
      | none => .error .indexError

end PreparedSubflowResult

/-- `_prepare_subflow` for a loop, with its uploads. -/
def prepareSubflow {Bytes Digest : Type} (codec : BlobCodec Tree Bytes Digest)
    (config : StorageConfig) (key : String) (evaluate : EvaluateArgs) (dslConfig : DSLConfig)
    (input : LoopInput Scalar) :
    Except PrepareError (PreparedSubflowResult Digest × List (Upload Bytes)) := do
  let (triggerInputs, configs) ← evaluateLoopIterations evaluate dslConfig input
  let stored := codec.storeList config (key ++ "/trigger_inputs") triggerInputs
  .ok (⟨dslConfig, some stored.1, some configs⟩, stored.2)

end Tracecat
