import Mathlib.Data.Rat.Defs
import Tracecat.Lib.Dict
import Tracecat.Dsl.Schemas

/-!
# Values and errors of a running workflow

Results as the workflow holds them (`TaskResult`, `StoredObject` of
`storage/object.py`), the accumulator list of a gather, execution contexts,
and the exceptions that reach `DSLScheduler._handle_error_path`.
-/

namespace Tracecat

/-- A JSON value; `float` is a number that Python reads as a float. -/
inductive Json
  | null
  | bool (value : Bool)
  | int (value : Int)
  | float (value : ℚ)
  | str (value : String)
  | arr (items : List Json)
  | obj (entries : List (String × Json))

/-- The entry of an object; other values have none. -/
def Json.get? : Json → String → Option Json
  | obj entries, key => entries.lookup key
  | _, _ => none

/-- `StoredObject`: data kept inline, or a handle to external storage.  The
scheduler reads no more of a handle than the size of a collection. -/
inductive StoredObject (α : Type)
  | inline (data : α)
  | external (key : String)
  | collection (key : String) (count : Nat)

/-- `Sentinel.GATHER_UNSET`. -/
def gatherUnset : String := "__SENTINEL_GATHER_UNSET__"

/-- An element of the list behind a gather result: the sentinel, the stored
object of a stream, or a raw value left by an earlier finalization. -/
inductive GatherSlot
  | unset
  | stored (object : StoredObject Json)
  | raw (value : Json)

/-- The data of an inline result: a JSON value, or the accumulator list of a
gather in progress. -/
inductive Datum
  | json (value : Json)
  | slots (items : List GatherSlot)

def Datum.slots? : Datum → Option (List GatherSlot)
  | .json (.arr items) => some (items.map .raw)
  | .json _ => none
  | .slots items => some items

namespace StreamID

def indexText : StreamIndex → String
  | .item index => toString index
  | .skip => "skip"

def text : StreamID → String
  | root => "<root>:0"
  | child base scope index => base.text ++ "/" ++ scope ++ ":" ++ indexText index

end StreamID

/-- `ActionErrorInfo`. -/
inductive ActionErrorInfo
  | mk (ref message type : String) (attempt : Nat) (stream : StreamID)
      (children : List ActionErrorInfo)

namespace ActionErrorInfo

/-- An error without children, reported on the first attempt. -/
def ofMessage (ref message type : String) (stream : StreamID) : ActionErrorInfo :=
  mk ref message type 1 stream []

mutual

/-- `ActionErrorInfoAdapter.dump_python`. -/
def dump : ActionErrorInfo → Json
  | mk ref message type attempt stream children =>
      .obj [("ref", .str ref), ("message", .str message), ("type", .str type),
        ("expr_context", .str "ACTIONS"), ("attempt", .int attempt),
        ("stream_id", .str stream.text), ("children", .arr (dumpAll children))]

/-- `dump_python` of each child. -/
def dumpAll : List ActionErrorInfo → List Json
  | [] => []
  | error :: rest => error.dump :: dumpAll rest

end

end ActionErrorInfo

/-- `exc.details[0]` of an `ApplicationError`, by the branch of
`_handle_error_path` it takes.  `json` is the rendering of the details, `none`
where rendering fails. -/
inductive ErrorDetail
  | notDict (json : Option String)
  | regular (parsed : Except String ActionErrorInfo) (json : Option String)
  | childWorkflow (first : Option ActionErrorInfo) (json : Option String)

/-- An exception: an `ApplicationError` with its first detail, or any other
exception by class name and text. -/
inductive Exn
  | application (message : String) (detail : Option ErrorDetail)
  | other (className message : String)

namespace Exn

/-- `exc.__class__.__name__`. -/
def className : Exn → String
  | application _ _ => "ApplicationError"
  | other className _ => className

/-- `str(exc)`. -/
def message : Exn → String
  | application message _ => message
  | other _ message => message

/-- `raise KeyError(key)`. -/
def keyError (key : String) : Exn := other "KeyError" key

/-- A pydantic `ValidationError`. -/
def validationError (model : String) : Exn := other "ValidationError" model

end Exn

/-- `TaskExceptionInfo`. -/
structure TaskExceptionInfo where
  exception : Exn
  details : ActionErrorInfo

/-- `TaskResult`, without type names and interaction metadata. -/
structure TaskResult where
  result : StoredObject Datum
  error : Option Json := none
  collectionIndex : Option Nat := none

namespace TaskResult

/-- `TaskResult.from_result`. -/
def fromResult (data : Datum) : TaskResult := { result := .inline data }

/-- `TaskResult.from_collection_item`. -/
def fromCollectionItem (stored : StoredObject Json) (index : Nat) : TaskResult where
  result := match stored with
    | .inline data => .inline (.json data)
    | .external key => .external key
    | .collection key count => .collection key count
  collectionIndex := some index

/-- `TaskResult.with_error`. -/
def withError (taskResult : TaskResult) (error : Json) : TaskResult :=
  { taskResult with error := some error }

/-- `TaskResult.get_data`. -/
def getData (taskResult : TaskResult) : Except Exn Datum :=
  match taskResult.result with
  | .inline data =>
      match taskResult.collectionIndex, data.slots? with
      | some index, some items =>
          match items[index]? with
          | some (.raw value) => .ok (.json value)
          | some slot => .ok (.slots [slot])
          | none => .error (.other "IndexError" "list index out of range")
      | _, _ => .ok data
  | _ => .error (.other "ValueError"
      "Cannot get data from ExternalObject. Use materialize_operand() first.")

/-- `task_result.get_data()[index] = slot`: the list is changed in place. -/
def storeAt (taskResult : TaskResult) (index : Nat) (slot : GatherSlot) :
    Except Exn TaskResult := do
  let data ← taskResult.getData
  match data.slots? with
  | none => throw (.other "TypeError" "object does not support item assignment")
  | some items =>
      if index < items.length then
        return { taskResult with result := .inline (.slots (items.set index slot)) }
      else throw (.other "IndexError" "list assignment index out of range")

end TaskResult

/-- `DSLEnvironment`, by the field that expressions of every run can read. -/
structure DSLEnvironment where
  environment : String

/-- `ExecutionContext`; the context of a new stream has no `TRIGGER` and no
`ENV`. -/
structure ExecutionContext where
  actions : Dict Ref TaskResult := ∅
  trigger : Option (StoredObject Json) := none
  env : Option DSLEnvironment := none

/-- `ExprContext`. -/
inductive ExprContext
  | actions
  | secrets
  | vars
  | env
  | localVars
  | trigger
  | templateActionInputs
  | templateActionSteps
  deriving DecidableEq, Repr

/-- `ExprContext.value`. -/
def ExprContext.value : ExprContext → String
  | actions => "ACTIONS"
  | secrets => "SECRETS"
  | vars => "VARS"
  | env => "ENV"
  | localVars => "var"
  | trigger => "TRIGGER"
  | templateActionInputs => "inputs"
  | templateActionSteps => "steps"

end Tracecat
