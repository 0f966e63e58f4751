import Tracecat.Dsl.GatherFinalize

/-!
# Error records as JSON

`ActionErrorInfoAdapter` (`dsl/types.py`) over JSON values: `ref`, `message` and
`type` are required, every other field has a default, unknown keys are ignored,
and `stream_id` may be anything.  `laxInt` is how pydantic reads an integer in a text.
-/

namespace Tracecat
namespace Gather

/-- The contexts of `ActionErrorInfo.expr_context`. -/
inductive ErrorContext
  | fn
  | of (context : ExprContext)
  deriving DecidableEq, Repr

namespace ErrorContext

def value : ErrorContext → String
  | fn => "FN"
  | of context => context.value

/-- The members of `ExprContext`. -/
def members : List ErrorContext :=
  [of .actions, of .secrets, of .vars, fn, of .env, of .trigger, of .localVars,
    of .templateActionInputs, of .templateActionSteps]

def parse (text : String) : Option ErrorContext :=
  members.find? fun context => context.value = text

theorem parse_value (context : ErrorContext) : parse context.value = some context := by
  cases context with
  | fn => rfl
  | of context => cases context <;> decide

end ErrorContext

/-- `ActionErrorInfo`. -/
inductive ErrorRecord
  | mk (ref message type : String) (exprContext : ErrorContext) (attempt : Int) (streamId : Json)
      (children : Option (List ErrorRecord))

namespace ErrorRecord

mutual

/-- `ActionErrorInfoAdapter.dump_python`, as JSON. -/
def dump : ErrorRecord → Json
  | mk ref message type exprContext attempt streamId children =>
      .obj [("ref", .str ref), ("message", .str message), ("type", .str type),
        ("expr_context", .str exprContext.value), ("attempt", .int attempt),
        ("stream_id", streamId), ("children", dumpChildren children)]

def dumpChildren : Option (List ErrorRecord) → Json
  | none => .null
  | some children => .arr (dumpAll children)

def dumpAll : List ErrorRecord → List Json
  | [] => []
  | record :: rest => record.dump :: dumpAll rest

end

def readText : Json → Option String
  | .str text => some text
  | _ => none

def readContext : Json → Option ErrorContext
  | .str text => ErrorContext.parse text
  | _ => none

variable (laxInt : String → Option Int)

/-- A lax integer: a truth value and a float without a fraction count. -/
def readInt : Json → Option Int
  | .int value => some value
  | .bool value => some value.toInt
  | .float value => if value.den = 1 then some value.num else none
  | .str text => laxInt text
  | _ => none

/-- A field of an object, with what it is as a list of children. -/
structure Field where
  value : Json
  children : Option (Option (List ErrorRecord))

def ofFields (fields : List (String × Field)) : Option ErrorRecord := do
  let ref ← (fields.lookup "ref").bind fun field => readText field.value
  let message ← (fields.lookup "message").bind fun field => readText field.value
  let type ← (fields.lookup "type").bind fun field => readText field.value
  let exprContext ←
    match fields.lookup "expr_context" with
    | some field => readContext field.value
    | none => some (.of .actions)
  let attempt ←
    match fields.lookup "attempt" with
    | some field => readInt laxInt field.value
    | none => some 1
  let streamId :=
    match fields.lookup "stream_id" with
    | some field => field.value
    | none => .str "<root>:0"
  let children ←
    match fields.lookup "children" with
    | some field => field.children
    | none => some none
  return mk ref message type exprContext attempt streamId children

mutual

/-- `ActionErrorInfoAdapter.validate_python` on JSON. -/
def validate : Json → Option ErrorRecord
  | .obj entries => ofFields laxInt (validateFields entries)
  | .null | .bool _ | .int _ | .float _ | .str _ | .arr _ => none

def validateFields : List (String × Json) → List (String × Field)
  | [] => []
  | (key, value) :: rest => (key, ⟨value, validateChildren value⟩) :: validateFields rest

/-- `list[ActionErrorInfo] | None`. -/
def validateChildren : Json → Option (Option (List ErrorRecord))
  | .null => some none
  | .arr items => (validateAll items).map some
  | .bool _ | .int _ | .float _ | .str _ | .obj _ => none

def validateAll : List Json → Option (List ErrorRecord)
  | [] => some []
  | item :: rest => do
      let record ← validate item
      let records ← validateAll rest
      return record :: records

end

/-! ## Records come back -/

mutual

theorem validate_dump :
    ∀ record : ErrorRecord, validate laxInt record.dump = some record
  | mk ref message type exprContext attempt streamId children => by
      have hChildren := validateChildren_dump children
      have hContext := ErrorContext.parse_value exprContext
      unfold dump validate
      simp only [validateFields, ofFields, hChildren, List.lookup_cons]
      simp [readText, readContext, readInt, hContext]

theorem validateChildren_dump : ∀ children : Option (List ErrorRecord),
    validateChildren laxInt (dumpChildren children) = some children
  | none => rfl
  | some children => by
      unfold dumpChildren validateChildren
      rw [validateAll_dump children]
      rfl

theorem validateAll_dump : ∀ records : List ErrorRecord,
    validateAll laxInt (dumpAll records) = some records
  | [] => rfl
  | record :: rest => by
      unfold dumpAll validateAll
      rw [validate_dump record, validateAll_dump rest]
      rfl

end

end ErrorRecord

/-- `isinstance(detail, Mapping)`. -/
def isObject : Json → Bool
  | .obj _ => true
  | _ => false

/-- `detail is None`. -/
def isNull : Json → Bool
  | .null => true
  | _ => false

/-- The adapter on JSON values. -/
def actionErrorInfoAdapter (laxInt : String → Option Int) : ErrorInfoAdapter Json ErrorRecord where
  isNone := isNull
  isMapping := isObject
  dumpPython := ErrorRecord.dump
  validatePython := ErrorRecord.validate laxInt
  validate_dump := ErrorRecord.validate_dump laxInt
  mapping_of_validate value info hInfo := by
    cases value with
    | obj entries => rfl
    | _ => simp [ErrorRecord.validate] at hInfo
  none_not_mapping value hNone := by
    cases value with
    | null => rfl
    | _ => cases hNone

end Gather
end Tracecat
