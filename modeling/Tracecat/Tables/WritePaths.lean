import Tracecat.Lib.Checks
import Tracecat.Tables.BatchRows
import Tracecat.Tables.Values

/-!
# Write paths

What `insert_row`, `update_row`, `batch_update_rows` and `batch_insert_rows` of
`tables/service.py` make of the values of a row.  The driver and the database are a parameter.
-/

namespace Tracecat
namespace Tables

/-- The column types of SQLAlchemy. -/
inductive SaType
  | string
  | bigInteger
  | numeric
  | date
  | boolean
  | timestamptz
  | jsonb
  deriving DecidableEq, Repr

/-- `_sa_type_for_column`. -/
def saTypeForColumn : SqlType → SaType
  | .text | .select => .string
  | .integer => .bigInteger
  | .numeric => .numeric
  | .date => .date
  | .boolean => .boolean
  | .timestamptz => .timestamptz
  | .jsonb | .multiSelect => .jsonb

/-- A bound parameter, with `none` for `None`. -/
structure BindParameter (φ ω : Type) where
  type : SaType
  value : Option (Value φ ω)

variable {φ ω δ : Type} (py : Python φ ω)

def boolOfText (text : String) : Option Bool :=
  let lowered := text.toList.map Char.toLower
  if lowered = "true".toList ∨ lowered = "1".toList then some true
  else if lowered = "false".toList ∨ lowered = "0".toList then some false
  else none

/-- `type(value).__name__`. -/
def Python.typeName : Value φ ω → String
  | .bool _ => "bool"
  | .int _ => "int"
  | .float _ => "float"
  | .decimal _ => "Decimal"
  | .str _ => "str"
  | .date _ => "date"
  | .datetime _ => "datetime"
  | .sequence .list _ => "list"
  | .sequence .tuple _ => "tuple"
  | .sequence .set _ => "set"
  | .object it => py.className it

/-- A step for a value that is not `None`. -/
def unlessNone {α : Type} (value : Option α) (step : α → Except PyError (Value φ ω)) :
    Except PyError (Option (Value φ ω)) :=
  match value with
  | none => .ok none
  | some value => (step value).map some

/-- `to_sql_clause`. -/
def toSqlClause (value : Option (Value φ ω)) (type : SqlType) :
    Except PyError (BindParameter φ ω) :=
  let bindparam (type : SaType) (coerced : Except PyError (Option (Value φ ω))) :=
    coerced.map (BindParameter.mk type)
  match type with
  | .select => bindparam .string (unlessNone value fun value => (py.str value).map .str)
  | .multiSelect =>
      bindparam .jsonb
        (unlessNone value fun value => (py.coerceMultiSelectValue none value).map Python.texts)
  | .jsonb => bindparam .jsonb (.ok value)
  | .text => bindparam .string ((py.strOrNone value).map fun text => some (.str text))
  | .date => bindparam .date (unlessNone value fun value => (py.coerceToDate value).map .date)
  | .timestamptz =>
      bindparam .timestamptz
        (unlessNone value fun value => (py.coerceToUtcDatetime value).map .datetime)
  | .boolean =>
      bindparam .boolean (py.strOrNone value >>= fun text =>
        match boolOfText text with
        | some flag => .ok (some (.bool flag))
        | none => .error (.typeError ("Expected bool or 0/1, got " ++
            (value.map py.typeName).getD "NoneType" ++ ": " ++ text)))
  | .integer =>
      bindparam .bigInteger
        (unlessNone value fun value => (py.coerceIntegerValue value).map .int)
  | .numeric =>
      bindparam .numeric
        (unlessNone value fun value =>
          (py.coerceNumericValue value).map fun number => .decimal (.finite number))

/-- The driver and the database: the cell that a bound parameter is sent as, `none` for SQL
`NULL`, and the value that a stored cell is read as. -/
structure Database (φ ω δ : Type) where
  bind : SaType → Option (Value φ ω) → Except String (Option δ)
  load : δ → Option (Value φ ω)

/-! ## Paths -/

inductive WritePath
  | insertRow
  | upsertRow
  | updateRow
  | batchUpdateRows
  | batchInsertRows
  deriving DecidableEq, Repr

inductive WriteError
  | input (error : BatchError)
  | python (error : PyError)
  | database (message : String)
  deriving DecidableEq, Repr

variable (db : Database φ ω δ) (table : Table)

/-- The bound parameter for a value of a row, in the rows of a batch by the type of the
column and else by its clause. -/
def WritePath.parameter (path : WritePath) (cell : String × Option (Value φ ω)) :
    Except WriteError (String × BindParameter φ ω) :=
  match table.column? cell.1 with
  | none => .error (.input (.noColumn cell.1 table.name))
  | some column =>
      match path with
      | .batchInsertRows => .ok (cell.1, ⟨saTypeForColumn column.type, cell.2⟩)
      | _ =>
          match toSqlClause py cell.2 column.type with
          | .ok clause => .ok (cell.1, clause)
          | .error error => .error (.python error)

/-- The index of an `INSERT ... ON CONFLICT DO UPDATE`, whose `SET` must not be empty. -/
def checkUpsert (names : List String) : Except WriteError Unit :=
  let valueError (message : String) : Except WriteError Unit := .error (.python (.valueError message))
  match table.getIndex with
  | [] => valueError "Table must have at least one unique index for upsert"
  | [key] =>
      if key ∉ names then valueError "Data to upsert must contain the unique index column"
      else if names.all fun name => name = key then
        valueError "set parameter dictionary must not be empty"
      else .ok ()
  | _ => valueError ("Table cannot have multiple unique indexes. " ++
      "This is an unexpected error. Please contact support.")

def WritePath.check (path : WritePath) (names : List String) : Except WriteError Unit :=
  match path with
  | .upsertRow => checkUpsert table names
  | _ => .ok ()

/-- The cell of a column, which may be `NULL` if the column is nullable. -/
def Database.store (bound : String × BindParameter φ ω) : Except WriteError (String × Option δ) :=
  match db.bind bound.2.type bound.2.value with
  | .error message => .error (.database message)
  | .ok (some it) => .ok (bound.1, some it)
  | .ok none =>
      if (table.column? bound.1).all Column.nullable then .ok (bound.1, none)
      else .error (.database ("null value in column \"" ++ bound.1 ++
        "\" violates not-null constraint"))

/-- The coercion of `_normalize_row_inputs`. -/
def Python.coerceInput (column : Column) (value : Value φ ω) : Except String (Value φ ω) :=
  (py.coerceForColumn column value).mapError PyError.message

/-- The cells that a path stores for the values of a row. -/
def WritePath.write (path : WritePath) (data : List (String × Option (Value φ ω))) :
    Except WriteError (List (String × Option δ)) := do
  let normalised ← (normalizeRowInputs py.coerceInput table data).mapError .input
  let bound ← normalised.mapM (path.parameter py table)
  path.check table (data.map Prod.fst)
  bound.mapM (db.store table)

end Tables
end Tracecat
