import Mathlib.Data.Finset.Basic
import Tracecat.Lib.Grouping
import Tracecat.Lib.OnConflict
import Tracecat.Tables.Schema

/-!
# Batches of rows

`batch_insert_rows` of `tables/service.py`, with `INSERT ... ON CONFLICT` of the database.
The coercion of a value and its binding to a column type are parameters.
-/

namespace Tracecat
namespace Tables

open OnConflict (Action DbError Given Record TableShape)

/-- The errors of a batch. -/
inductive BatchError
  | batchSize (rows chunkSize : Nat)
  | noColumn (column table : String)
  | invalidValue (message : String)
  | noUniqueIndex
  | multipleIndexes
  | missingIndexColumn
  | database (error : DbError)
  | inFailedTransaction
  deriving DecidableEq, Repr

/-- The text of a `ValueError`. -/
def BatchError.message? : BatchError → Option String
  | batchSize rows chunkSize =>
      some ("Batch size " ++ toString rows ++ " exceeds maximum of " ++ toString chunkSize)
  | noColumn column table =>
      some ("Column '" ++ column ++ "' does not exist in table '" ++ table ++ "'")
  | invalidValue message => some message
  | noUniqueIndex => some "Table must have at least one unique index for upsert"
  | multipleIndexes => some ("Table cannot have multiple unique indexes. " ++
      "This is an unexpected error. Please contact support.")
  | missingIndexColumn => some "Each row to upsert must contain the unique index column"
  | database _ | inFailedTransaction => none

/-- The rows of the table in a session: the committed ones, the ones that its transaction
sees, and whether a statement of it has failed. -/
structure Session (δ : Type) where
  committed : List (Record δ)
  working : List (Record δ)
  aborted : Bool

def Session.rollback {δ : Type} (session : Session δ) : Session δ :=
  ⟨session.committed, session.committed, false⟩

variable {α β δ : Type} [DecidableEq δ]

/-- The step of `_normalize_row_inputs` for a value. -/
def normalizeRowInput (coerce : Column → α → Except String β) (table : Table)
    (cell : String × Option α) : Except BatchError (String × Option β) :=
  match table.column? cell.1 with
  | none => .error (.noColumn cell.1 table.name)
  | some column =>
      match cell.2 with
      | none => .ok (cell.1, none)
      | some value =>
          match coerce column value with
          | .ok coerced => .ok (cell.1, some coerced)
          | .error message => .error (.invalidValue message)

/-- `_normalize_row_inputs`. -/
def normalizeRowInputs (coerce : Column → α → Except String β) (table : Table)
    (data : List (String × Option α)) : Except BatchError (List (String × Option β)) :=
  data.mapM (normalizeRowInput coerce table)

/-- The values as the statement binds them, by `column_type_map`. -/
def bindRow (bind : SqlType → Option β → Option δ) (table : Table)
    (row : List (String × Option β)) : Given δ :=
  row.map fun cell =>
    (cell.1, (table.column? cell.1).bind fun column => bind column.type cell.2)

def columnSet (given : Given δ) : Finset String := (given.map Prod.fst).toFinset

/-- `rows_by_columns`. -/
def rowsByColumns (rows : List (Given δ)) : List (Finset String × List (Given δ)) :=
  Grouping.groupBy columnSet rows

/-- The statement of a group, or the error before it. -/
def executeGroup (shape : TableShape δ) (index : Option (List String))
    (group : Finset String × List (Given δ)) (rows : List (Record δ)) :
    Except BatchError (Nat × List (Record δ)) :=
  let execute (action : Action) :=
    match shape.execute action group.2 rows with
    | .ok result => .ok result
    | .error error => .error (.database error)
  match index with
  | none => execute .error
  | some index =>
      if group.2.any fun given => index.any fun key => !(given.map Prod.fst).contains key then
        .error .missingIndexColumn
      else if ∃ column ∈ group.1, column ∉ index then execute .doUpdate
      else execute .doNothing

def runGroups (shape : TableShape δ) (index : Option (List String)) :
    List (Finset String × List (Given δ)) → Nat → Session δ → Except BatchError Nat × Session δ
  | [], total, session => (.ok total, session)
  | group :: groups, total, session =>
      match executeGroup shape index group session.working with
      | .ok (affected, rows) =>
          runGroups shape index groups (total + affected) { session with working := rows }
      | .error (.database error) => (.error (.database error), { session with aborted := true })
      | .error error => (.error error, session)

/-- The index that an upsert goes by. -/
def upsertIndex (table : Table) (upsert : Bool) : Except BatchError (Option (List String)) :=
  if !upsert then .ok none
  else if table.getIndex.isEmpty then .error .noUniqueIndex
  else if table.getIndex.length > 1 then .error .multipleIndexes
  else .ok (some table.getIndex)

/-- `batch_insert_rows` of the base service. -/
def batchInsertRows (coerce : Column → α → Except String β)
    (bind : SqlType → Option β → Option δ) (table : Table) (shape : TableShape δ)
    (rows : List (List (String × Option α))) (upsert : Bool) (chunkSize : Nat)
    (session : Session δ) : Except BatchError Nat × Session δ :=
  if rows.isEmpty then (.ok 0, session)
  else if rows.length > chunkSize then (.error (.batchSize rows.length chunkSize), session)
  else
    match rows.mapM (normalizeRowInputs coerce table) with
    | .error error => (.error error, session)
    | .ok normalised =>
        if session.aborted then (.error .inFailedTransaction, session)
        else
          match upsertIndex table upsert with
          | .error error => (.error error, session)
          | .ok index =>
              runGroups shape index (rowsByColumns (normalised.map (bindRow bind table))) 0 session

end Tables
end Tracecat
