import Mathlib.Data.Prod.Lex
import Mathlib.Data.Sum.Order
import Mathlib.Order.WithBot
import Tracecat.Lib.Paging

/-!
# Cursor pagination

`pagination.py` and the services that page through rows with it:
`list_workflows` (`workflow/management/management.py`), `search_cases`
(`cases/service.py`) and `list_rows` (`tables/service.py`).

A cursor is the data that `decode_cursor` reads from its text.  A query is the rows that
its conditions select, sorted, and cut after the limit.
-/

namespace Tracecat
namespace Pagination

open Keyset (sortBy)

/-! ## Cursors and pages -/

/-- `CursorPaginationParams`. -/
structure CursorPaginationParams (γ : Type) where
  limit : Nat
  cursor : Option γ
  reverse : Bool

/-- `CursorPaginatedResponse`. -/
structure CursorPaginatedResponse (α γ : Type) where
  items : List α
  nextCursor : Option γ
  prevCursor : Option γ
  hasMore : Bool
  hasPrevious : Bool

/-- `CursorData`. -/
structure CursorData (Id V : Type) where
  id : Id
  sortColumn : Option String
  sortValue : Option V
  deriving DecidableEq

inductive SortDirection
  | asc
  | desc
  deriving DecidableEq, Repr

variable {Id Time V : Type} [LinearOrder Id] [LinearOrder Time] [LinearOrder V]

/-- `or_(column > value, and_(column == value, id > cursor_id))`. -/
def above (value : V) (id : Id) (cell : V) (rowId : Id) : Bool :=
  value < cell || (cell = value && id < rowId)

/-- `or_(column < value, and_(column == value, id < cursor_id))`. -/
def below (value : V) (id : Id) (cell : V) (rowId : Id) : Bool :=
  cell < value || (cell = value && rowId < id)

/-- `ORDER BY` a key, ascending or descending. -/
def orderBy {α K : Type} [LinearOrder K] (direction : SortDirection) (key : α → K)
    (rows : List α) : List α :=
  match direction with
  | .asc => sortBy key rows
  | .desc => sortBy (fun row => OrderDual.toDual (key row)) rows

/-- The rows after or before a cursor in an order that is ascending or descending, for the
four combinations of the direction and `reverse`. -/
def besideCursor (direction : SortDirection) (reverse : Bool) (value : V) (id : Id) :
    V → Id → Bool :=
  match direction, reverse with
  | .asc, true => below value id
  | .asc, false => above value id
  | .desc, true => above value id
  | .desc, false => below value id

/-- `LIMIT limit + 1`, and whether there are more items than the limit. -/
def fetch {α : Type} (limit : Nat) (rows : List α) : List α × Bool :=
  let found := rows.take (limit + 1)
  let hasMore := decide (limit < found.length)
  (if hasMore then found.take limit else found, hasMore)

/-! ## Workflows -/

/-- A row of `workflow`; only filters read the other columns. -/
structure Workflow (Id Time ρ : Type) where
  id : Id
  createdAt : Time
  rest : ρ

namespace Workflow

variable {ρ : Type}

def key (workflow : Workflow Id Time ρ) : Time ×ₗ Id :=
  toLex (workflow.createdAt, workflow.id)

/-- `encode_cursor` of a workflow. -/
def cursor (workflow : Workflow Id Time ρ) : CursorData Id Time where
  id := workflow.id
  sortColumn := some "created_at"
  sortValue := some workflow.createdAt

end Workflow

/-- The condition of `list_workflows` for the cursor. -/
def Workflow.afterCursor {ρ : Type} (params : CursorPaginationParams (CursorData Id Time))
    (selected : List (Workflow Id Time ρ)) : List (Workflow Id Time ρ) :=
  match params.cursor with
  | none => selected
  | some cursor =>
      match if cursor.sortColumn = some "created_at" then cursor.sortValue else none with
      | some value =>
          selected.filter fun row =>
            besideCursor .desc params.reverse value cursor.id row.createdAt row.id
      -- cursors of an old format
      | none =>
          selected.filter fun row =>
            if params.reverse then decide (cursor.id < row.id) else decide (row.id < cursor.id)

/-- `list_workflows`; the filters on status, text and tags select the rows. -/
def listWorkflows {ρ : Type} (workflows : List (Workflow Id Time ρ))
    (filters : Workflow Id Time ρ → Bool) (params : CursorPaginationParams (CursorData Id Time)) :
    CursorPaginatedResponse (Workflow Id Time ρ) (CursorData Id Time) :=
  let selected := Workflow.afterCursor params (workflows.filter filters)
  let ordered := orderBy (if params.reverse then .asc else .desc) Workflow.key selected
  let (items, hasMore) := fetch params.limit ordered
  let nextCursor := if hasMore then items.getLast?.map Workflow.cursor else none
  let prevCursor := if params.cursor.isSome then items.head?.map Workflow.cursor else none
  { items := if params.reverse then items.reverse else items
    nextCursor := if params.reverse then prevCursor else nextCursor
    prevCursor := if params.reverse then nextCursor else prevCursor
    hasMore := hasMore
    hasPrevious := params.cursor.isSome }

/-! ## Cases -/

/-- `CASE_PRIORITY_SORT_ORDER`. -/
def casePrioritySortOrder : List String :=
  ["unknown", "low", "medium", "high", "critical", "other"]

/-- `CASE_SEVERITY_SORT_ORDER`. -/
def caseSeveritySortOrder : List String :=
  ["unknown", "informational", "low", "medium", "high", "critical", "fatal", "other"]

/-- `CASE_STATUS_SORT_ORDER`. -/
def caseStatusSortOrder : List String :=
  ["unknown", "new", "in_progress", "on_hold", "resolved", "closed", "other"]

/-- A row of `case` with the number of its tasks; only filters read the other columns. -/
structure Case (Id Time ρ : Type) where
  id : Id
  createdAt : Time
  updatedAt : Time
  priority : String
  severity : String
  status : String
  taskCount : Nat
  rest : ρ

/-- What `order_by` may be. -/
inductive CaseSort
  | createdAt
  | updatedAt
  | priority
  | severity
  | status
  | tasks
  deriving DecidableEq, Repr

def CaseSort.column : CaseSort → String
  | createdAt => "created_at"
  | updatedAt => "updated_at"
  | priority => "priority"
  | severity => "severity"
  | status => "status"
  | tasks => "tasks"

/-- `_enum_sort_expr` and `_enum_sort_rank`. -/
def enumSortRank (value : String) (orderedValues : List String) : Nat :=
  orderedValues.idxOf value

/-- A number, or a time. -/
abbrev SortValue (Time : Type) : Type := Nat ⊕ₗ Time

namespace Case

variable {ρ : Type}

/-- `sort_attr`, and the value that a cursor keeps of it. -/
def sortAttr (row : Case Id Time ρ) : CaseSort → SortValue Time
  | .createdAt => toLex (.inr row.createdAt)
  | .updatedAt => toLex (.inr row.updatedAt)
  | .priority => toLex (.inl (enumSortRank row.priority casePrioritySortOrder))
  | .severity => toLex (.inl (enumSortRank row.severity caseSeveritySortOrder))
  | .status => toLex (.inl (enumSortRank row.status caseStatusSortOrder))
  | .tasks => toLex (.inl row.taskCount)

def key (sortColumn : CaseSort) (row : Case Id Time ρ) : SortValue Time ×ₗ Id :=
  toLex (row.sortAttr sortColumn, row.id)

/-- `encode_cursor` of a case. -/
def cursor (sortColumn : CaseSort) (row : Case Id Time ρ) : CursorData Id (SortValue Time) where
  id := row.id
  sortColumn := some sortColumn.column
  sortValue := some (row.sortAttr sortColumn)

end Case

/-- `isinstance(cursor_sort_value, int)` where the column is a number. -/
def CaseSort.takes (sortColumn : CaseSort) (value : SortValue Time) : Bool :=
  match sortColumn with
  | createdAt => true
  | updatedAt => true
  | _ => (ofLex value).isLeft

/-- The condition of `search_cases` for the cursor. -/
def Case.afterCursor {ρ : Type} (sortColumn : CaseSort) (sortDirection : SortDirection)
    (params : CursorPaginationParams (CursorData Id (SortValue Time)))
    (selected : List (Case Id Time ρ)) : List (Case Id Time ρ) :=
  match params.cursor with
  | none => selected
  | some cursor =>
      match (if cursor.sortColumn = some sortColumn.column then cursor.sortValue
        else none).filter sortColumn.takes with
      | some value =>
          selected.filter fun row =>
            besideCursor sortDirection params.reverse value cursor.id (row.sortAttr sortColumn)
              row.id
      | none => selected

/-- `search_cases`; the filters of the search select the rows. -/
def searchCases {ρ : Type} (cases : List (Case Id Time ρ)) (filters : Case Id Time ρ → Bool)
    (order : Option CaseSort) (sort : Option SortDirection)
    (params : CursorPaginationParams (CursorData Id (SortValue Time))) :
    CursorPaginatedResponse (Case Id Time ρ) (CursorData Id (SortValue Time)) :=
  let sortColumn := order.getD .createdAt
  let sortDirection := sort.getD .desc
  let selected := Case.afterCursor sortColumn sortDirection params (cases.filter filters)
  -- the order does not depend on `reverse`
  let ordered := orderBy sortDirection (Case.key sortColumn) selected
  let (items, hasMore) := fetch params.limit ordered
  let lastCursor := if hasMore then items.getLast?.map (Case.cursor sortColumn) else none
  let firstCursor :=
    if params.cursor.isSome then items.head?.map (Case.cursor sortColumn) else none
  { items := items
    nextCursor := if params.reverse then firstCursor.or lastCursor else lastCursor
    prevCursor := if params.reverse then none else firstCursor
    hasMore := hasMore
    hasPrevious := params.cursor.isSome }

/-! ## Rows of tables -/

/-- A row of a user-defined table: its cells under the names of the columns, `none` for
`NULL`. -/
structure TableRow (Id V : Type) where
  id : Id
  cells : String → Option V

/-- `CursorData.sort_value`, where it is not `None`; numbers are finite. -/
inductive SortField (Datetime : Type)
  | datetime (value : Datetime)
  | str (text : String)
  | int (value : Int)
  | float (value : Rat)

/-- What pydantic, `datetime` and the driver make of the values of the sort column. -/
structure CursorValues (V Datetime φ : Type) where
  fromisoformat : String → Option Datetime
  /-- a datetime in the JSON text of a cursor -/
  dump : Datetime → String
  /-- the member of the union that a cell is taken for; a list or an object for none -/
  field : V → Except φ (SortField Datetime)
  /-- the operand that the driver binds for the comparison with the column -/
  operand : SortField Datetime → Except φ V

namespace CursorValues

variable {Datetime φ : Type} (values : CursorValues V Datetime φ)

/-- `parse_datetime_string`. -/
def parseDatetimeString : SortField Datetime → SortField Datetime
  | .str text =>
      match values.fromisoformat (text.replace "Z" "+00:00") with
      | some value => .datetime value
      | none => .str text
  | value => value

/-- `model_dump_json`, read again by `json.loads`. -/
def throughJson : SortField Datetime → SortField Datetime
  | .datetime value => .str (values.dump value)
  | value => value

/-- `encode_cursor`, and then `decode_cursor`. -/
def carried (cell : V) : Except φ (SortField Datetime) := do
  let field ← values.field cell
  return values.parseDatetimeString (values.throughJson (values.parseDatetimeString field))

end CursorValues

/-- What `list_rows` raises. -/
inductive PageError (φ : Type)
  /-- `Invalid order_by column: ...`. -/
  | invalidOrderBy (column : String)
  | fault (error : φ)

namespace TableRow

variable {D φ : Type}

/-- `NULL` is greater than every value in an order. -/
def key (sortColumn : String) (row : TableRow Id V) : WithTop V ×ₗ Id :=
  toLex ((row.cells sortColumn).elim ⊤ WithTop.some, row.id)

/-- `encode_cursor` of a row. -/
def cursor (values : CursorValues V D φ) (sortColumn : String) (row : TableRow Id V) :
    Except (PageError φ) (CursorData Id (SortField D)) :=
  match row.cells sortColumn with
  | none => .ok { id := row.id, sortColumn := some sortColumn, sortValue := none }
  | some value =>
      match values.carried value with
      | .error error => .error (.fault error)
      | .ok carried =>
          .ok { id := row.id, sortColumn := some sortColumn, sortValue := some carried }

/-- A comparison with `NULL` selects nothing. -/
def compares (sortColumn : String) (compare : V → Id → Bool) (row : TableRow Id V) : Bool :=
  match row.cells sortColumn with
  | none => false
  | some value => compare value row.id

/-- The condition of `list_rows` for the cursor. -/
def afterCursor (values : CursorValues V D φ) (sortColumn : String)
    (sortDirection : SortDirection) (params : CursorPaginationParams (CursorData Id (SortField D)))
    (selected : List (TableRow Id V)) : Except (PageError φ) (List (TableRow Id V)) :=
  match params.cursor with
  | none => .ok selected
  | some cursor =>
      match if cursor.sortColumn = some sortColumn then cursor.sortValue else none with
      | none => .ok selected
      | some carried =>
          match values.operand carried with
          | .error error => .error (.fault error)
          | .ok value =>
              .ok (selected.filter
                (compares sortColumn (besideCursor sortDirection params.reverse value cursor.id)))

/-- The response of `list_rows`: going back, the rows are reversed and what is next and
previous changes places. -/
def respond (reverse hasMore hasPrevious : Bool) (rows : List (TableRow Id V))
    (nextCursor prevCursor : Option (CursorData Id (SortField D))) :
    CursorPaginatedResponse (TableRow Id V) (CursorData Id (SortField D)) :=
  if reverse then
    { items := rows.reverse
      nextCursor := prevCursor
      prevCursor := nextCursor
      hasMore := hasPrevious
      hasPrevious := hasMore }
  else
    { items := rows
      nextCursor := nextCursor
      prevCursor := prevCursor
      hasMore := hasMore
      hasPrevious := hasPrevious }

/-- The page of `list_rows` for the rows that are selected. -/
def page (values : CursorValues V D φ) (sortColumn : String) (sortDirection : SortDirection)
    (params : CursorPaginationParams (CursorData Id (SortField D))) (selected : List (TableRow Id V)) :
    Except (PageError φ) (CursorPaginatedResponse (TableRow Id V) (CursorData Id (SortField D))) := do
  -- a tie-breaker after `id` changes nothing; the order does not depend on `reverse`
  let ordered := orderBy sortDirection (key sortColumn) selected
  let (rows, hasMore) := fetch params.limit ordered
  let hasPrevious := params.cursor.isSome
  let nextCursor ← (if hasMore then rows.getLast? else none).mapM (cursor values sortColumn)
  let prevCursor ← (if hasPrevious then rows.head? else none).mapM (cursor values sortColumn)
  return respond params.reverse hasMore hasPrevious rows nextCursor prevCursor

end TableRow

/-- `order_by or "created_at"`. -/
def orderColumn (order : Option String) : String :=
  (order.filter (· ≠ "")).getD "created_at"

/-- `list_rows`; the search term and the times select the rows. -/
def listRows {D φ : Type} (values : CursorValues V D φ) (columns : List String)
    (rows : List (TableRow Id V)) (filters : TableRow Id V → Bool) (order : Option String)
    (sort : Option SortDirection) (params : CursorPaginationParams (CursorData Id (SortField D))) :
    Except (PageError φ) (CursorPaginatedResponse (TableRow Id V) (CursorData Id (SortField D))) := do
  let sortColumn := orderColumn order
  let sortDirection := sort.getD .desc
  if sortColumn ∉ columns ++ ["id", "created_at", "updated_at"] then
    throw (.invalidOrderBy sortColumn)
  let selected ← TableRow.afterCursor values sortColumn sortDirection params (rows.filter filters)
  TableRow.page values sortColumn sortDirection params selected

end Pagination
end Tracecat
