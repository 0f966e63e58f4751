/-!
# Tables

The metadata of user-defined tables (`tables/enums.py`, `db/models.py`).
-/

namespace Tracecat
namespace Tables

/-- `SqlType`. -/
inductive SqlType
  | text
  | integer
  | numeric
  | date
  | boolean
  | timestamptz
  | jsonb
  | select
  | multiSelect
  deriving DecidableEq, Repr

/-- The value of the enumeration. -/
def SqlType.value : SqlType → String
  | text => "TEXT"
  | integer => "INTEGER"
  | numeric => "NUMERIC"
  | date => "DATE"
  | boolean => "BOOLEAN"
  | timestamptz => "TIMESTAMPTZ"
  | jsonb => "JSONB"
  | select => "SELECT"
  | multiSelect => "MULTI_SELECT"

/-- `TableColumn`. -/
structure Column where
  name : String
  type : SqlType
  nullable : Bool
  options : Option (List String)
  deriving DecidableEq, Repr

/-- `Table`, with the columns of its indexes.  The names are stored as
`sanitize_identifier` leaves them. -/
structure Table where
  name : String
  columns : List Column
  indexes : List (List String)
  deriving DecidableEq, Repr

def Table.column? (table : Table) (name : String) : Option Column :=
  table.columns.find? fun column => column.name = name

/-- `get_index`. -/
def Table.getIndex (table : Table) : List String :=
  table.indexes.filterMap fun columns =>
    match columns with
    | [column] => some column
    | _ => none

end Tables
end Tracecat
