import Tracecat.Expressions.PyValue
import Tracecat.Lib.Decimals
import Tracecat.Tables.Schema
import Tracecat.Workflow.Folders

/-!
# Values of columns

The Python values that are written to tables, and their coercions (`tables/common.py`).
Floats, and objects of classes that are not named here, belong to a runtime.
-/

namespace Tracecat
namespace Tables

open Folders (strip isSpace)
open Numerals (Dec Decimal Mark)

/-- The days of the years 1 to 9999. -/
def maxDays : ℕ := 3652059

def microsOfDay : ℕ := 86400000000

/-- A `date`. -/
abbrev Day : Type := Fin maxDays

/-- A `datetime`: microseconds since year 1 on the wall clock, and the offset from UTC unless
it is naive. -/
structure DateTime where
  wall : Fin (maxDays * microsOfDay)
  offset : Option ℤ
  deriving DecidableEq, Repr

namespace DateTime

/-- `date`. -/
def day (it : DateTime) : Day :=
  ⟨it.wall / microsOfDay, (Nat.div_lt_iff_lt_mul (by decide)).mpr it.wall.isLt⟩

/-- A `date` at midnight. -/
def ofDay (day : Day) : DateTime :=
  ⟨⟨day * microsOfDay, Nat.mul_lt_mul_of_pos_right day.isLt (by decide)⟩, none⟩

theorem toNat_lt {micros : ℤ} (hRange : 0 ≤ micros ∧ micros < (maxDays * microsOfDay : ℕ)) :
    micros.toNat < maxDays * microsOfDay := by
  omega

/-- `replace(tzinfo=UTC)` of a naive one, and else `astimezone(UTC)`. -/
def toUtc (it : DateTime) : Except PyError DateTime :=
  match it.offset with
  | none => .ok ⟨it.wall, some 0⟩
  | some offset =>
      let utc := (it.wall : ℤ) - offset
      if hRange : 0 ≤ utc ∧ utc < (maxDays * microsOfDay : ℕ) then
        .ok ⟨⟨utc.toNat, toNat_lt hRange⟩, some 0⟩
      else .error (.other "OverflowError" "date value out of range")

end DateTime

inductive SequenceKind
  | list
  | tuple
  | set
  deriving DecidableEq, Repr

/-- A value other than `None`; `object` is a dict or an instance of a class that is not named. -/
inductive Value (φ ω : Type)
  | bool (value : Bool)
  | int (value : ℤ)
  | float (it : φ)
  | decimal (number : Decimal)
  | str (text : String)
  | date (day : Day)
  | datetime (it : DateTime)
  | sequence (kind : SequenceKind) (items : List (Option (Value φ ω)))
  | object (it : ω)

/-- What the coercions rely on besides the built-in types. -/
structure Python (φ ω : Type) where
  /-- The decimal digit of a character that is not in ASCII. -/
  unicodeDigit : Char → Option (Fin 10)
  /-- `type(value).__name__`. -/
  className : ω → String
  /-- `repr`. -/
  repr : Value φ ω → String
  /-- `str` of the values that `str` below does not write. -/
  text : Value φ ω → Except PyError String
  /-- `datetime.fromtimestamp(value, tz=UTC)`. -/
  fromTimestamp : ℤ ⊕ φ → Except PyError DateTime
  /-- `datetime.fromisoformat`. -/
  fromIsoFormat : String → Option DateTime
  /-- `date.fromisoformat`. -/
  dateFromIsoFormat : String → Option Day
  /-- A float or an object that equals `True` or `False`. -/
  floatBool : φ → Option Bool
  objectBool : ω → Option Bool

namespace Python

variable {φ ω : Type} (py : Python φ ω)

/-- `str` of an integer, as long as its digits are not too many. -/
def intText (number : ℤ) : Except PyError String :=
  if (Numerals.digitsOf number.natAbs).length ≤ Numerals.maxIntDigits then
    .ok (String.ofList ((Dec.ofInt number).marks.map Mark.char))
  else
    .error (.valueError ("Exceeds the limit (4300 digits) for integer string conversion; " ++
      "use sys.set_int_max_str_digits() to increase the limit"))

/-- `str(value)`. -/
def str : Value φ ω → Except PyError String
  | .bool true => .ok "True"
  | .bool false => .ok "False"
  | .int number => intText number
  | .decimal number => .ok (String.ofList number.text)
  | .str text => .ok text
  | value => py.text value

/-- `str(value)` of a value that may be `None`. -/
def strOrNone : Option (Value φ ω) → Except PyError String
  | none => .ok "None"
  | some value => py.str value

/-- `Decimal(text.strip())`. -/
def decimal (text : String) : Option Decimal :=
  Numerals.readDecimal ((strip text.toList).map (Numerals.mark py.unicodeDigit))

def bigIntMin : ℤ := -(2 ^ 63)

def bigIntMax : ℤ := 2 ^ 63 - 1

/-- The finite decimal of `Decimal(str(value).strip())`. -/
def finiteDecimal (value : Value φ ω) : Option Dec :=
  match py.str value with
  | .error _ => none
  | .ok text =>
      match py.decimal text with
      | some (.finite number) => some number
      | _ => none

/-- `coerce_integer_value`. -/
def coerceIntegerValue (value : Value φ ω) : Except PyError ℤ :=
  let invalid : Except PyError ℤ := .error (.valueError ("Invalid integer value: " ++ py.repr value))
  match (py.finiteDecimal value).bind Dec.toInt? with
  | some number => if bigIntMin ≤ number ∧ number ≤ bigIntMax then .ok number else invalid
  | none => invalid

/-- `coerce_numeric_value`. -/
def coerceNumericValue (value : Value φ ω) : Except PyError Dec :=
  match py.finiteDecimal value with
  | some number => .ok number
  | none => .error (.valueError ("Invalid numeric value: " ++ py.repr value))

/-- The text with `Z` for UTC at its end written as an offset. -/
def withOffset (text : List Char) : List Char :=
  if text.getLast? = some 'Z' ∨ text.getLast? = some 'z' then
    text.dropLast ++ "+00:00".toList
  else text

/-- `coerce_to_utc_datetime`. -/
def coerceToUtcDatetime (value : Value φ ω) : Except PyError DateTime :=
  match value with
  | .datetime it => it.toUtc
  | .date day => (DateTime.ofDay day).toUtc
  | .str text =>
      match py.fromIsoFormat (String.ofList (withOffset (strip text.toList))) with
      | some it => it.toUtc
      | none => .error (.typeError ("Invalid ISO datetime string: " ++ py.repr value))
  | .bool flag => py.fromTimestamp (.inl flag.toInt) >>= DateTime.toUtc
  | .int number => py.fromTimestamp (.inl number) >>= DateTime.toUtc
  | .float it => py.fromTimestamp (.inr it) >>= DateTime.toUtc
  | _ => .error (.typeError ("Unable to coerce " ++ py.repr value ++ " to UTC datetime"))

/-- `coerce_to_date`. -/
def coerceToDate (value : Value φ ω) : Except PyError Day :=
  match value with
  | .date day => .ok day
  | .datetime it => .ok it.day
  | .bool flag => (py.fromTimestamp (.inl flag.toInt)).map DateTime.day
  | .int number => (py.fromTimestamp (.inl number)).map DateTime.day
  | .float it => (py.fromTimestamp (.inr it)).map DateTime.day
  | .str text =>
      let text := String.ofList (strip text.toList)
      match py.fromIsoFormat text with
      | some it => .ok it.day
      | none =>
          match py.dateFromIsoFormat text with
          | some day => .ok day
          | none => .error (.typeError ("Invalid ISO date string: " ++ py.repr value))
  | _ => .error (.typeError ("Unable to coerce " ++ py.repr value ++ " to date"))

/-- `if options and ...`. -/
def choices (options : Option (List String)) : Option (List String) :=
  options.filter fun options => !options.isEmpty

/-- `coerce_select_value`. -/
def coerceSelectValue (options : Option (List String)) (value : Value φ ω) :
    Except PyError String := do
  let coerced ← py.str value
  match choices options with
  | some options =>
      if coerced ∈ options then pure coerced
      else throw (.valueError ("Value '" ++ coerced ++ "' is not in the available options"))
  | none => pure coerced

/-- `coerce_multi_select_value`. -/
def coerceMultiSelectValue (options : Option (List String)) (value : Value φ ω) :
    Except PyError (List String) :=
  match value with
  | .sequence _ items => do
      let coerced ← items.mapM py.strOrNone
      match choices options with
      | some options =>
          let invalid := coerced.filter fun item => item ∉ options
          if invalid.isEmpty then pure coerced
          else throw (.valueError ("Value(s) " ++ ", ".intercalate invalid ++
            " are not in the available options"))
      | none => pure coerced
  | _ => .error (.valueError "MULTI_SELECT values must be provided as a list of strings")

def texts (items : List String) : Value φ ω :=
  .sequence .list (items.map fun item => some (.str item))

/-- The step of `_normalize_row_inputs` for a value that is not `None`. -/
def coerceForColumn (column : Column) (value : Value φ ω) : Except PyError (Value φ ω) :=
  match column.type with
  | .select => (py.coerceSelectValue column.options value).map .str
  | .multiSelect => (py.coerceMultiSelectValue column.options value).map texts
  | .timestamptz => (py.coerceToUtcDatetime value).map .datetime
  | .integer => (py.coerceIntegerValue value).map .int
  | .numeric => (py.coerceNumericValue value).map fun number => .decimal (.finite number)
  | .date => (py.coerceToDate value).map .date
  | .text | .boolean | .jsonb => .ok value

/-! ## Coerced values stay as they are -/

section Again

variable {py}

theorem isSpace_char {it : Mark} (hWritten : Numerals.Written it) : isSpace it.char = false := by
  cases hWritten with
  | digit value => fin_cases value <;> rfl
  | point => rfl
  | plus => rfl
  | minus => rfl
  | exponent => rfl

theorem decimal_marks {number : Dec} (hExact : number.exact = true) :
    py.decimal (String.ofList (number.marks.map Mark.char)) = some (.finite number) := by
  unfold decimal
  rw [String.toList_ofList, Folders.strip_of_visible, Dec.marks, Numerals.marks_render]
  · exact Numerals.readDecimal_marks hExact
  · intro char hChar
    obtain ⟨it, hIt, rfl⟩ := List.mem_map.mp hChar
    exact isSpace_char (Numerals.written_render hIt)

theorem finiteDecimal_decimal {number : Dec} (hExact : number.exact = true) :
    py.finiteDecimal (.decimal (.finite number)) = some number := by
  have hText : py.str (.decimal (.finite number)) =
      .ok (String.ofList (number.marks.map Mark.char)) := rfl
  unfold finiteDecimal
  rw [hText]
  dsimp only
  rw [decimal_marks hExact]

theorem digits_of_bigInt {number : ℤ} (hLow : bigIntMin ≤ number) (hHigh : number ≤ bigIntMax) :
    (Numerals.digitsOf number.natAbs).length ≤ Numerals.maxIntDigits := by
  have hDigits : (Nat.digits 10 number.natAbs).length ≤ 19 := by
    rw [Nat.digits_length_le_iff (by omega)]
    unfold bigIntMin at hLow
    unfold bigIntMax at hHigh
    omega
  have hLength : (Numerals.digitsOf number.natAbs).length ≤ 19 := by
    unfold Numerals.digitsOf
    split
    · rw [List.length_singleton]
      omega
    · rw [List.length_reverse, List.length_map]
      exact hDigits
  have hMax : 19 ≤ Numerals.maxIntDigits := by decide
  exact hLength.trans hMax

theorem finiteDecimal_int {number : ℤ}
    (hDigits : (Numerals.digitsOf number.natAbs).length ≤ Numerals.maxIntDigits) :
    py.finiteDecimal (.int number) = some (Dec.ofInt number) := by
  have hText : py.str (.int number) =
      .ok (String.ofList ((Dec.ofInt number).marks.map Mark.char)) := if_pos hDigits
  unfold finiteDecimal
  rw [hText]
  dsimp only
  rw [decimal_marks (Numerals.exact_ofInt hDigits)]

theorem coerceIntegerValue_range {value : Value φ ω} {number : ℤ}
    (hOk : py.coerceIntegerValue value = .ok number) :
    bigIntMin ≤ number ∧ number ≤ bigIntMax := by
  unfold coerceIntegerValue at hOk
  dsimp only at hOk
  split at hOk
  · split at hOk
    · next hRange =>
        cases hOk
        exact hRange
    · cases hOk
  · cases hOk

theorem coerceIntegerValue_int {number : ℤ} (hLow : bigIntMin ≤ number)
    (hHigh : number ≤ bigIntMax) : py.coerceIntegerValue (.int number) = .ok number := by
  unfold coerceIntegerValue
  rw [finiteDecimal_int (digits_of_bigInt hLow hHigh), Option.bind_some, Numerals.toInt?_ofInt]
  exact if_pos ⟨hLow, hHigh⟩

theorem coerceNumericValue_exact {value : Value φ ω} {number : Dec}
    (hOk : py.coerceNumericValue value = .ok number) : number.exact = true := by
  unfold coerceNumericValue at hOk
  split at hOk
  · next found hFound =>
      cases hOk
      unfold finiteDecimal at hFound
      split at hFound
      · cases hFound
      · split at hFound
        · next hRead =>
            cases hFound
            exact Numerals.exact_of_readDecimal hRead
        · cases hFound
  · cases hOk

theorem coerceNumericValue_decimal {number : Dec} (hExact : number.exact = true) :
    py.coerceNumericValue (.decimal (.finite number)) = .ok number := by
  unfold coerceNumericValue
  rw [finiteDecimal_decimal hExact]

theorem toUtc_offset {it utc : DateTime} (hOk : it.toUtc = .ok utc) : utc.offset = some 0 := by
  unfold DateTime.toUtc at hOk
  dsimp only at hOk
  split at hOk
  · cases hOk
    rfl
  · split at hOk
    · cases hOk
      rfl
    · cases hOk

theorem toUtc_utc (wall : Fin (maxDays * microsOfDay)) :
    DateTime.toUtc ⟨wall, some 0⟩ = .ok ⟨wall, some 0⟩ := by
  have hLess := wall.isLt
  have hRange : 0 ≤ (wall : ℤ) - 0 ∧ (wall : ℤ) - 0 < (maxDays * microsOfDay : ℕ) := by omega
  have hWall : (⟨((wall : ℤ) - 0).toNat, by omega⟩ : Fin (maxDays * microsOfDay)) = wall :=
    Fin.ext (by show ((wall : ℤ) - 0).toNat = wall; omega)
  unfold DateTime.toUtc
  dsimp only
  rw [dif_pos hRange, hWall]

theorem mapM_strOrNone (items : List String) :
    (items.map fun item => (some (.str item) : Option (Value φ ω))).mapM py.strOrNone =
      .ok items := by
  induction items with
  | nil => rfl
  | cons item items ih =>
      rw [List.map_cons, List.mapM_cons, ih]
      rfl

end Again

end Python
end Tables
end Tracecat
