import Tracecat.Tables.WritePaths

/-!
# One value on every write path

What the paths store for the values of a row is decided value by value.  They store the same
cell wherever the clause of a value is the coerced value with the type of the column, which
fails for texts, truth values and nulls only.
-/

namespace Tracecat
namespace Tables

variable {φ ω δ : Type} (py : Python φ ω) (db : Database φ ω δ) (table : Table)

/-! ## The laws of the database -/

/-- The truth value that a value equals in Python. -/
def Python.strictBool : Value φ ω → Option Bool
  | .bool flag => some flag
  | .int number => if number = 0 then some false else if number = 1 then some true else none
  | .decimal (.finite number) =>
      match number.toInt? with
      | some number => if number = 0 then some false else if number = 1 then some true else none
      | none => none
  | .float it => py.floatBool it
  | .object it => py.objectBool it
  | _ => none

/-- How the driver and the database store a value and read it back. -/
structure Database.Lawful : Prop where
  null : ∀ type, type ≠ .jsonb → db.bind type none = .ok none
  /-- `None` is a JSON value. -/
  jsonNull : ∃ it, db.bind .jsonb none = .ok (some it)
  /-- A text column takes texts only. -/
  onlyTexts : ∀ value, (∀ text, value ≠ .str text) → ∃ message, db.bind .string (some value) =
    .error message
  string : ∀ text cell, db.bind .string (some (.str text)) = .ok cell →
    ∃ it, cell = some it ∧ db.load it = some (.str text)
  /-- A truth value is what equals one. -/
  boolean : ∀ value, match py.strictBool value with
    | some flag => ∃ it, db.bind .boolean (some value) = .ok (some it) ∧
        db.bind .boolean (some (.bool flag)) = .ok (some it) ∧ db.load it = some (.bool flag)
    | none => ∃ message, db.bind .boolean (some value) = .error message
  bigInteger : ∀ number cell, db.bind .bigInteger (some (.int number)) = .ok cell →
    ∃ it, cell = some it ∧ db.load it = some (.int number)
  /-- A number may come back with another exponent. -/
  numeric : ∀ number cell, number.exact = true →
    db.bind .numeric (some (.decimal (.finite number))) = .ok cell →
      ∃ it other, cell = some it ∧ db.load it = some (.decimal (.finite other)) ∧
        other.exact = true ∧ db.bind .numeric (some (.decimal (.finite other))) = .ok (some it)
  date : ∀ day cell, db.bind .date (some (.date day)) = .ok cell →
    ∃ it, cell = some it ∧ db.load it = some (.date day)
  timestamptz : ∀ wall cell, db.bind .timestamptz (some (.datetime ⟨wall, some 0⟩)) = .ok cell →
    ∃ it, cell = some it ∧ db.load it = some (.datetime ⟨wall, some 0⟩)
  jsonb : ∀ value cell, db.bind .jsonb (some value) = .ok cell →
    ∃ it, cell = some it ∧ db.bind .jsonb (db.load it) = .ok (some it)
  /-- A list of texts is one again. -/
  texts : ∀ items cell, db.bind .jsonb (some (Python.texts items)) = .ok cell →
    ∃ it, cell = some it ∧ db.load it = some (Python.texts items)

/-! ## Values of one column -/

/-- The bound parameter for a value of a column. -/
def boundBy (typed : Bool) (column : Column) (value : Option (Value φ ω)) :
    Option (BindParameter φ ω) :=
  let parameter (value : Option (Value φ ω)) :=
    if typed then some ⟨saTypeForColumn column.type, value⟩
    else (toSqlClause py value column.type).toOption
  match value with
  | none => parameter none
  | some value => (py.coerceForColumn column value).toOption.bind fun value => parameter (some value)

/-- The cell that is stored for a value of a nullable column. -/
def storedAs (typed : Bool) (column : Column) (value : Option (Value φ ω)) : Option (Option δ) :=
  (boundBy py typed column value).bind fun bound => (db.bind bound.type bound.value).toOption

def WritePath.typed : WritePath → Bool
  | .batchInsertRows => true
  | _ => false

variable {py db table}

/-! ### Coerced values -/

theorem clause_multiSelect (items : List String) :
    toSqlClause py (some (Python.texts items)) .multiSelect =
      .ok ⟨.jsonb, some (Python.texts items)⟩ := by
  unfold toSqlClause unlessNone Python.texts Python.coerceMultiSelectValue
  dsimp only
  rw [Python.mapM_strOrNone]
  rfl

theorem clause_integer {number : ℤ} (hLow : Python.bigIntMin ≤ number)
    (hHigh : number ≤ Python.bigIntMax) :
    toSqlClause py (some (.int number)) .integer = .ok ⟨.bigInteger, some (.int number)⟩ := by
  unfold toSqlClause unlessNone
  dsimp only
  rw [Python.coerceIntegerValue_int hLow hHigh]
  rfl

theorem clause_numeric {number : Numerals.Dec} (hExact : number.exact = true) :
    toSqlClause py (some (.decimal (.finite number))) .numeric =
      .ok ⟨.numeric, some (.decimal (.finite number))⟩ := by
  unfold toSqlClause unlessNone
  dsimp only
  rw [Python.coerceNumericValue_decimal hExact]
  rfl

theorem clause_timestamptz (wall : Fin (maxDays * microsOfDay)) :
    toSqlClause py (some (.datetime ⟨wall, some 0⟩)) .timestamptz =
      .ok ⟨.timestamptz, some (.datetime ⟨wall, some 0⟩)⟩ := by
  unfold toSqlClause unlessNone Python.coerceToUtcDatetime
  dsimp only
  rw [Python.toUtc_utc]
  rfl

/-- What a coerced value is, by the type of its column. -/
def Coerced (type : SqlType) (value : Value φ ω) : Prop :=
  match type with
  | .select => ∃ text, value = .str text
  | .multiSelect => ∃ items, value = Python.texts items
  | .timestamptz => ∃ wall, value = .datetime ⟨wall, some 0⟩
  | .integer => ∃ number, value = .int number ∧ Python.bigIntMin ≤ number ∧
      number ≤ Python.bigIntMax
  | .numeric => ∃ number, value = .decimal (.finite number) ∧ number.exact = true
  | .date => ∃ day, value = .date day
  | .text | .boolean | .jsonb => True

theorem coerceForColumn_coerced {column : Column} {value coerced : Value φ ω}
    (hOk : py.coerceForColumn column value = .ok coerced) : Coerced column.type coerced := by
  unfold Python.coerceForColumn at hOk
  unfold Coerced
  cases hType : column.type <;> rw [hType] at hOk <;> dsimp only at hOk ⊢
  case select =>
    obtain ⟨text, -, rfl⟩ := Checks.map_eq_ok.mp hOk
    exact ⟨text, rfl⟩
  case multiSelect =>
    obtain ⟨items, -, rfl⟩ := Checks.map_eq_ok.mp hOk
    exact ⟨items, rfl⟩
  case timestamptz =>
    obtain ⟨it, hIt, rfl⟩ := Checks.map_eq_ok.mp hOk
    have hOffset : it.offset = some 0 := by
      unfold Python.coerceToUtcDatetime at hIt
      split at hIt
      · exact Python.toUtc_offset hIt
      · exact Python.toUtc_offset hIt
      · split at hIt
        · exact Python.toUtc_offset hIt
        · cases hIt
      · obtain ⟨_, -, hUtc⟩ := Checks.bind_eq_ok.mp hIt
        exact Python.toUtc_offset hUtc
      · obtain ⟨_, -, hUtc⟩ := Checks.bind_eq_ok.mp hIt
        exact Python.toUtc_offset hUtc
      · obtain ⟨_, -, hUtc⟩ := Checks.bind_eq_ok.mp hIt
        exact Python.toUtc_offset hUtc
      · cases hIt
    obtain ⟨wall, offset⟩ := it
    exact ⟨wall, by rw [show offset = some 0 from hOffset]⟩
  case integer =>
    obtain ⟨number, hNumber, rfl⟩ := Checks.map_eq_ok.mp hOk
    exact ⟨number, rfl, Python.coerceIntegerValue_range hNumber⟩
  case numeric =>
    obtain ⟨number, hNumber, rfl⟩ := Checks.map_eq_ok.mp hOk
    exact ⟨number, rfl, Python.coerceNumericValue_exact hNumber⟩
  case date =>
    obtain ⟨day, -, rfl⟩ := Checks.map_eq_ok.mp hOk
    exact ⟨day, rfl⟩

theorem toSqlClause_coerced {type : SqlType} {value : Value φ ω} (hText : type ≠ .text)
    (hBoolean : type ≠ .boolean) (hCoerced : Coerced type value) :
    toSqlClause py (some value) type = .ok ⟨saTypeForColumn type, some value⟩ := by
  cases type with
  | text => exact absurd rfl hText
  | boolean => exact absurd rfl hBoolean
  | jsonb => rfl
  | date =>
      obtain ⟨day, rfl⟩ := hCoerced
      rfl
  | select =>
      obtain ⟨text, rfl⟩ := hCoerced
      rfl
  | multiSelect =>
      obtain ⟨items, rfl⟩ := hCoerced
      exact clause_multiSelect items
  | integer =>
      obtain ⟨number, rfl, hLow, hHigh⟩ := hCoerced
      exact clause_integer hLow hHigh
  | numeric =>
      obtain ⟨number, rfl, hExact⟩ := hCoerced
      exact clause_numeric hExact
  | timestamptz =>
      obtain ⟨wall, rfl⟩ := hCoerced
      exact clause_timestamptz wall

theorem toSqlClause_none {type : SqlType} (hText : type ≠ .text) (hBoolean : type ≠ .boolean) :
    toSqlClause py none type = .ok ⟨saTypeForColumn type, none⟩ := by
  cases type with
  | text => exact absurd rfl hText
  | boolean => exact absurd rfl hBoolean
  | _ => rfl

/-- Besides texts and truth values, the paths bind the same parameter. -/
theorem boundBy_eq {column : Column} (hText : column.type ≠ .text)
    (hBoolean : column.type ≠ .boolean) (value : Option (Value φ ω)) :
    boundBy py false column value = boundBy py true column value := by
  unfold boundBy
  cases value with
  | none =>
      dsimp only
      rw [toSqlClause_none hText hBoolean]
      rfl
  | some value =>
      dsimp only
      cases hCoerce : py.coerceForColumn column value with
      | error error => rfl
      | ok coerced =>
          show (toSqlClause py (some coerced) column.type).toOption = _
          rw [toSqlClause_coerced hText hBoolean (coerceForColumn_coerced hCoerce)]
          rfl

theorem storedAs_eq {column : Column} (hText : column.type ≠ .text)
    (hBoolean : column.type ≠ .boolean) (value : Option (Value φ ω)) (typed : Bool) :
    storedAs py db typed column value = storedAs py db true column value := by
  cases typed with
  | true => rfl
  | false =>
      unfold storedAs
      rw [boundBy_eq hText hBoolean]

/-! ### What is read back -/

theorem storedAs_of_coerced {column : Column} {value : Value φ ω}
    (hCoerce : py.coerceForColumn column value = .ok value)
    (hClause : toSqlClause py (some value) column.type =
      .ok ⟨saTypeForColumn column.type, some value⟩) (typed : Bool) :
    storedAs py db typed column (some value) =
      (db.bind (saTypeForColumn column.type) (some value)).toOption := by
  unfold storedAs boundBy
  dsimp only
  rw [hCoerce]
  cases typed with
  | true => rfl
  | false =>
      show ((toSqlClause py (some value) column.type).toOption.bind _) = _
      rw [hClause]
      rfl

/-- The value that a cell is read as is stored as that cell. -/
def ReadsBack (py : Python φ ω) (db : Database φ ω δ) (column : Column) (cell : Option δ) : Prop :=
  ∃ it, cell = some it ∧ ∀ typed, storedAs py db typed column (db.load it) = some cell

theorem readsBack_of_load {column : Column} {cell : Option δ} {it : δ} {value : Value φ ω}
    (hCell : cell = some it) (hLoad : db.load it = some value)
    (hCoerce : py.coerceForColumn column value = .ok value)
    (hClause : toSqlClause py (some value) column.type =
      .ok ⟨saTypeForColumn column.type, some value⟩)
    (hBind : db.bind (saTypeForColumn column.type) (some value) = .ok cell) :
    ReadsBack py db column cell := by
  refine ⟨it, hCell, fun typed => ?_⟩
  rw [hLoad, storedAs_of_coerced hCoerce hClause, hBind]
  rfl

theorem coerceSelectValue_again {options : Option (List String)} {value : Value φ ω}
    {text : String} (hOk : py.coerceSelectValue options value = .ok text) :
    py.coerceSelectValue options (.str text) = .ok text := by
  obtain ⟨coerced, -, hChoice⟩ := Checks.bind_eq_ok.mp hOk
  refine Checks.bind_eq_ok.mpr ⟨text, rfl, ?_⟩
  cases hChoices : Python.choices options with
  | none => rfl
  | some found =>
      rw [hChoices] at hChoice
      dsimp only at hChoice ⊢
      by_cases hMem : coerced ∈ found
      · rw [if_pos hMem] at hChoice
        cases hChoice
        exact if_pos hMem
      · rw [if_neg hMem] at hChoice
        cases hChoice

theorem coerceMultiSelectValue_again {options : Option (List String)} {value : Value φ ω}
    {items : List String} (hOk : py.coerceMultiSelectValue options value = .ok items) :
    py.coerceMultiSelectValue options (Python.texts items) = .ok items := by
  unfold Python.coerceMultiSelectValue at hOk
  split at hOk
  · obtain ⟨coerced, -, hChoice⟩ := Checks.bind_eq_ok.mp hOk
    unfold Python.coerceMultiSelectValue Python.texts
    dsimp only at hChoice ⊢
    rw [Python.mapM_strOrNone]
    cases hChoices : Python.choices options with
    | none => rfl
    | some found =>
        rw [hChoices] at hChoice
        dsimp only at hChoice
        by_cases hMem : (coerced.filter fun item => item ∉ found).isEmpty = true
        · rw [if_pos hMem] at hChoice
          cases hChoice
          exact if_pos hMem
        · rw [if_neg hMem] at hChoice
          cases hChoice
  · cases hOk

/-- A coerced value that is stored is read back as one that is stored alike. -/
theorem readsBack_of_coerced (hDb : db.Lawful py) {column : Column} (hText : column.type ≠ .text)
    (hBoolean : column.type ≠ .boolean) {value coerced : Value φ ω} {cell : Option δ}
    (hCoerce : py.coerceForColumn column value = .ok coerced)
    (hBind : db.bind (saTypeForColumn column.type) (some coerced) = .ok cell) :
    ReadsBack py db column cell := by
  have hAgain {other : Value φ ω} (hOther : py.coerceForColumn column other = .ok other) :
      toSqlClause py (some other) column.type = .ok ⟨saTypeForColumn column.type, some other⟩ :=
    toSqlClause_coerced hText hBoolean (coerceForColumn_coerced hOther)
  have hCoerced := coerceForColumn_coerced hCoerce
  have hStays := hCoerce
  unfold Python.coerceForColumn at hCoerce
  cases hType : column.type with
  | text => exact absurd hType hText
  | boolean => exact absurd hType hBoolean
  | jsonb =>
      rw [hType] at hBind
      obtain ⟨it, hCell, hLoad⟩ := hDb.jsonb _ _ hBind
      refine ⟨it, hCell, fun typed => ?_⟩
      rw [hCell, storedAs_eq hText hBoolean]
      unfold storedAs boundBy Python.coerceForColumn
      rw [hType]
      cases hValue : db.load it with
      | none =>
          rw [hValue] at hLoad
          show (db.bind .jsonb none).toOption = _
          rw [hLoad]
          rfl
      | some other =>
          rw [hValue] at hLoad
          show (db.bind .jsonb (some other)).toOption = _
          rw [hLoad]
          rfl
  | select =>
      rw [hType] at hCoerce hBind
      obtain ⟨text, hValue, rfl⟩ := Checks.map_eq_ok.mp hCoerce
      obtain ⟨it, hCell, hLoad⟩ := hDb.string _ _ hBind
      have hOther : py.coerceForColumn column (.str text) = .ok (.str text) := by
        unfold Python.coerceForColumn
        rw [hType]
        dsimp only
        rw [coerceSelectValue_again hValue]
        rfl
      exact readsBack_of_load hCell hLoad hOther (hAgain hOther) (by rw [hType]; exact hBind)
  | multiSelect =>
      rw [hType] at hCoerce hBind
      obtain ⟨items, hValue, rfl⟩ := Checks.map_eq_ok.mp hCoerce
      obtain ⟨it, hCell, hLoad⟩ := hDb.texts _ _ hBind
      have hOther : py.coerceForColumn column (Python.texts items) = .ok (Python.texts items) := by
        unfold Python.coerceForColumn
        rw [hType]
        dsimp only
        rw [coerceMultiSelectValue_again hValue]
        rfl
      exact readsBack_of_load hCell hLoad hOther (hAgain hOther) (by rw [hType]; exact hBind)
  | date =>
      rw [hType] at hCoerce hBind
      obtain ⟨day, -, rfl⟩ := Checks.map_eq_ok.mp hCoerce
      obtain ⟨it, hCell, hLoad⟩ := hDb.date _ _ hBind
      have hOther : py.coerceForColumn column (.date day) = .ok (.date day) := by
        unfold Python.coerceForColumn
        rw [hType]
        rfl
      exact readsBack_of_load hCell hLoad hOther (hAgain hOther) (by rw [hType]; exact hBind)
  | timestamptz =>
      rw [hType] at hCoerced hBind
      obtain ⟨wall, rfl⟩ := hCoerced
      obtain ⟨it, hCell, hLoad⟩ := hDb.timestamptz _ _ hBind
      have hOther : py.coerceForColumn column (.datetime ⟨wall, some 0⟩) =
          .ok (.datetime ⟨wall, some 0⟩) := by
        unfold Python.coerceForColumn Python.coerceToUtcDatetime
        rw [hType]
        dsimp only
        rw [Python.toUtc_utc]
        rfl
      exact readsBack_of_load hCell hLoad hOther (hAgain hOther) (by rw [hType]; exact hBind)
  | integer =>
      rw [hType] at hCoerced hBind
      obtain ⟨number, rfl, hLow, hHigh⟩ := hCoerced
      obtain ⟨it, hCell, hLoad⟩ := hDb.bigInteger _ _ hBind
      have hOther : py.coerceForColumn column (.int number) = .ok (.int number) := by
        unfold Python.coerceForColumn
        rw [hType]
        dsimp only
        rw [Python.coerceIntegerValue_int hLow hHigh]
        rfl
      exact readsBack_of_load hCell hLoad hOther (hAgain hOther) (by rw [hType]; exact hBind)
  | numeric =>
      rw [hType] at hCoerced hBind
      obtain ⟨number, rfl, hExact⟩ := hCoerced
      obtain ⟨it, other, hCell, hLoad, hExactOther, hBindOther⟩ := hDb.numeric _ _ hExact hBind
      have hOther : py.coerceForColumn column (.decimal (.finite other)) =
          .ok (.decimal (.finite other)) := by
        unfold Python.coerceForColumn
        rw [hType]
        dsimp only
        rw [Python.coerceNumericValue_decimal hExactOther]
        rfl
      refine readsBack_of_load hCell hLoad hOther (hAgain hOther) ?_
      rw [hType, hCell]
      exact hBindOther

/-! ### One value -/

/-- Both ways store the same cell, `NULL` for `None`, and store it again when it is read
back, or both refuse a value that is not `None`. -/
def SameCell (py : Python φ ω) (db : Database φ ω δ) (column : Column)
    (value : Option (Value φ ω)) : Prop :=
  (∃ cell, (∀ typed, storedAs py db typed column value = some cell) ∧
    (value = none → cell = none) ∧
    ∀ it, cell = some it → ∀ typed, storedAs py db typed column (db.load it) = some cell) ∨
  value ≠ none ∧ ∀ typed, storedAs py db typed column value = none

/-- The text of a value is not stored. -/
def Refused (py : Python φ ω) (db : Database φ ω δ) (value : Value φ ω) : Prop :=
  ∀ text cell, py.str value = .ok text → db.bind .string (some (.str text)) ≠ .ok cell

/-- The truth value of the clause of a value. -/
def clauseBool (py : Python φ ω) (value : Value φ ω) : Option Bool :=
  (py.str value).toOption.bind boolOfText

/-- A null of a column that binds it as one; a text, or a value whose text is refused as
well; a value with the truth value that it equals; or a value of another column. -/
def Faithful (py : Python φ ω) (db : Database φ ω δ) (column : Column) :
    Option (Value φ ω) → Prop
  | none => column.type ≠ .text ∧ column.type ≠ .boolean ∧ column.type ≠ .jsonb ∧
      column.type ≠ .multiSelect
  | some value =>
      match column.type with
      | .text => (∃ text, value = .str text) ∨ Refused py db value
      | .boolean => clauseBool py value = py.strictBool value
      | _ => True

theorem sameCell_of_readsBack {column : Column} {value : Value φ ω} {cell : Option δ}
    (hStored : ∀ typed, storedAs py db typed column (some value) = some cell)
    (hReads : ReadsBack py db column cell) : SameCell py db column (some value) := by
  obtain ⟨it, hCell, hAgain⟩ := hReads
  refine .inl ⟨cell, hStored, nofun, fun other hOther => ?_⟩
  rw [hCell] at hOther
  cases hOther
  exact hAgain

theorem sameCell_other (hDb : db.Lawful py) {column : Column} (hText : column.type ≠ .text)
    (hBoolean : column.type ≠ .boolean) (value : Value φ ω) :
    SameCell py db column (some value) := by
  have hSame := @storedAs_eq _ _ _ py db column hText hBoolean (some value)
  cases hCoerce : py.coerceForColumn column value with
  | error error =>
      refine .inr ⟨nofun, fun typed => ?_⟩
      rw [hSame]
      unfold storedAs boundBy
      dsimp only
      rw [hCoerce]
      rfl
  | ok coerced =>
      have hStored : storedAs py db true column (some value) =
          (db.bind (saTypeForColumn column.type) (some coerced)).toOption := by
        unfold storedAs boundBy
        dsimp only
        rw [hCoerce]
        rfl
      cases hBind : db.bind (saTypeForColumn column.type) (some coerced) with
      | error message =>
          refine .inr ⟨nofun, fun typed => ?_⟩
          rw [hSame, hStored, hBind]
          rfl
      | ok cell =>
          refine sameCell_of_readsBack (fun typed => ?_)
            (readsBack_of_coerced hDb hText hBoolean hCoerce hBind)
          rw [hSame, hStored, hBind]
          rfl

theorem storedAs_none {column : Column} (hText : column.type ≠ .text)
    (hBoolean : column.type ≠ .boolean) (typed : Bool) :
    storedAs py db typed column none = (db.bind (saTypeForColumn column.type) none).toOption := by
  rw [storedAs_eq hText hBoolean]
  rfl

theorem storedAs_text_none {column : Column} (hType : column.type = .text) :
    storedAs py db false column none = (db.bind .string (some (.str "None"))).toOption := by
  unfold storedAs boundBy
  rw [hType]
  rfl

theorem storedAs_boolean_none {column : Column} (hType : column.type = .boolean) :
    storedAs py db false column none = none := by
  unfold storedAs boundBy
  rw [hType]
  rfl

theorem sameCell_none_iff (hDb : db.Lawful py) (column : Column) :
    SameCell py db column none ↔ Faithful py db column none := by
  by_cases hText : column.type = .text
  · refine ⟨fun hSame => ?_, fun hFaithful => absurd hText hFaithful.1⟩
    rcases hSame with ⟨cell, hStored, hNull, -⟩ | ⟨hNone, -⟩
    · have hClause := hStored false
      rw [storedAs_text_none hText, hNull rfl] at hClause
      cases hBind : db.bind .string (some (.str "None")) with
      | error message =>
          rw [hBind] at hClause
          cases hClause
      | ok cell =>
          obtain ⟨it, hCell, -⟩ := hDb.string _ _ hBind
          rw [hBind, hCell] at hClause
          cases hClause
    · exact absurd rfl hNone
  · by_cases hBoolean : column.type = .boolean
    · refine ⟨fun hSame => ?_, fun hFaithful => absurd hBoolean hFaithful.2.1⟩
      rcases hSame with ⟨cell, hStored, -, -⟩ | ⟨hNone, -⟩
      · have hClause := hStored false
        rw [storedAs_boolean_none hBoolean] at hClause
        cases hClause
      · exact absurd rfl hNone
    · by_cases hJson : saTypeForColumn column.type = .jsonb
      · obtain ⟨it, hBind⟩ := hDb.jsonNull
        constructor
        · rintro (⟨cell, hStored, hNull, -⟩ | ⟨hNone, -⟩)
          · have hTyped := hStored true
            rw [storedAs_none hText hBoolean, hJson, hBind, hNull rfl] at hTyped
            cases hTyped
          · exact absurd rfl hNone
        · rintro ⟨-, -, hJsonb, hMultiSelect⟩
          cases hType : column.type with
          | jsonb => exact absurd hType hJsonb
          | multiSelect => exact absurd hType hMultiSelect
          | _ =>
              rw [hType] at hJson
              cases hJson
      · have hFaithful : Faithful py db column none := by
          refine ⟨hText, hBoolean, fun hType => hJson ?_, fun hType => hJson ?_⟩ <;> rw [hType] <;> rfl
        refine ⟨fun _ => hFaithful, fun _ => .inl ⟨none, fun typed => ?_, fun _ => rfl, nofun⟩⟩
        rw [storedAs_none hText hBoolean, hDb.null _ hJson]
        rfl

/-! ### Texts -/

theorem storedAs_text {column : Column} (hType : column.type = .text) (value : Value φ ω) :
    storedAs py db false column (some value) = (py.str value).toOption.bind fun text =>
      (db.bind .string (some (.str text))).toOption := by
  unfold storedAs boundBy Python.coerceForColumn
  rw [hType]
  show (Except.toOption ((Except.map _ (py.str value)).map _)).bind _ = _
  cases py.str value <;> rfl

theorem storedAs_text_typed {column : Column} (hType : column.type = .text) (value : Value φ ω) :
    storedAs py db true column (some value) = (db.bind .string (some value)).toOption := by
  unfold storedAs boundBy Python.coerceForColumn
  rw [hType]
  rfl

theorem sameCell_text_iff (hDb : db.Lawful py) {column : Column} (hType : column.type = .text)
    (value : Value φ ω) :
    SameCell py db column (some value) ↔ (∃ text, value = .str text) ∨ Refused py db value := by
  by_cases hStr : ∃ text, value = .str text
  · refine ⟨fun _ => .inl hStr, fun _ => ?_⟩
    obtain ⟨text, rfl⟩ := hStr
    have hStored (text : String) (typed : Bool) : storedAs py db typed column (some (.str text)) =
        (db.bind .string (some (.str text))).toOption := by
      cases typed with
      | true => exact storedAs_text_typed hType _
      | false => exact storedAs_text hType _
    cases hBind : db.bind .string (some (.str text)) with
    | error message =>
        refine .inr ⟨nofun, fun typed => ?_⟩
        rw [hStored, hBind]
        rfl
    | ok cell =>
        obtain ⟨it, hCell, hLoad⟩ := hDb.string _ _ hBind
        refine sameCell_of_readsBack (fun typed => by rw [hStored, hBind]; rfl)
          ⟨it, hCell, fun typed => ?_⟩
        rw [hLoad, hStored, hBind]
        rfl
  · have hTyped : storedAs py db true column (some value) = none := by
      obtain ⟨message, hBind⟩ := hDb.onlyTexts value fun text hText => hStr ⟨text, hText⟩
      rw [storedAs_text_typed hType, hBind]
      rfl
    constructor
    · rintro (⟨cell, hStored, -⟩ | ⟨-, hStored⟩)
      · have hCell := hStored true
        rw [hTyped] at hCell
        cases hCell
      · -- the batch refuses the value, so the clause has to
        refine .inr fun text cell hText hBind => ?_
        have hClause := hStored false
        rw [storedAs_text hType, hText] at hClause
        rw [show (Except.toOption (.ok text : Except PyError String)) = some text from rfl,
          Option.bind_some, hBind] at hClause
        cases hClause
    · rintro (hText | hRefused)
      · exact absurd hText hStr
      · refine .inr ⟨nofun, fun typed => ?_⟩
        cases typed with
        | true => exact hTyped
        | false =>
            rw [storedAs_text hType]
            cases hText : py.str value with
            | error error => rfl
            | ok text =>
                show (db.bind .string (some (.str text))).toOption = none
                cases hBind : db.bind .string (some (.str text)) with
                | error message => rfl
                | ok cell => exact absurd hBind (hRefused text cell hText)

/-! ### Truth values -/

theorem clauseBool_bool (flag : Bool) : clauseBool py (.bool flag) = some flag := by
  cases flag <;> rfl

theorem storedAs_boolean {column : Column} (hType : column.type = .boolean) (value : Value φ ω) :
    storedAs py db false column (some value) = (clauseBool py value).bind fun flag =>
      (db.bind .boolean (some (.bool flag))).toOption := by
  unfold storedAs boundBy Python.coerceForColumn clauseBool
  rw [hType]
  show (Except.toOption ((py.str value >>= fun text => _).map _)).bind _ = _
  cases py.str value with
  | error error => rfl
  | ok text =>
      show (Except.toOption (Except.map _ (match boolOfText text with
        | some flag => .ok (some (.bool flag))
        | none => .error _ : Except PyError (Option (Value φ ω))))).bind _ =
          (boolOfText text).bind _
      cases boolOfText text <;> rfl

theorem storedAs_boolean_typed {column : Column} (hType : column.type = .boolean)
    (value : Value φ ω) :
    storedAs py db true column (some value) = (db.bind .boolean (some value)).toOption := by
  unfold storedAs boundBy Python.coerceForColumn
  rw [hType]
  rfl

theorem bind_bool (hDb : db.Lawful py) (flag : Bool) :
    ∃ it, db.bind .boolean (some (.bool flag)) = .ok (some it) ∧ db.load it = some (.bool flag) := by
  obtain ⟨it, hBind, -, hLoad⟩ := hDb.boolean (.bool flag)
  exact ⟨it, hBind, hLoad⟩

theorem storedAs_bool {column : Column} (hType : column.type = .boolean)
    {flag : Bool} (typed : Bool) : storedAs py db typed column (some (.bool flag)) =
      (db.bind .boolean (some (.bool flag))).toOption := by
  cases typed with
  | true => exact storedAs_boolean_typed hType _
  | false => rw [storedAs_boolean hType, clauseBool_bool, Option.bind_some]

theorem sameCell_boolean_iff (hDb : db.Lawful py) {column : Column}
    (hType : column.type = .boolean) (value : Value φ ω) :
    SameCell py db column (some value) ↔ clauseBool py value = py.strictBool value := by
  have hStrict := hDb.boolean value
  cases hTyped : py.strictBool value with
  | none =>
      rw [hTyped] at hStrict
      obtain ⟨message, hRefused⟩ := hStrict
      have hBatch : storedAs py db true column (some value) = none := by
        rw [storedAs_boolean_typed hType, hRefused]
        rfl
      cases hClause : clauseBool py value with
      | none =>
          refine ⟨fun _ => rfl, fun _ => .inr ⟨nofun, fun typed => ?_⟩⟩
          cases typed with
          | true => exact hBatch
          | false =>
              rw [storedAs_boolean hType, hClause]
              rfl
      | some flag =>
          refine ⟨fun hSame => ?_, nofun⟩
          rcases hSame with ⟨cell, hStored, -⟩ | ⟨-, hStored⟩
          · have hHere := hStored true
            rw [hBatch] at hHere
            cases hHere
          · have hHere := hStored false
            obtain ⟨it, hBind, -⟩ := bind_bool hDb flag
            rw [storedAs_boolean hType, hClause, Option.bind_some, hBind] at hHere
            cases hHere
  | some flag =>
      rw [hTyped] at hStrict
      obtain ⟨it, hBatch, hBind, hLoad⟩ := hStrict
      have hStored : storedAs py db true column (some value) = some (some it) := by
        rw [storedAs_boolean_typed hType, hBatch]
        rfl
      constructor
      · rintro (⟨cell, hBoth, -⟩ | ⟨-, hNone⟩)
        · have hTrue := hBoth true
          have hFalse := hBoth false
          rw [hStored] at hTrue
          rw [← hTrue, storedAs_boolean hType] at hFalse
          cases hClause : clauseBool py value with
          | none =>
              rw [hClause] at hFalse
              cases hFalse
          | some other =>
              -- the cell is read as one truth value
              obtain ⟨found, hFound, hRead⟩ := bind_bool hDb other
              rw [hClause, Option.bind_some, hFound] at hFalse
              cases hFalse
              rw [hLoad] at hRead
              cases hRead
              rfl
        · have hTrue := hNone true
          rw [hStored] at hTrue
          cases hTrue
      · intro hClause
        refine sameCell_of_readsBack (fun typed => ?_) ⟨it, rfl, fun typed => ?_⟩
        · cases typed with
          | true => exact hStored
          | false =>
              rw [storedAs_boolean hType, hClause, Option.bind_some, hBind]
              rfl
        · rw [hLoad, storedAs_bool hType, hBind]
          rfl

theorem sameCell_iff (hDb : db.Lawful py) (column : Column) (value : Option (Value φ ω)) :
    SameCell py db column value ↔ Faithful py db column value := by
  cases value with
  | none => exact sameCell_none_iff hDb column
  | some value =>
      unfold Faithful
      cases hType : column.type with
      | text => exact sameCell_text_iff hDb hType value
      | boolean => exact sameCell_boolean_iff hDb hType value
      | _ =>
          exact iff_of_true (sameCell_other hDb (by rw [hType]; exact nofun)
            (by rw [hType]; exact nofun) value) trivial

/-! ## Rows -/

/-- What a path stores for one value of a row. -/
def WritePath.storeCell (py : Python φ ω) (db : Database φ ω δ) (table : Table) (path : WritePath)
    (cell : String × Option (Value φ ω)) : Except WriteError (String × Option δ) :=
  ((normalizeRowInput py.coerceInput table cell).mapError .input >>= path.parameter py table) >>= db.store table

theorem normalizeRowInputs_eq_ok {data normalised : List (String × Option (Value φ ω))} :
    (normalizeRowInputs py.coerceInput table data).mapError WriteError.input = .ok normalised ↔
      data.mapM (fun cell => (normalizeRowInput py.coerceInput table cell).mapError
        WriteError.input) = .ok normalised := by
  unfold normalizeRowInputs
  rw [Checks.mapError_eq_ok, Checks.mapM_eq_ok_iff, Checks.mapM_eq_ok_iff]
  simp only [Checks.mapError_eq_ok]

theorem write_eq_ok {path : WritePath} {data : List (String × Option (Value φ ω))}
    {cells : List (String × Option δ)} :
    path.write py db table data = .ok cells ↔
      path.check table (data.map Prod.fst) = .ok () ∧
        List.Forall₂ (fun cell out => path.storeCell py db table cell = .ok out) data cells := by
  have hPasses : List.Forall₂ (fun cell out => path.storeCell py db table cell = .ok out)
      data cells ↔ ∃ normalised bound,
        (normalizeRowInputs py.coerceInput table data).mapError WriteError.input = .ok normalised ∧
        normalised.mapM (path.parameter py table) = .ok bound ∧
          bound.mapM (db.store table) = .ok cells := by
    unfold WritePath.storeCell
    rw [← Checks.mapM_mapM_eq_ok_iff, Checks.bind_eq_ok]
    constructor
    · rintro ⟨bound, hBound, hCells⟩
      rw [Checks.mapM_eq_ok_iff, ← Checks.mapM_mapM_eq_ok_iff, Checks.bind_eq_ok] at hBound
      obtain ⟨normalised, hNormalised, hParameters⟩ := hBound
      exact ⟨normalised, bound, normalizeRowInputs_eq_ok.mpr hNormalised, hParameters, hCells⟩
    · rintro ⟨normalised, bound, hNormalised, hParameters, hCells⟩
      refine ⟨bound, ?_, hCells⟩
      rw [Checks.mapM_eq_ok_iff, ← Checks.mapM_mapM_eq_ok_iff, Checks.bind_eq_ok]
      exact ⟨normalised, normalizeRowInputs_eq_ok.mp hNormalised, hParameters⟩
  unfold WritePath.write
  rw [hPasses, Checks.bind_eq_ok]
  constructor
  · rintro ⟨normalised, hNormalised, hRest⟩
    obtain ⟨bound, hBound, hRest⟩ := Checks.bind_eq_ok.mp hRest
    obtain ⟨hCheck, hCells⟩ := Checks.then_eq_ok.mp hRest
    exact ⟨hCheck, normalised, bound, hNormalised, hBound, hCells⟩
  · rintro ⟨hCheck, normalised, bound, hNormalised, hBound, hCells⟩
    exact ⟨normalised, hNormalised, Checks.bind_eq_ok.mpr ⟨bound, hBound,
      Checks.then_eq_ok.mpr ⟨hCheck, hCells⟩⟩⟩

theorem storeCell_eq_ok {path : WritePath} {column : Column}
    (hColumn : table.column? column.name = some column) {value : Option (Value φ ω)}
    {out : String × Option δ} :
    path.storeCell py db table (column.name, value) = .ok out ↔
      ∃ cell, storedAs py db path.typed column value = some cell ∧
        (cell = none → column.nullable = true) ∧ out = (column.name, cell) := by
  have hStore (bound : BindParameter φ ω) : db.store table (column.name, bound) = .ok out ↔
      ∃ cell, (db.bind bound.type bound.value).toOption = some cell ∧
        (cell = none → column.nullable = true) ∧ out = (column.name, cell) := by
    unfold Database.store
    dsimp only
    rw [hColumn]
    cases db.bind bound.type bound.value with
    | error message => exact ⟨nofun, nofun⟩
    | ok cell =>
        cases cell with
        | some it =>
            refine ⟨fun hOut => ⟨some it, rfl, nofun, ?_⟩, ?_⟩
            · cases hOut
              rfl
            · rintro ⟨cell, hCell, -, rfl⟩
              cases hCell
              rfl
        | none =>
            show (if column.nullable = true then _ else _) = _ ↔ _
            constructor
            · intro hOut
              split at hOut
              · next hNullable =>
                  cases hOut
                  exact ⟨none, rfl, fun _ => hNullable, rfl⟩
              · cases hOut
            · rintro ⟨cell, hCell, hNullable, rfl⟩
              cases hCell
              exact if_pos (hNullable rfl)
  have hParameter (value : Option (Value φ ω)) :
      (path.parameter py table (column.name, value) >>= db.store table) = .ok out ↔
        ∃ cell, ((if path.typed then some ⟨saTypeForColumn column.type, value⟩
          else (toSqlClause py value column.type).toOption).bind fun bound =>
            (db.bind bound.type bound.value).toOption) = some cell ∧
          (cell = none → column.nullable = true) ∧ out = (column.name, cell) := by
    unfold WritePath.parameter
    dsimp only
    rw [hColumn]
    cases path with
    | batchInsertRows => exact hStore _
    | _ =>
        dsimp only
        cases toSqlClause py value column.type with
        | error error => exact ⟨nofun, nofun⟩
        | ok clause => exact hStore clause
  unfold WritePath.storeCell normalizeRowInput Python.coerceInput storedAs boundBy
  dsimp only
  rw [hColumn]
  cases value with
  | none => exact hParameter none
  | some value =>
      dsimp only
      cases py.coerceForColumn column value with
      | error error => exact ⟨nofun, nofun⟩
      | ok coerced => exact hParameter (some coerced)

/-! ## Every path -/

/-- Every path stores the same cell for a value of a row, `NULL` for `None`, and stores it
again when it is read back, or every path refuses the row. -/
def SameOnEveryPath (py : Python φ ω) (db : Database φ ω δ) (table : Table) (column : String)
    (rest : List (String × Option (Value φ ω))) (cells : List (String × Option δ))
    (value : Option (Value φ ω)) : Prop :=
  (∃ cell, (∀ path : WritePath,
      path.write py db table ((column, value) :: rest) = .ok ((column, cell) :: cells)) ∧
    (value = none → cell = none) ∧
    ∀ it, cell = some it → ∀ path : WritePath,
      path.write py db table ((column, db.load it) :: rest) = .ok ((column, cell) :: cells)) ∨
  value ≠ none ∧ ∀ (path : WritePath) out,
    path.write py db table ((column, value) :: rest) ≠ .ok out

theorem storedAs_ne_null (hDb : db.Lawful py) {column : Column} {value : Value φ ω}
    {cell : Option δ} {typed : Bool}
    (hStored : storedAs py db typed column (some value) = some cell) : cell ≠ none := by
  have hIt (it : δ) (hCell : cell = some it) : cell ≠ none := by
    rw [hCell]
    exact nofun
  by_cases hText : column.type = .text
  · have hString (text : String)
        (hBind : (db.bind .string (some (.str text))).toOption = some cell) : cell ≠ none := by
      cases hOk : db.bind .string (some (.str text)) with
      | error message =>
          rw [hOk] at hBind
          cases hBind
      | ok found =>
          rw [hOk] at hBind
          cases hBind
          obtain ⟨it, hCell, -⟩ := hDb.string _ _ hOk
          exact hIt it hCell
    cases typed with
    | false =>
        rw [storedAs_text hText] at hStored
        obtain ⟨text, -, hBind⟩ := Option.bind_eq_some_iff.mp hStored
        exact hString text hBind
    | true =>
        rw [storedAs_text_typed hText] at hStored
        by_cases hStr : ∃ text, value = .str text
        · obtain ⟨text, rfl⟩ := hStr
          exact hString text hStored
        · obtain ⟨message, hBind⟩ := hDb.onlyTexts value fun text hEq => hStr ⟨text, hEq⟩
          rw [hBind] at hStored
          cases hStored
  · by_cases hBoolean : column.type = .boolean
    · cases typed with
      | false =>
          rw [storedAs_boolean hBoolean] at hStored
          obtain ⟨flag, -, hBind⟩ := Option.bind_eq_some_iff.mp hStored
          obtain ⟨it, hOk, -⟩ := bind_bool hDb flag
          rw [hOk] at hBind
          cases hBind
          exact nofun
      | true =>
          rw [storedAs_boolean_typed hBoolean] at hStored
          have hStrict := hDb.boolean value
          cases hTruth : py.strictBool value with
          | none =>
              rw [hTruth] at hStrict
              obtain ⟨message, hBind⟩ := hStrict
              rw [hBind] at hStored
              cases hStored
          | some flag =>
              rw [hTruth] at hStrict
              obtain ⟨it, hBind, -⟩ := hStrict
              rw [hBind] at hStored
              cases hStored
              exact nofun
    · rw [storedAs_eq hText hBoolean] at hStored
      obtain ⟨bound, hBound, hBind⟩ := Option.bind_eq_some_iff.mp hStored
      obtain ⟨coerced, hCoerced, hTyped⟩ := Option.bind_eq_some_iff.mp hBound
      cases hTyped
      cases hCoerce : py.coerceForColumn column value with
      | error error =>
          rw [hCoerce] at hCoerced
          cases hCoerced
      | ok found =>
          rw [hCoerce] at hCoerced
          cases hCoerced
          cases hOk : db.bind (saTypeForColumn column.type) (some coerced) with
          | error message =>
              rw [hOk] at hBind
              cases hBind
          | ok stored =>
              rw [hOk] at hBind
              cases hBind
              obtain ⟨it, hCell, -⟩ := readsBack_of_coerced hDb hText hBoolean hCoerce hOk
              exact hIt it hCell

section Rows

variable {column : Column} {rest : List (String × Option (Value φ ω))}
  {cells : List (String × Option δ)}

theorem check_of_upsert {names : List String} (hUpsert : checkUpsert table names = .ok ())
    (path : WritePath) : path.check table names = .ok () := by
  cases path with
  | upsertRow => exact hUpsert
  | _ => rfl

theorem storeCell_congr {path other : WritePath} (hTyped : path.typed = other.typed)
    (cell : String × Option (Value φ ω)) :
    path.storeCell py db table cell = other.storeCell py db table cell := by
  cases path <;> cases other <;> first | rfl | cases hTyped

theorem write_cons_eq_ok (hColumn : table.column? column.name = some column)
    (hInsert : WritePath.insertRow.write py db table rest = .ok cells)
    (hBatch : WritePath.batchInsertRows.write py db table rest = .ok cells)
    (hUpsert : checkUpsert table (column.name :: rest.map Prod.fst) = .ok ())
    (path : WritePath) {value : Option (Value φ ω)} {out : List (String × Option δ)} :
    path.write py db table ((column.name, value) :: rest) = .ok out ↔
      ∃ cell, storedAs py db path.typed column value = some cell ∧
        (cell = none → column.nullable = true) ∧ out = (column.name, cell) :: cells := by
  have hRest : List.Forall₂ (fun cell out => path.storeCell py db table cell = .ok out)
      rest cells := by
    have hSame (other : WritePath) (hOther : other.write py db table rest = .ok cells)
        (hTyped : path.typed = other.typed) :
        List.Forall₂ (fun cell out => path.storeCell py db table cell = .ok out) rest cells := by
      refine (write_eq_ok.mp hOther).2.imp fun cell found hFound => ?_
      rw [storeCell_congr hTyped]
      exact hFound
    cases path with
    | batchInsertRows => exact hSame .batchInsertRows hBatch rfl
    | _ => exact hSame .insertRow hInsert rfl
  rw [write_eq_ok]
  constructor
  · rintro ⟨-, hCells⟩
    cases hCells with
    | cons hCell hOthers =>
        obtain ⟨cell, hStored, hNull, rfl⟩ := (storeCell_eq_ok hColumn).mp hCell
        refine ⟨cell, hStored, hNull, ?_⟩
        -- the other values are stored in one way
        have hOk := Checks.mapM_eq_ok_iff.mpr hOthers
        rw [Checks.mapM_eq_ok_iff.mpr hRest] at hOk
        cases hOk
        rfl
  · rintro ⟨cell, hStored, hNull, rfl⟩
    exact ⟨check_of_upsert hUpsert path,
      .cons ((storeCell_eq_ok hColumn).mpr ⟨cell, hStored, hNull, rfl⟩) hRest⟩

end Rows

theorem exists_path (typed : Bool) : ∃ path : WritePath, path.typed = typed := by
  cases typed with
  | true => exact ⟨.batchInsertRows, rfl⟩
  | false => exact ⟨.insertRow, rfl⟩

/-- Python without floats and other objects. -/
def plainPython : Python Empty Empty where
  unicodeDigit _ := none
  className it := it.elim
  repr _ := "..."
  text _ := .ok "..."
  fromTimestamp _ := .error (.other "OverflowError" "date value out of range")
  fromIsoFormat _ := none
  dateFromIsoFormat _ := none
  floatBool it := it.elim
  objectBool it := it.elim

/-- A database that stores the values themselves; `None` is a JSON value. -/
def plainDatabase : Database Empty Empty (Option (Value Empty Empty)) where
  bind
    | .jsonb, value => .ok (some value)
    | _, none => .ok none
    | .string, some (.str text) => .ok (some (some (.str text)))
    | .bigInteger, some (.int number) => .ok (some (some (.int number)))
    | .numeric, some (.decimal (.finite number)) => .ok (some (some (.decimal (.finite number))))
    | .date, some (.date day) => .ok (some (some (.date day)))
    | .timestamptz, some (.datetime it) => .ok (some (some (.datetime it)))
    | .boolean, some value =>
        match plainPython.strictBool value with
        | some flag => .ok (some (some (.bool flag)))
        | none => .error "Not a boolean value"
    | _, some _ => .error "invalid input for query argument"
  load it := it

theorem plainDatabase_lawful : plainDatabase.Lawful plainPython where
  null type hType := by
    cases type with
    | jsonb => exact absurd rfl hType
    | _ => rfl
  jsonNull := ⟨none, rfl⟩
  onlyTexts value hValue := by
    cases value with
    | str text => exact absurd rfl (hValue text)
    | _ => exact ⟨_, rfl⟩
  string text cell hBind := by
    cases hBind
    exact ⟨_, rfl, rfl⟩
  boolean value := by
    have hFlag (flag : Bool) : plainDatabase.bind .boolean (some (.bool flag)) =
        .ok (some (some (.bool flag))) := rfl
    have hBind : plainDatabase.bind .boolean (some value) =
        (match plainPython.strictBool value with
          | some flag => .ok (some (some (.bool flag)))
          | none => .error "Not a boolean value") := rfl
    rw [hBind]
    cases plainPython.strictBool value with
    | none => exact ⟨_, rfl⟩
    | some flag => exact ⟨_, rfl, hFlag flag, rfl⟩
  bigInteger number cell hBind := by
    cases hBind
    exact ⟨_, rfl, rfl⟩
  numeric number cell hExact hBind := by
    cases hBind
    exact ⟨_, number, rfl, rfl, hExact, rfl⟩
  date day cell hBind := by
    cases hBind
    exact ⟨_, rfl, rfl⟩
  timestamptz wall cell hBind := by
    cases hBind
    exact ⟨_, rfl, rfl⟩
  jsonb value cell hBind := by
    cases hBind
    exact ⟨_, rfl, rfl⟩
  texts items cell hBind := by
    cases hBind
    exact ⟨_, rfl, rfl⟩

/-- A nullable column of texts besides the index. -/
def notesTable : Table where
  name := "notes"
  columns := [⟨"k", .text, false, none⟩, ⟨"note", .text, true, none⟩]
  indexes := [["k"]]

end Tables
end Tracecat
