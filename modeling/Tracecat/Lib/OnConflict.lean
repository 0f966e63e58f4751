import Mathlib.Data.List.Basic
import Mathlib.Data.List.Perm.Basic
import Mathlib.Logic.Function.Basic

/-!
# `INSERT ... ON CONFLICT`

Inserts into a table with one unique index on one column.  A row of a table is its cells,
`none` for `NULL`; rows with `NULL` in the index never conflict.

Steps with different keys may change places: two lists of the same steps do the same when
the steps of each key come in one order in both of them (`Commuting`).
-/

namespace Tracecat
namespace Commuting

variable {σ α κ : Type*} [DecidableEq κ]

def hasKey (key : α → Option κ) (value : κ) (item : α) : Bool := decide (key item = some value)

def Apart (key : α → Option κ) (first second : α) : Prop :=
  ∀ value, key first = some value → key second ≠ some value

/-- Steps up to an equivalence of states, which change places where they are apart. -/
structure Steps (key : α → Option κ) (step : σ → α → σ) (same : σ → σ → Prop) : Prop where
  refl : ∀ state, same state state
  symm : ∀ {first second}, same first second → same second first
  trans : ∀ {first second third}, same first second → same second third → same first third
  congr : ∀ {first second} item, same first second → same (step first item) (step second item)
  swap : ∀ state first second, Apart key first second →
    same (step (step state first) second) (step (step state second) first)

variable {key : α → Option κ} {step : σ → α → σ} {same : σ → σ → Prop}

omit [DecidableEq κ] in
theorem Apart.symm {first second : α} (hApart : Apart key first second) :
    Apart key second first :=
  fun value hSecond hFirst => hApart value hFirst hSecond

namespace Steps

omit [DecidableEq κ] in
theorem foldl_congr (hSteps : Steps key step same) (items : List α) {first second : σ}
    (hSame : same first second) : same (items.foldl step first) (items.foldl step second) := by
  induction items generalizing first second with
  | nil => exact hSame
  | cons item items ih => exact ih (hSteps.congr item hSame)

omit [DecidableEq κ] in
theorem foldl_front (hSteps : Steps key step same) (before after : List α) (item : α)
    (hApart : ∀ other ∈ before, Apart key item other) (state : σ) :
    same ((before ++ item :: after).foldl step state) ((item :: (before ++ after)).foldl step state) := by
  induction before generalizing state with
  | nil => exact hSteps.refl _
  | cons other before ih =>
      obtain ⟨hOther, hRest⟩ := List.forall_mem_cons.mp hApart
      refine hSteps.trans (ih hRest (step state other)) ?_
      exact hSteps.foldl_congr (before ++ after) (hSteps.swap state other item hOther.symm)

theorem foldl_same (hSteps : Steps key step same) {items others : List α}
    (hPerm : items.Perm others)
    (hOrder : ∀ value, items.filter (hasKey key value) = others.filter (hasKey key value))
    (state : σ) :
    same (items.foldl step state) (others.foldl step state) := by
  induction items generalizing others state with
  | nil =>
      rw [List.nil_perm.mp hPerm]
      exact hSteps.refl _
  | cons item items ih =>
      -- the step comes first among the others of its key
      have hSplit : ∃ before after, others = before ++ item :: after ∧
          ∀ other ∈ before, Apart key item other := by
        cases hKey : key item with
        | none =>
            obtain ⟨before, after, hOthers⟩ :=
              List.append_of_mem (hPerm.subset List.mem_cons_self)
            refine ⟨before, after, hOthers, fun other _ value hValue => ?_⟩
            rw [hKey] at hValue
            cases hValue
        | some value =>
            have hHere : hasKey key value item = true := decide_eq_true hKey
            have hFilter := hOrder value
            rw [List.filter_cons_of_pos hHere] at hFilter
            obtain ⟨before, after, hOthers, hBefore, -, -⟩ :=
              List.filter_eq_cons_iff.mp hFilter.symm
            refine ⟨before, after, hOthers, fun other hOther found hFound hSame => ?_⟩
            rw [hKey, Option.some.injEq] at hFound
            exact hBefore other hOther (decide_eq_true (hFound ▸ hSame))
      obtain ⟨before, after, rfl, hApart⟩ := hSplit
      have hFront := hSteps.foldl_front before after item hApart state
      refine hSteps.trans ?_ (hSteps.symm hFront)
      refine ih ((hPerm.trans List.perm_middle).cons_inv) (fun value => ?_) (step state item)
      have hFilter := hOrder value
      by_cases hKey : hasKey key value item = true
      · have hNone : before.filter (hasKey key value) = [] := by
          refine List.filter_eq_nil_iff.mpr fun other hOther hSame => ?_
          exact hApart other hOther value (of_decide_eq_true hKey) (of_decide_eq_true hSame)
        rw [List.filter_append, List.filter_cons_of_pos hKey, hNone,
          List.filter_cons_of_pos hKey] at hFilter
        rw [List.filter_append, hNone]
        exact (List.cons.inj hFilter).2
      · rw [List.filter_append, List.filter_cons_of_neg hKey,
          List.filter_cons_of_neg hKey] at hFilter
        rw [List.filter_append]
        exact hFilter

end Steps
end Commuting

namespace OnConflict

variable {δ : Type} [DecidableEq δ]

abbrev Record (δ : Type) : Type := String → Option δ

/-- The cells that a statement gives for a row. -/
abbrev Given (δ : Type) : Type := List (String × Option δ)

inductive Action
  | error
  | doNothing
  | doUpdate
  deriving DecidableEq, Repr

inductive DbError
  | uniqueViolation
  | cardinalityViolation
  | constraint
  deriving DecidableEq, Repr

/-- What a table is made of besides its rows: the defaults of its columns, its unique
index, the rows that break a constraint on a row (`NOT NULL`, `CHECK`), and what it
refuses for other reasons. -/
structure TableShape (δ : Type) where
  default : Record δ
  index : Option String
  breaks : Record δ → Bool
  rejects : Record δ → List (Record δ) → Bool

/-- The row that is inserted: the given cells, and else the defaults. -/
def TableShape.newRecord (shape : TableShape δ) (given : Given δ) : Record δ := fun column =>
  match given.lookup column with
  | some cell => cell
  | none => shape.default column

def TableShape.keyOf (shape : TableShape δ) (record : Record δ) : Option δ :=
  shape.index.bind record

/-- `SET column = COALESCE(excluded.column, column)` for the given columns besides the index. -/
def TableShape.coalesce (shape : TableShape δ) (given : Given δ) (record : Record δ) :
    Record δ := fun column =>
  if shape.index = some column then record column
  else ((given.lookup column).join).or (record column)

/-- A statement while it runs. -/
structure Progress (δ : Type) where
  rows : List (Record δ)
  touched : List δ
  affected : Nat

/-- The next row of `VALUES`.  The constraints on a row are checked before a conflict is
looked for. -/
def TableShape.insertOne (shape : TableShape δ) (action : Action) (progress : Progress δ)
    (given : Given δ) : Except DbError (Progress δ) :=
  let record := shape.newRecord given
  let insert : Except DbError (Progress δ) :=
    if shape.rejects record progress.rows then .error .constraint
    else .ok ⟨progress.rows ++ [record], (shape.keyOf record).toList ++ progress.touched,
      progress.affected + 1⟩
  if shape.breaks record then .error .constraint
  else
    match shape.keyOf record with
    | none => insert
    | some value =>
        match progress.rows.find? fun row => shape.keyOf row = some value with
        | none => insert
        | some found =>
            let updated := shape.coalesce given found
            match action with
            | .error => .error .uniqueViolation
            | .doNothing => .ok progress
            | .doUpdate =>
                if value ∈ progress.touched then .error .cardinalityViolation
                else if shape.breaks updated || shape.rejects updated progress.rows then
                  .error .constraint
                else
                  .ok ⟨progress.rows.map fun row =>
                      if shape.keyOf row = some value then shape.coalesce given row else row,
                    value :: progress.touched, progress.affected + 1⟩

/-- One statement, with the number of rows that it inserts or updates. -/
def TableShape.execute (shape : TableShape δ) (action : Action) (values : List (Given δ))
    (rows : List (Record δ)) : Except DbError (Nat × List (Record δ)) :=
  (values.foldlM (shape.insertOne action) ⟨rows, [], 0⟩).map fun progress =>
    (progress.affected, progress.rows)

/-! ## Rows one by one -/

variable (shape : TableShape δ)

/-- A column is given besides the index. -/
def TableShape.updates (given : Given δ) : Bool := given.any fun cell => shape.index ≠ some cell.1

/-- The index value that a row is inserted with. -/
def TableShape.givenKey (given : Given δ) : Option δ := shape.keyOf (shape.newRecord given)

/-- A row of the table has the index value. -/
def TableShape.Present (given : Given δ) (rows : List (Record δ)) : Prop :=
  (shape.givenKey given).isSome ∧ ∃ row ∈ rows, shape.keyOf row = shape.givenKey given

instance (given : Given δ) (rows : List (Record δ)) : Decidable (shape.Present given rows) :=
  inferInstanceAs (Decidable (_ ∧ _))

/-- The cells that are not null replace those of the row with the same index value. -/
def TableShape.replace (given : Given δ) (row : Record δ) : Record δ :=
  if shape.keyOf row = shape.givenKey given then shape.coalesce given row else row

/-- One row on its own: it replaces cells of a row of the table, or is inserted.  Counted
are the rows that are inserted or updated. -/
def TableShape.upsert (state : Nat × List (Record δ)) (given : Given δ) : Nat × List (Record δ) :=
  if shape.Present given state.2 then
    (if shape.updates given then state.1 + 1 else state.1, state.2.map (shape.replace given))
  else (state.1 + 1, state.2 ++ [shape.newRecord given])

def TableShape.upsertAll (values : List (Given δ)) (state : Nat × List (Record δ)) :
    Nat × List (Record δ) :=
  values.foldl shape.upsert state

variable {shape}

omit [DecidableEq δ] in
theorem keyOf_coalesce (given : Given δ) (row : Record δ) :
    shape.keyOf (shape.coalesce given row) = shape.keyOf row := by
  unfold TableShape.keyOf
  cases hIndex : shape.index with
  | none => rfl
  | some column =>
      show shape.coalesce given row column = row column
      rw [TableShape.coalesce, if_pos hIndex]

omit [DecidableEq δ] in
theorem coalesce_of_not_updates {given : Given δ} (hNone : shape.updates given = false)
    (row : Record δ) : shape.coalesce given row = row := by
  funext column
  unfold TableShape.coalesce
  split
  · rfl
  · next hColumn =>
      have hLookup : given.lookup column = none := by
        rw [List.lookup_eq_none_iff]
        intro cell hCell
        have hIndex := List.any_eq_false.mp hNone cell hCell
        have hSame : shape.index = some cell.1 := by simpa using hIndex
        rw [bne_iff_ne]
        rintro rfl
        exact hColumn hSame
      rw [hLookup]
      rfl

/-! ### Rows with different keys change places -/

@[simp] theorem keyOf_replace (given : Given δ) (row : Record δ) :
    shape.keyOf (shape.replace given row) = shape.keyOf row := by
  unfold TableShape.replace
  split
  · exact keyOf_coalesce given row
  · rfl

theorem replace_of_ne {given : Given δ} {row : Record δ}
    (hKey : shape.keyOf row ≠ shape.givenKey given) : shape.replace given row = row :=
  if_neg hKey

/-- Tables with the same rows, and equal counts. -/
def SameRows (first second : Nat × List (Record δ)) : Prop :=
  first.1 = second.1 ∧ first.2.Perm second.2

omit [DecidableEq δ] in
theorem present_perm {given : Given δ} {rows others : List (Record δ)} (hPerm : rows.Perm others) :
    shape.Present given rows ↔ shape.Present given others := by
  unfold TableShape.Present
  simp only [hPerm.mem_iff]

theorem present_map {given other : Given δ} {rows : List (Record δ)} :
    shape.Present given (rows.map (shape.replace other)) ↔ shape.Present given rows := by
  unfold TableShape.Present
  simp only [List.mem_map, exists_exists_and_eq_and, keyOf_replace]

omit [DecidableEq δ] in
theorem present_append {given other : Given δ} {rows : List (Record δ)}
    (hApart : Commuting.Apart shape.givenKey given other) :
    shape.Present given (rows ++ [shape.newRecord other]) ↔ shape.Present given rows := by
  constructor
  · rintro ⟨hSome, row, hRow, hKey⟩
    rcases List.mem_append.mp hRow with hOld | hNew
    · exact ⟨hSome, row, hOld, hKey⟩
    · obtain ⟨value, hValue⟩ := Option.isSome_iff_exists.mp hSome
      rw [List.mem_singleton.mp hNew, hValue] at hKey
      exact absurd hKey (hApart value hValue)
  · rintro ⟨hSome, row, hRow, hKey⟩
    exact ⟨hSome, row, List.mem_append_left _ hRow, hKey⟩

theorem replace_newRecord {given other : Given δ} {rows : List (Record δ)}
    (hApart : Commuting.Apart shape.givenKey given other) (hPresent : shape.Present given rows) :
    shape.replace given (shape.newRecord other) = shape.newRecord other := by
  obtain ⟨value, hValue⟩ := Option.isSome_iff_exists.mp hPresent.1
  apply replace_of_ne
  rw [hValue]
  exact hApart value hValue

theorem replace_comm {given other : Given δ} (hApart : Commuting.Apart shape.givenKey given other)
    {rows : List (Record δ)} (hPresent : shape.Present given rows) (row : Record δ) :
    shape.replace other (shape.replace given row) = shape.replace given (shape.replace other row) := by
  by_cases hKey : shape.keyOf row = shape.givenKey given
  · have hOther : shape.keyOf row ≠ shape.givenKey other := by
      obtain ⟨value, hValue⟩ := Option.isSome_iff_exists.mp hPresent.1
      rw [hKey, hValue]
      exact (hApart value hValue).symm
    have hAfter : shape.keyOf (shape.replace given row) ≠ shape.givenKey other :=
      keyOf_replace given row ▸ hOther
    rw [replace_of_ne hOther, replace_of_ne hAfter]
  · have hAfter : shape.keyOf (shape.replace other row) ≠ shape.givenKey given :=
      keyOf_replace other row ▸ hKey
    rw [replace_of_ne hKey, replace_of_ne hAfter]

theorem upsert_of_present {state : Nat × List (Record δ)} {given : Given δ}
    (hPresent : shape.Present given state.2) :
    shape.upsert state given = (if shape.updates given then state.1 + 1 else state.1,
      state.2.map (shape.replace given)) :=
  if_pos hPresent

theorem upsert_of_not_present {state : Nat × List (Record δ)} {given : Given δ}
    (hPresent : ¬ shape.Present given state.2) :
    shape.upsert state given = (state.1 + 1, state.2 ++ [shape.newRecord given]) :=
  if_neg hPresent

theorem upsert_congr {first second : Nat × List (Record δ)} (given : Given δ)
    (hSame : SameRows first second) :
    SameRows (shape.upsert first given) (shape.upsert second given) := by
  by_cases hPresent : shape.Present given first.2
  · rw [upsert_of_present hPresent, upsert_of_present ((present_perm hSame.2).mp hPresent), hSame.1]
    exact ⟨rfl, hSame.2.map _⟩
  · rw [upsert_of_not_present hPresent,
      upsert_of_not_present (mt (present_perm hSame.2).mpr hPresent), hSame.1]
    exact ⟨rfl, hSame.2.append_right _⟩

theorem upsert_swap_new {state : Nat × List (Record δ)} {given other : Given δ}
    (hApart : Commuting.Apart shape.givenKey given other)
    (hPresent : shape.Present given state.2) (hNew : ¬ shape.Present other state.2) :
    shape.upsert (shape.upsert state given) other =
      shape.upsert (shape.upsert state other) given := by
  rw [upsert_of_present hPresent, upsert_of_not_present hNew,
    upsert_of_not_present (mt present_map.mp hNew),
    upsert_of_present ((present_append hApart).mpr hPresent)]
  dsimp only
  rw [List.map_append, List.map_singleton, replace_newRecord hApart hPresent]
  split <;> rfl

theorem upsert_swap (state : Nat × List (Record δ)) (given other : Given δ)
    (hApart : Commuting.Apart shape.givenKey given other) :
    SameRows (shape.upsert (shape.upsert state given) other)
      (shape.upsert (shape.upsert state other) given) := by
  by_cases hGiven : shape.Present given state.2
  · by_cases hOther : shape.Present other state.2
    · rw [upsert_of_present hGiven, upsert_of_present hOther,
        upsert_of_present (present_map.mpr hOther), upsert_of_present (present_map.mpr hGiven)]
      refine ⟨by dsimp only; split <;> split <;> rfl, ?_⟩
      dsimp only
      rw [List.map_map, List.map_map]
      have hComm : shape.replace other ∘ shape.replace given =
          shape.replace given ∘ shape.replace other :=
        funext fun row => replace_comm hApart hGiven row
      rw [hComm]
    · rw [upsert_swap_new hApart hGiven hOther]
      exact ⟨rfl, List.Perm.refl _⟩
  · by_cases hOther : shape.Present other state.2
    · rw [← upsert_swap_new hApart.symm hOther hGiven]
      exact ⟨rfl, List.Perm.refl _⟩
    · rw [upsert_of_not_present hGiven, upsert_of_not_present hOther,
        upsert_of_not_present (mt (present_append hApart.symm).mp hOther),
        upsert_of_not_present (mt (present_append hApart).mp hGiven)]
      refine ⟨rfl, ?_⟩
      dsimp only
      rw [List.append_assoc, List.append_assoc]
      exact (List.Perm.swap _ _ _).append_left _

/-- Rows with different index values may be upserted in any order. -/
theorem commutingSteps : Commuting.Steps shape.givenKey shape.upsert SameRows where
  refl _ := ⟨rfl, List.Perm.refl _⟩
  symm hSame := ⟨hSame.1.symm, hSame.2.symm⟩
  trans hFirst hSecond := ⟨hFirst.1.trans hSecond.1, hFirst.2.trans hSecond.2⟩
  congr given hSame := upsert_congr given hSame
  swap state given other hApart := upsert_swap state given other hApart

/-! ### Statements -/

def Progress.state (progress : Progress δ) : Nat × List (Record δ) :=
  (progress.affected, progress.rows)

/-- A step of a statement that goes through does what its row does on its own. -/
theorem insertOne_ok {action : Action} {progress after : Progress δ} {given : Given δ}
    (hAction : action = if shape.updates given then .doUpdate else .doNothing)
    (hOk : shape.insertOne action progress given = .ok after) :
    after.state = shape.upsert progress.state given := by
  have hInsert (hNew : ¬ shape.Present given progress.rows) (touched : List δ)
      (hDone : (if shape.rejects (shape.newRecord given) progress.rows then .error .constraint
        else .ok ⟨progress.rows ++ [shape.newRecord given], touched, progress.affected + 1⟩ :
          Except DbError (Progress δ)) = .ok after) :
      after.state = shape.upsert progress.state given := by
    rw [upsert_of_not_present hNew]
    split at hDone
    · cases hDone
    · rw [← Except.ok.inj hDone]
      rfl
  unfold TableShape.insertOne at hOk
  dsimp only at hOk
  split at hOk
  · cases hOk
  split at hOk
  · next hKey =>
      refine hInsert (fun hPresent => ?_) _ hOk
      have hSome : (shape.keyOf (shape.newRecord given)).isSome := hPresent.1
      rw [hKey] at hSome
      cases hSome
  · next value hKey =>
      have hGiven : shape.givenKey given = some value := hKey
      split at hOk
      · next hNone =>
          refine hInsert (fun ⟨_, row, hRow, hSame⟩ => ?_) _ hOk
          rw [hGiven] at hSame
          exact absurd (decide_eq_true hSame) (List.find?_eq_none.mp hNone row hRow)
      · next found hFound =>
          have hPresent : shape.Present given progress.state.2 := by
            refine ⟨by rw [hGiven]; rfl, found, List.mem_of_find?_eq_some hFound, ?_⟩
            rw [hGiven]
            simpa using List.find?_some hFound
          rw [upsert_of_present hPresent]
          by_cases hUpdates : shape.updates given = true
          · rw [hAction, if_pos hUpdates] at hOk
            dsimp only at hOk
            split at hOk
            · cases hOk
            · split at hOk
              · cases hOk
              · rw [← Except.ok.inj hOk, if_pos hUpdates]
                unfold Progress.state TableShape.replace
                rw [hGiven]
          · rw [hAction, if_neg hUpdates] at hOk
            have hSame : shape.replace given = id := by
              funext row
              unfold TableShape.replace
              rw [coalesce_of_not_updates ((Bool.not_eq_true _).mp hUpdates), ite_self]
              rfl
            rw [← Except.ok.inj hOk, if_neg hUpdates, hSame, List.map_id]

theorem foldlM_insertOne_ok {action : Action} {values : List (Given δ)} {progress last : Progress δ}
    (hAction : ∀ given ∈ values, action = if shape.updates given then .doUpdate else .doNothing)
    (hRun : values.foldlM (shape.insertOne action) progress = .ok last) :
    shape.upsertAll values progress.state = last.state := by
  induction values generalizing progress with
  | nil => rw [← Except.ok.inj hRun]; rfl
  | cons given values ih =>
      obtain ⟨hHere, hRest⟩ := List.forall_mem_cons.mp hAction
      rw [List.foldlM_cons] at hRun
      cases hStep : shape.insertOne action progress given with
      | error error =>
          rw [hStep] at hRun
          cases hRun
      | ok next =>
          rw [hStep] at hRun
          have hState := ih hRest hRun
          rw [insertOne_ok hHere hStep] at hState
          exact hState

theorem execute_ok {action : Action} {values : List (Given δ)} {rows after : List (Record δ)}
    {affected : Nat}
    (hAction : ∀ given ∈ values, action = if shape.updates given then .doUpdate else .doNothing)
    (hOk : shape.execute action values rows = .ok (affected, after)) :
    shape.upsertAll values (0, rows) = (affected, after) := by
  unfold TableShape.execute at hOk
  cases hRun : values.foldlM (shape.insertOne action) ⟨rows, [], 0⟩ with
  | error error =>
      rw [hRun] at hOk
      cases hOk
  | ok last =>
      rw [hRun] at hOk
      exact (foldlM_insertOne_ok hAction hRun).trans (Except.ok.inj hOk)

theorem upsertAll_add (values : List (Given δ)) (count more : Nat) (rows : List (Record δ)) :
    shape.upsertAll values (count + more, rows) =
      ((shape.upsertAll values (count, rows)).1 + more,
        (shape.upsertAll values (count, rows)).2) := by
  induction values generalizing count rows with
  | nil => rfl
  | cons given values ih =>
      show shape.upsertAll values (shape.upsert (count + more, rows) given) =
        ((shape.upsertAll values (shape.upsert (count, rows) given)).1 + more,
          (shape.upsertAll values (shape.upsert (count, rows) given)).2)
      by_cases hPresent : shape.Present given rows
      · rw [upsert_of_present hPresent, upsert_of_present hPresent]
        split
        · rw [Nat.add_right_comm, ih]
        · rw [ih]
      · rw [upsert_of_not_present hPresent, upsert_of_not_present hPresent, Nat.add_right_comm, ih]

end OnConflict
end Tracecat
