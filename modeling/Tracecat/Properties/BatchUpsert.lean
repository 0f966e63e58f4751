import Tracecat.Tables.BatchRows

/-!
# What a batch upsert does

The statements of a batch go through the rows group by group.  A batch that succeeds leaves
the table as the rows do one after another in that order, which is the order of the list
where the rows of each index value keep their places.
-/

namespace Tracecat
namespace Tables

open OnConflict (Action DbError Given Record SameRows TableShape)
open Commuting (hasKey)

variable {α β δ : Type} [DecidableEq δ] {shape : TableShape δ}

/-! ## The order of the groups -/

/-- The rows in the order of the statements. -/
def regrouped (rows : List (Given δ)) : List (Given δ) := (rowsByColumns rows).flatMap Prod.snd

omit [DecidableEq δ] in
theorem regrouped_perm (rows : List (Given δ)) : (regrouped rows).Perm rows :=
  Grouping.flatMap_groupBy rows

omit [DecidableEq δ] in
theorem updates_iff {key : String} (hIndex : shape.index = some key) {given : Given δ} :
    shape.updates given = true ↔ ∃ column ∈ columnSet given, column ∉ [key] := by
  unfold TableShape.updates columnSet
  rw [List.any_eq_true, hIndex]
  constructor
  · rintro ⟨cell, hCell, hOther⟩
    refine ⟨cell.1, List.mem_toFinset.mpr (List.mem_map_of_mem hCell), ?_⟩
    rw [List.mem_singleton]
    rintro rfl
    exact absurd hOther (by simp)
  · rintro ⟨column, hColumn, hOther⟩
    obtain ⟨cell, hCell, rfl⟩ := List.mem_map.mp (List.mem_toFinset.mp hColumn)
    refine ⟨cell, hCell, decide_eq_true fun hSame => hOther ?_⟩
    rw [List.mem_singleton, Option.some.inj hSame]

/-! ## Statements -/

theorem executeGroup_ok {key : String} (hIndex : shape.index = some key)
    {group : Finset String × List (Given δ)} {rows after : List (Record δ)} {affected : Nat}
    (hGroup : ∀ given ∈ group.2, columnSet given = group.1)
    (hOk : executeGroup shape (some [key]) group rows = .ok (affected, after)) :
    shape.upsertAll group.2 (0, rows) = (affected, after) := by
  have hExecute (action : Action)
      (hAction : ∀ given ∈ group.2, action = if shape.updates given then .doUpdate else .doNothing)
      {result : Nat × List (Record δ)} (hRun : shape.execute action group.2 rows = .ok result)
      (hDone : (.ok result : Except BatchError _) = .ok (affected, after)) :
      shape.upsertAll group.2 (0, rows) = (affected, after) := by
    rw [Except.ok.inj hDone] at hRun
    exact OnConflict.execute_ok hAction hRun
  unfold executeGroup at hOk
  dsimp only at hOk
  split at hOk
  · cases hOk
  · split at hOk
    · next hOthers =>
        split at hOk
        · next hRun =>
            refine hExecute _ (fun given hGiven => ?_) hRun hOk
            rw [if_pos ((updates_iff hIndex).mpr (hGroup given hGiven ▸ hOthers))]
        · cases hOk
    · next hNone =>
        split at hOk
        · next hRun =>
            refine hExecute _ (fun given hGiven => ?_) hRun hOk
            rw [if_neg fun hUpdates =>
              hNone (hGroup given hGiven ▸ (updates_iff hIndex).mp hUpdates)]
        · cases hOk

theorem runGroups_ok {key : String} (hIndex : shape.index = some key)
    {groups : List (Finset String × List (Given δ))}
    (hGroups : ∀ group ∈ groups, ∀ given ∈ group.2, columnSet given = group.1)
    {total count : Nat} {session after : Session δ}
    (hOk : runGroups shape (some [key]) groups total session = (.ok count, after)) :
    shape.upsertAll (groups.flatMap Prod.snd) (total, session.working) = (count, after.working) := by
  induction groups generalizing total session with
  | nil =>
      obtain ⟨hCount, rfl⟩ := Prod.mk.inj hOk
      rw [← Except.ok.inj hCount]
      rfl
  | cons group groups ih =>
      obtain ⟨hHere, hRest⟩ := List.forall_mem_cons.mp hGroups
      rw [runGroups] at hOk
      split at hOk
      · next affected rows hGroup =>
          have hRows := executeGroup_ok hIndex hHere hGroup
          have hLater := ih hRest hOk
          rw [List.flatMap_cons, TableShape.upsertAll, List.foldl_append]
          have hFirst := @OnConflict.upsertAll_add δ _ shape group.2 0 total session.working
          rw [Nat.zero_add, hRows] at hFirst
          show shape.upsertAll (groups.flatMap Prod.snd)
            (shape.upsertAll group.2 (total, session.working)) = _
          rw [hFirst, Nat.add_comm affected total]
          exact hLater
      · cases (Prod.mk.inj hOk).1
      · cases (Prod.mk.inj hOk).1

theorem runGroups_committed (index : Option (List String))
    (groups : List (Finset String × List (Given δ))) (total : Nat) (session : Session δ) :
    (runGroups shape index groups total session).2.committed = session.committed := by
  induction groups generalizing total session with
  | nil => rfl
  | cons group groups ih =>
      rw [runGroups]
      split
      · exact ih _ _
      · rfl
      · rfl

/-! ## Batches -/

/-- The rows of a batch as they are bound. -/
def boundRows (coerce : Column → α → Except String β) (bind : SqlType → Option β → Option δ)
    (table : Table) (rows : List (List (String × Option α))) :
    Except BatchError (List (Given δ)) :=
  (rows.mapM (normalizeRowInputs coerce table)).map fun normalised =>
    normalised.map (bindRow bind table)

variable {coerce : Column → α → Except String β} {bind : SqlType → Option β → Option δ}
  {table : Table} {rows : List (List (String × Option α))}

theorem batchInsertRows_committed (upsert : Bool) (chunkSize : Nat) (session : Session δ) :
    (batchInsertRows coerce bind table shape rows upsert chunkSize session).2.committed =
      session.committed := by
  unfold batchInsertRows
  split
  · rfl
  · split
    · rfl
    · split
      · rfl
      · split
        · rfl
        · split
          · rfl
          · exact runGroups_committed _ _ _ _

theorem batchInsertRows_ok {key : String} (hTable : table.getIndex = [key])
    (hIndex : shape.index = some key) {chunkSize count : Nat} {session after : Session δ}
    (hOk : batchInsertRows coerce bind table shape rows true chunkSize session = (.ok count, after)) :
    ∃ given, boundRows coerce bind table rows = .ok given ∧
      shape.upsertAll (regrouped given) (0, session.working) = (count, after.working) := by
  unfold batchInsertRows at hOk
  split at hOk
  · next hEmpty =>
      obtain ⟨hCount, rfl⟩ := Prod.mk.inj hOk
      rw [List.isEmpty_iff.mp hEmpty, ← Except.ok.inj hCount]
      exact ⟨[], rfl, rfl⟩
  · split at hOk
    · cases (Prod.mk.inj hOk).1
    · split at hOk
      · cases (Prod.mk.inj hOk).1
      · next normalised hNormalised =>
          refine ⟨normalised.map (bindRow bind table), by rw [boundRows, hNormalised]; rfl, ?_⟩
          have hUpsert : upsertIndex table true = .ok (some [key]) := by
            rw [upsertIndex, hTable]
            rfl
          split at hOk
          · cases (Prod.mk.inj hOk).1
          · rw [hUpsert] at hOk
            exact runGroups_ok hIndex (fun group hGroup => Grouping.key_of_mem_groupBy hGroup) hOk

/-- A batch upsert that succeeds leaves the table as its rows do one after another in the
order of the groups, with as many rows inserted or updated; that is the order of the list
where the rows of each index value keep their places.  One that raises changes nothing once
the transaction is rolled back. -/
theorem batchUpsert_regrouped (coerce : Column → α → Except String β)
    (bind : SqlType → Option β → Option δ) (table : Table) (shape : TableShape δ) (key : String)
    (hTable : table.getIndex = [key]) (hIndex : shape.index = some key)
    (rows : List (List (String × Option α))) (chunkSize : Nat) (session : Session δ) :
    (∀ count after,
      batchInsertRows coerce bind table shape rows true chunkSize session = (.ok count, after) →
        ∃ given, boundRows coerce bind table rows = .ok given ∧
          shape.upsertAll (regrouped given) (0, session.working) = (count, after.working) ∧
          ((∀ value, (regrouped given).filter (hasKey shape.givenKey value) =
              given.filter (hasKey shape.givenKey value)) →
            SameRows (shape.upsertAll given (0, session.working)) (count, after.working))) ∧
    ∀ error after,
      batchInsertRows coerce bind table shape rows true chunkSize session = (.error error, after) →
        after.rollback = session.rollback := by
  constructor
  · intro count after hOk
    obtain ⟨given, hGiven, hAll⟩ := batchInsertRows_ok hTable hIndex hOk
    refine ⟨given, hGiven, hAll, fun hOrder => ?_⟩
    rw [← hAll]
    exact OnConflict.commutingSteps.foldl_same (regrouped_perm given).symm
      (fun value => (hOrder value).symm) _
  · intro error after hError
    have hCommitted := @batchInsertRows_committed _ _ _ _ shape coerce bind table rows true
      chunkSize session
    rw [hError] at hCommitted
    unfold Session.rollback
    rw [hCommitted]

/-! ## Two rows of one key -/

/-- A table whose column `k` is its index, with columns `a` and `b`. -/
def keyedTable : Table where
  name := "t"
  columns := [⟨"k", .integer, true, none⟩, ⟨"a", .integer, true, none⟩, ⟨"b", .integer, true, none⟩]
  indexes := [["k"]]

def keyedShape : TableShape ℕ where
  default _ := none
  index := some "k"
  breaks _ := false
  rejects _ _ := false

def insertNumbers (rows : List (Given ℕ)) (session : Session ℕ) :
    Except BatchError ℕ × Session ℕ :=
  batchInsertRows (fun _ value => .ok value) (fun _ value => value) keyedTable keyedShape rows true
    1000 session

/-- A row is there, gets another value of `a`, and a row of another key is inserted. -/
def inTurn : List (Given ℕ) :=
  [[("k", some 2), ("a", some 1), ("b", some 1)], [("k", some 2), ("a", some 2)],
    [("k", some 1), ("a", some 1)]]

theorem inTurn_upserts :
    ∃ after, insertNumbers inTurn ⟨[], [], false⟩ = (.ok 3, after) ∧
      SameRows (keyedShape.upsertAll inTurn (0, [])) (3, after.working) := by
  have hOk : (insertNumbers inTurn ⟨[], [], false⟩).1 = .ok 3 := by decide
  have hRun : insertNumbers inTurn ⟨[], [], false⟩ =
      (.ok 3, (insertNumbers inTurn ⟨[], [], false⟩).2) := Prod.ext hOk rfl
  obtain ⟨given, hGiven, -, hOrder⟩ := (batchUpsert_regrouped (fun _ value => .ok value)
    (fun _ value => value) keyedTable keyedShape "k" rfl rfl inTurn 1000 ⟨[], [], false⟩).1 _ _ hRun
  have hBound : given = inTurn := by
    have hRows : boundRows (fun _ value => .ok value) (fun _ value => value) keyedTable inTurn =
        .ok inTurn := by decide
    exact Except.ok.inj (hGiven.symm.trans hRows)
  subst hBound
  have hSame : regrouped inTurn = inTurn := by decide
  exact ⟨_, hRun, hOrder fun value => by rw [hSame]⟩

/-- The rows of `inTurn` in another order: the last row of key 2 is in the group of the row
of key 1, before the one that it should replace. -/
def overtaken : List (Given ℕ) :=
  [[("k", some 1), ("a", some 1)], [("k", some 2), ("a", some 1), ("b", some 1)],
    [("k", some 2), ("a", some 2)]]

theorem overtaken_keepsEarlier :
    ∃ after, insertNumbers overtaken ⟨[], [], false⟩ = (.ok 3, after) ∧
      boundRows (fun _ value => .ok value) (fun _ value => value) keyedTable overtaken =
        .ok overtaken ∧
      ¬ SameRows (keyedShape.upsertAll overtaken (0, [])) (3, after.working) := by
  have hOk : (insertNumbers overtaken ⟨[], [], false⟩).1 = .ok 3 := by decide
  refine ⟨(insertNumbers overtaken ⟨[], [], false⟩).2, Prod.ext hOk rfl, by decide, ?_⟩
  rintro ⟨-, hPerm⟩
  -- one after another, the rows end with `a = 2`
  have hCells := (hPerm.map fun row => row "a").mem_iff.mp
    (show some 2 ∈ (keyedShape.upsertAll overtaken (0, [])).2.map fun row => row "a" by decide)
  have hNone : some 2 ∉ (insertNumbers overtaken ⟨[], [], false⟩).2.working.map
      fun row => row "a" := by decide
  exact hNone hCells

end Tables
end Tracecat
