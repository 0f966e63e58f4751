import Tracecat.Sync.AliasImport

/-!
# Aliases after an import

Between the release and the end, every alias in the table is an old one of a workflow
outside the batch, a temporary one, or the target of its own workflow.  No two of these
meet, so every flush goes through, in whatever way the batch permutes the aliases.  A new
workflow is an exception: the empty text as its target counts as none.
-/

namespace Tracecat
namespace Sync

variable {before rows : Table} {batch : List RemoteWorkflow}

/-! ## Unique aliases -/

theorem eq_of_nodup_filterMap {α β : Type} {f : α → Option β} {items : List α}
    (hNodup : (items.filterMap f).Nodup) {first second : α} (hFirst : first ∈ items)
    (hSecond : second ∈ items) {value : β} (hFirstValue : f first = some value)
    (hSecondValue : f second = some value) : first = second := by
  have hPairwise := List.pairwise_filterMap.mp hNodup
  have hForth : items.Pairwise fun first second =>
      ∀ value, f first = some value → f second = some value → first = second :=
    hPairwise.imp fun hNe value hFirst hSecond => absurd rfl (hNe value hFirst value hSecond)
  have hBack : items.Pairwise (flip fun first second =>
      ∀ value, f first = some value → f second = some value → first = second) :=
    hPairwise.imp fun hNe value hSecond hFirst => absurd rfl (hNe value hFirst value hSecond)
  exact hForth.forall_of_forall_of_flip (fun _ _ _ _ _ => rfl) hBack hFirst hSecond value
    hFirstValue hSecondValue

/-- Rows with distinct ids whose aliases tell the ids have unique aliases. -/
theorem uniqueAliases_of (hIds : (rows.map WorkflowRow.id).Nodup)
    (hAliases : ∀ row ∈ rows, ∀ other ∈ rows, ∀ name, row.alias_ = some name →
      other.alias_ = some name → row.id = other.id) : UniqueAliases rows := by
  rw [UniqueAliases, List.Nodup, List.pairwise_filterMap]
  have hRows : rows.Nodup := List.Nodup.of_map _ hIds
  refine List.Pairwise.imp_of_mem (fun {row other} hRow hOther hNe => ?_) hRows
  rintro name hName _ hOtherName rfl
  exact hNe (List.inj_on_of_nodup_map hIds hRow hOther
    (hAliases row hRow other hOther name hName hOtherName))

theorem flushRow_ok {change : Table → Table} (hUnique : UniqueAliases (change rows)) :
    flushRow change rows = ⟨.ok (), [change rows], change rows⟩ := by
  rw [flushRow, if_pos hUnique, if_pos hUnique]

theorem mem_updateAlias {id : WorkflowUUID} {name : Option String} {row : WorkflowRow} :
    row ∈ updateAlias id name rows ↔
      (row.id ≠ id ∧ row ∈ rows) ∨ (row = ⟨id, name⟩ ∧ id ∈ rows.map WorkflowRow.id) := by
  rw [updateAlias, List.mem_map]
  constructor
  · rintro ⟨old, hOld, rfl⟩
    by_cases hId : old.id = id
    · rw [if_pos hId, ← hId]
      exact .inr ⟨rfl, List.mem_map_of_mem hOld⟩
    · rw [if_neg hId]
      exact .inl ⟨hId, hOld⟩
  · rintro (⟨hId, hRow⟩ | ⟨rfl, hMem⟩)
    · exact ⟨row, hRow, if_neg hId⟩
    · obtain ⟨old, hOld, rfl⟩ := List.mem_map.mp hMem
      exact ⟨old, hOld, if_pos rfl⟩

theorem ids_updateAlias (id : WorkflowUUID) (name : Option String) (rows : Table) :
    (updateAlias id name rows).map WorkflowRow.id = rows.map WorkflowRow.id := by
  rw [updateAlias, List.map_map]
  apply List.map_congr_left
  intro row _
  by_cases hId : row.id = id <;> simp [hId]

/-! ## Targets -/

section Targets

theorem duplicates_eq_nil {seen values : List String} :
    duplicates seen values = [] ↔ values.Nodup ∧ ∀ value ∈ values, value ∉ seen := by
  induction values generalizing seen with
  | nil => simp [duplicates]
  | cons value values ih =>
      rw [duplicates]
      by_cases hSeen : value ∈ seen
      · simp [hSeen]
      · rw [if_neg hSeen, ih, List.nodup_cons, List.forall_mem_cons]
        constructor
        · rintro ⟨hNodup, hApart⟩
          refine ⟨⟨fun hMem => hApart value hMem List.mem_cons_self, hNodup⟩, hSeen,
            fun other hOther hMem => hApart other hOther (List.mem_cons_of_mem _ hMem)⟩
        · rintro ⟨⟨hNew, hNodup⟩, -, hApart⟩
          refine ⟨hNodup, fun other hOther hMem => ?_⟩
          rcases List.mem_cons.mp hMem with rfl | hMem
          · exact hNew hOther
          · exact hApart other hOther hMem

variable (hBatch : (batch.map RemoteWorkflow.id).Nodup)

include hBatch

theorem targetAliasesById_eq :
    targetAliasesById batch = batch.map fun remote => (remote.id, remote.alias_) := by
  apply Assoc.ofPairs_eq_self
  rw [List.map_map]
  exact hBatch

theorem keys_targets :
    (targetAliasesById batch).map Prod.fst = batch.map RemoteWorkflow.id := by
  rw [targetAliasesById_eq hBatch, List.map_map]
  rfl

theorem values_targets :
    (targetAliasesById batch).filterMap Prod.snd = batch.filterMap RemoteWorkflow.alias_ := by
  rw [targetAliasesById_eq hBatch, List.filterMap_map]
  rfl

theorem targetAlias_eq {remote : RemoteWorkflow} (hRemote : remote ∈ batch) :
    targetAlias (targetAliasesById batch) remote.id = remote.alias_ := by
  have hKeys : ((targetAliasesById batch).map Prod.fst).Nodup := by
    rw [keys_targets hBatch]
    exact hBatch
  have hLookup : (targetAliasesById batch).lookup remote.id = some remote.alias_ := by
    rw [Assoc.lookup_eq_some_iff hKeys, targetAliasesById_eq hBatch]
    exact List.mem_map_of_mem hRemote
  rw [targetAlias, hLookup]
  rfl

end Targets

/-! ## Temporary aliases -/

section Temporary

variable (targets : List (WorkflowUUID × Option String))

theorem candidate_injective (base : String) : Function.Injective (candidate base) := by
  have hApart : ∀ suffix, candidate base 0 ≠ candidate base (suffix + 1) := by
    intro suffix hSame
    have hLength := congrArg (List.length ∘ String.toList) hSame
    simp [candidate, Fresh.suffixed] at hLength
  intro first second hSame
  cases first with
  | zero =>
      cases second with
      | zero => rfl
      | succ second => exact absurd hSame (hApart second)
  | succ first =>
      cases second with
      | zero => exact absurd hSame.symm (hApart first)
      | succ second =>
          have hEq := Fresh.suffixed_injective base "-" hSame
          omega

theorem uniqueTemporaryWorkflowAlias_notMem (id : WorkflowUUID) (reserved : List String) :
    uniqueTemporaryWorkflowAlias id reserved ∉ reserved := by
  rw [uniqueTemporaryWorkflowAlias]
  generalize "tracecat-sync-tmp-" ++ String.ofList id.hex = base
  have hFree := @Fresh.firstFree_notMem _ (· ∈ reserved) (candidate_injective base) reserved
    (fun _ hTaken => of_decide_eq_true hTaken) 0 reserved.length le_rfl
  exact of_decide_eq_false hFree

theorem parkedAliases_fresh (reserved : List String) (workflows : Table) :
    (∀ entry ∈ parkedAliases targets reserved workflows, entry.2 ∉ reserved) ∧
      ((parkedAliases targets reserved workflows).map Prod.snd).Nodup := by
  induction workflows generalizing reserved with
  | nil => exact ⟨by simp [parkedAliases], List.nodup_nil⟩
  | cons workflow workflows ih =>
      rw [parkedAliases]
      split
      · exact ih reserved
      · obtain ⟨hNew, hNodup⟩ := ih (uniqueTemporaryWorkflowAlias workflow.id reserved :: reserved)
        refine ⟨?_, ?_⟩
        · rintro entry hEntry
          rcases List.mem_cons.mp hEntry with rfl | hEntry
          · exact uniqueTemporaryWorkflowAlias_notMem workflow.id reserved
          · exact fun hMem => hNew entry hEntry (List.mem_cons_of_mem _ hMem)
        · refine List.nodup_cons.mpr ⟨fun hMem => ?_, hNodup⟩
          obtain ⟨entry, hEntry, hSame⟩ := List.mem_map.mp hMem
          exact hNew entry hEntry (hSame ▸ List.mem_cons_self)

theorem mem_parkedAliases (reserved : List String) {workflows : Table} {id : WorkflowUUID} :
    id ∈ (parkedAliases targets reserved workflows).map Prod.fst ↔
      ∃ workflow ∈ workflows, workflow.id = id ∧ workflow.alias_ ≠ targetAlias targets id := by
  induction workflows generalizing reserved with
  | nil => simp [parkedAliases]
  | cons workflow workflows ih =>
      rw [parkedAliases]
      split
      · rename_i hSame
        rw [ih]
        constructor
        · rintro ⟨other, hOther, hId⟩
          exact ⟨other, List.mem_cons_of_mem _ hOther, hId⟩
        · rintro ⟨other, hOther, rfl, hChanged⟩
          rcases List.mem_cons.mp hOther with rfl | hOther
          · exact absurd hSame hChanged
          · exact ⟨other, hOther, rfl, hChanged⟩
      · rename_i hChanged
        rw [List.map_cons, List.mem_cons, ih]
        constructor
        · rintro (rfl | ⟨other, hOther, hId⟩)
          · exact ⟨workflow, List.mem_cons_self, rfl, hChanged⟩
          · exact ⟨other, List.mem_cons_of_mem _ hOther, hId⟩
        · rintro ⟨other, hOther, rfl, hOtherChanged⟩
          rcases List.mem_cons.mp hOther with rfl | hOther
          · exact .inl rfl
          · exact .inr ⟨other, hOther, rfl, hOtherChanged⟩

end Temporary

/-! ## What an import should do -/

/-- The targets of the batch are distinct, and no workflow outside it holds one. -/
structure Assignable (before : Table) (batch : List RemoteWorkflow) : Prop where
  distinct : (batch.filterMap RemoteWorkflow.alias_).Nodup
  free : ∀ row ∈ before, row.id ∉ batch.map RemoteWorkflow.id → ∀ remote ∈ batch, ∀ name,
    remote.alias_ = some name → row.alias_ ≠ some name

/-- Every workflow of the batch has its target alias and every other one its old one. -/
structure Reassigned (before : Table) (batch : List RemoteWorkflow) (after : Table) : Prop where
  nodup : (after.map WorkflowRow.id).Nodup
  ids : ∀ id, id ∈ after.map WorkflowRow.id ↔
    id ∈ before.map WorkflowRow.id ∨ id ∈ batch.map RemoteWorkflow.id
  targets : ∀ remote ∈ batch, ⟨remote.id, remote.alias_⟩ ∈ after
  others : ∀ row, row.id ∉ batch.map RemoteWorkflow.id → (row ∈ after ↔ row ∈ before)

/-- An import assigns what can be assigned, with unique aliases at every flush, and
otherwise fails and changes no alias. -/
structure AliasesImported (before : Table) (batch : List RemoteWorkflow) : Prop where
  succeeds : Assignable before batch →
    (importTransaction batch before).1 = .ok () ∧
      (∀ table ∈ (importWorkflows batch before).log, UniqueAliases table) ∧
      Reassigned before batch (importTransaction batch before).2
  fails : ¬ Assignable before batch →
    (∃ error, (importTransaction batch before).1 = .error error) ∧
      (importTransaction batch before).2 = before

/-- What makes the import fail: targets that are equal, or one that is written and that a
workflow outside the batch holds. -/
def Refused (before : Table) (batch : List RemoteWorkflow) : Prop :=
  ¬ (batch.filterMap RemoteWorkflow.alias_).Nodup ∨
    ∃ row ∈ before, row.id ∉ batch.map RemoteWorkflow.id ∧
      ∃ remote ∈ batch, ∃ name, writtenAlias before remote = some name ∧ row.alias_ = some name

theorem alias_of_writtenAlias {remote : RemoteWorkflow} {name : String}
    (hWritten : writtenAlias before remote = some name) : remote.alias_ = some name := by
  rw [writtenAlias] at hWritten
  split at hWritten
  · exact hWritten
  · exact (Option.filter_eq_some_iff.mp hWritten).1

/-! ## The checks -/

section Checks

variable (hBatch : (batch.map RemoteWorkflow.id).Nodup)

include hBatch

/-- The checks pass when the targets are distinct and no workflow outside the batch holds
one of a workflow that exists. -/
theorem checkTargets_ok (hAccepted : ¬ Refused before batch) :
    checkTargets (targetAliasesById batch) before = .ok () := by
  rw [Refused, not_or, not_not] at hAccepted
  obtain ⟨hDistinct, hFree⟩ := hAccepted
  have hNone : duplicates [] ((targetAliasesById batch).filterMap Prod.snd) = [] := by
    rw [values_targets hBatch, duplicates_eq_nil]
    exact ⟨hDistinct, by simp⟩
  rw [checkTargets, hNone]
  simp only [List.dedup_nil, List.insertionSort_nil, ne_eq, not_true_eq_false, if_false]
  rw [Checks.forM_eq_ok]
  intro workflow hWorkflow
  obtain ⟨hRow, hIn⟩ := List.mem_filter.mp hWorkflow
  rw [decide_eq_true_eq, keys_targets hBatch] at hIn
  obtain ⟨remote, hRemote, hId⟩ := List.mem_map.mp hIn
  rw [checkConflict, ← hId, targetAlias_eq hBatch hRemote]
  cases hTarget : remote.alias_ with
  | none => rfl
  | some target =>
      simp only
      split
      · rfl
      · cases hConflict : before.find? fun row =>
            decide (row.alias_ = some target ∧ row.id ≠ remote.id) with
        | none => rfl
        | some conflict =>
            have hMem := List.mem_of_find?_eq_some hConflict
            have hKey := List.find?_some hConflict
            rw [decide_eq_true_eq] at hKey
            simp only
            rw [if_neg]
            rw [keys_targets hBatch, not_or, not_not]
            have hWritten : writtenAlias before remote = some target := by
              rw [writtenAlias, hId, if_pos (List.mem_map_of_mem hRow), hTarget]
            have hConflictIn : conflict.id ∈ batch.map RemoteWorkflow.id := by
              by_contra hOutside
              exact hFree ⟨conflict, hMem, hOutside, remote, hRemote, target, hWritten, hKey.1⟩
            refine ⟨hConflictIn, fun hSame => ?_⟩
            obtain ⟨other, hOther, hOtherId⟩ := List.mem_map.mp hConflictIn
            rw [← hOtherId, targetAlias_eq hBatch hOther] at hSame
            have hEq := eq_of_nodup_filterMap hDistinct hOther hRemote hSame hTarget
            exact hKey.2 (by rw [← hOtherId, hEq])

/-- Equal targets do not pass, and neither does the target of a workflow that exists when
one outside the batch holds it. -/
theorem checkTargets_error (hAliases : UniqueAliases before)
    (hRefused : ¬ (batch.filterMap RemoteWorkflow.alias_).Nodup ∨
      ∃ row ∈ before, row.id ∉ batch.map RemoteWorkflow.id ∧
        ∃ remote ∈ batch, remote.id ∈ before.map WorkflowRow.id ∧
          ∃ name, remote.alias_ = some name ∧ row.alias_ = some name) :
    checkTargets (targetAliasesById batch) before ≠ .ok () := by
  intro hOk
  rw [checkTargets] at hOk
  split at hOk
  · cases hOk
  · rename_i hEmpty
    rw [ne_eq, not_not] at hEmpty
    have hDistinct : (batch.filterMap RemoteWorkflow.alias_).Nodup := by
      have hLength := (List.perm_insertionSort (· ≤ ·)
        (duplicates [] ((targetAliasesById batch).filterMap Prod.snd)).dedup).length_eq
      rw [hEmpty, List.length_nil, eq_comm, List.length_eq_zero_iff, List.dedup_eq_nil,
        values_targets hBatch, duplicates_eq_nil] at hLength
      exact hLength.1
    rcases hRefused with hTwice | ⟨row, hRow, hOutside, remote, hRemote, hExists, name, hName, hHeld⟩
    · exact hTwice hDistinct
    · obtain ⟨workflow, hWorkflow, hId⟩ := List.mem_map.mp hExists
      have hOwn : row.id ≠ workflow.id := by
        rintro hSame
        exact hOutside (by rw [hSame, hId]; exact List.mem_map_of_mem hRemote)
      have hCheck := (Checks.forM_eq_ok.mp hOk) workflow (List.mem_filter.mpr ⟨hWorkflow, by
        rw [decide_eq_true_eq, keys_targets hBatch, hId]
        exact List.mem_map_of_mem hRemote⟩)
      rw [checkConflict, hId, targetAlias_eq hBatch hRemote, hName] at hCheck
      simp only at hCheck
      rw [if_neg] at hCheck
      · cases hConflict : before.find? fun row =>
            decide (row.alias_ = some name ∧ row.id ≠ remote.id) with
        | none =>
            have hNot := List.find?_eq_none.mp hConflict row hRow
            rw [decide_eq_true_eq] at hNot
            exact hNot ⟨hHeld, hId ▸ hOwn⟩
        | some conflict =>
            rw [hConflict] at hCheck
            simp only at hCheck
            have hMem := List.mem_of_find?_eq_some hConflict
            have hKey := List.find?_some hConflict
            rw [decide_eq_true_eq] at hKey
            have hEq := eq_of_nodup_filterMap hAliases hMem hRow hKey.1 hHeld
            rw [hEq, keys_targets hBatch, if_pos (.inl hOutside)] at hCheck
            cases hCheck
      · intro hSame
        exact hOwn (by rw [eq_of_nodup_filterMap hAliases hRow hWorkflow hHeld hSame])

end Checks

/-! ## The release -/

def parkedOf (before : Table) (batch : List RemoteWorkflow) : List (WorkflowUUID × String) :=
  parkedAliases (targetAliasesById batch) (reservedAliases (targetAliasesById batch) before)
    (existingWorkflows (targetAliasesById batch) before)

/-- The table while aliases are parked: each row is an old one or has its temporary alias,
and what is left to park has not been. -/
structure Parking (before : Table) (parked left : List (WorkflowUUID × String)) (rows : Table) :
    Prop where
  sub : left ⊆ parked
  ids : rows.map WorkflowRow.id = before.map WorkflowRow.id
  held : ∀ row ∈ rows, row ∈ before ∨ ∃ name, (row.id, name) ∈ parked ∧ row.alias_ = some name
  untouched : ∀ row, row.id ∉ parked.map Prod.fst → (row ∈ rows ↔ row ∈ before)
  done : ∀ row ∈ rows, row.id ∈ parked.map Prod.fst → row.id ∉ left.map Prod.fst →
    ∃ name, (row.id, name) ∈ parked ∧ row.alias_ = some name

section Release

variable (hIds : (before.map WorkflowRow.id).Nodup) (hAliases : UniqueAliases before)

theorem parkedOf_fresh {entry : WorkflowUUID × String} (hEntry : entry ∈ parkedOf before batch) :
    entry.2 ∉ before.filterMap WorkflowRow.alias_ ∧
      entry.2 ∉ (targetAliasesById batch).filterMap Prod.snd ∧
      ∀ other ∈ parkedOf before batch, other.2 = entry.2 → other = entry := by
  obtain ⟨hNew, hNodup⟩ := parkedAliases_fresh (targetAliasesById batch)
    (reservedAliases (targetAliasesById batch) before)
    (existingWorkflows (targetAliasesById batch) before)
  have hApart := hNew entry hEntry
  rw [reservedAliases, List.mem_append, not_or] at hApart
  exact ⟨hApart.1, hApart.2, fun other hOther hSame =>
    List.inj_on_of_nodup_map hNodup hOther hEntry hSame⟩

include hIds hAliases

theorem Parking.unique {left : List (WorkflowUUID × String)}
    (hParking : Parking before (parkedOf before batch) left rows) : UniqueAliases rows := by
  refine uniqueAliases_of (hParking.ids ▸ hIds) fun row hRow other hOther name hName hOtherName => ?_
  rcases hParking.held row hRow with hOld | ⟨parked, hParked, hSame⟩
  · rcases hParking.held other hOther with hOtherOld | ⟨parked, hParked, hSame⟩
    · rw [eq_of_nodup_filterMap hAliases hOld hOtherOld hName hOtherName]
    · obtain rfl := Option.some.inj (hOtherName.symm.trans hSame)
      exact absurd (List.mem_filterMap.mpr ⟨row, hOld, hName⟩) (parkedOf_fresh hParked).1
  · obtain rfl := Option.some.inj (hName.symm.trans hSame)
    rcases hParking.held other hOther with hOtherOld | ⟨otherParked, hOtherParked, hOtherSame⟩
    · exact absurd (List.mem_filterMap.mpr ⟨other, hOtherOld, hOtherName⟩)
        (parkedOf_fresh hParked).1
    · obtain rfl := Option.some.inj (hOtherName.symm.trans hOtherSame)
      exact (congrArg Prod.fst ((parkedOf_fresh hOtherParked).2.2 _ hParked rfl))

theorem Parking.step {entry : WorkflowUUID × String} {left : List (WorkflowUUID × String)}
    (hParking : Parking before (parkedOf before batch) (entry :: left) rows) :
    ∃ log next, flushRow (updateAlias entry.1 (some entry.2)) rows = ⟨.ok (), log, next⟩ ∧
      Parking before (parkedOf before batch) left next ∧ ∀ table ∈ log, UniqueAliases table := by
  have hEntry : entry ∈ parkedOf before batch := hParking.sub List.mem_cons_self
  have hKey : entry.1 ∈ (parkedOf before batch).map Prod.fst := List.mem_map_of_mem hEntry
  have hNext : Parking before (parkedOf before batch) left
      (updateAlias entry.1 (some entry.2) rows) := by
    refine ⟨fun other hOther => hParking.sub (List.mem_cons_of_mem _ hOther), ?_, ?_, ?_, ?_⟩
    · rw [ids_updateAlias, hParking.ids]
    · intro row hRow
      rcases mem_updateAlias.mp hRow with ⟨-, hOld⟩ | ⟨rfl, -⟩
      · exact hParking.held row hOld
      · exact .inr ⟨entry.2, hEntry, rfl⟩
    · intro row hRow
      have hOther : row.id ≠ entry.1 := fun hSame => hRow (hSame ▸ hKey)
      rw [← hParking.untouched row hRow, mem_updateAlias]
      constructor
      · rintro (⟨-, hOld⟩ | ⟨rfl, -⟩)
        · exact hOld
        · exact absurd rfl hOther
      · exact fun hOld => .inl ⟨hOther, hOld⟩
    · intro row hRow hParked hLeft
      rcases mem_updateAlias.mp hRow with ⟨hOther, hOld⟩ | ⟨rfl, -⟩
      · refine hParking.done row hOld hParked ?_
        rw [List.map_cons, List.mem_cons, not_or]
        exact ⟨hOther, hLeft⟩
      · exact ⟨entry.2, hEntry, rfl⟩
  have hUnique := hNext.unique hIds hAliases
  exact ⟨_, _, flushRow_ok hUnique, hNext, by simpa using hUnique⟩

theorem release_ok (hChecks : checkTargets (targetAliasesById batch) before = .ok ()) :
    ∃ log next, releaseChangingWorkflowAliases batch before = ⟨.ok (), log, next⟩ ∧
      Parking before (parkedOf before batch) [] next ∧ ∀ table ∈ log, UniqueAliases table := by
  have hStart : Parking before (parkedOf before batch) (parkedOf before batch) before :=
    ⟨fun _ hEntry => hEntry, rfl, fun row hRow => .inl hRow, fun _ _ => Iff.rfl,
      fun row _ hParked hLeft => absurd hParked hLeft⟩
  obtain ⟨log, next, hRun, hNext, hUnique⟩ := Logged.forM_of_invariant
    (Parking before (parkedOf before batch)) UniqueAliases
    (fun hParking => hParking.step hIds hAliases) hStart
  refine ⟨log, next, ?_, hNext, hUnique⟩
  refine (Logged.bind_silent (fun rows : Table => (checkTargets (targetAliasesById batch) rows,
    rows)) before (by rw [hChecks])).trans ?_
  refine (Logged.bind_silent (fun rows : Table => (Except.ok (parkedAliases
    (targetAliasesById batch) (reservedAliases (targetAliasesById batch) rows)
    (existingWorkflows (targetAliasesById batch) rows)), rows)) before rfl).trans ?_
  exact hRun

end Release

/-! ## The assignment -/

/-- What an alias of a table is while targets are given out. -/
inductive Held (before : Table) (batch : List RemoteWorkflow) (id : WorkflowUUID) (name : String) :
    Prop
  | target (remote : RemoteWorkflow) (hRemote : remote ∈ batch) (hId : remote.id = id)
      (hName : writtenAlias before remote = some name)
  | outside (hRow : ⟨id, some name⟩ ∈ before) (hOutside : id ∉ batch.map RemoteWorkflow.id)
  | parked (hParked : (id, name) ∈ parkedOf before batch)

/-- The table while targets are given out. -/
structure Assigning (before : Table) (batch left : List RemoteWorkflow) (rows : Table) : Prop where
  sub : left ⊆ batch
  leftNodup : (left.map RemoteWorkflow.id).Nodup
  nodup : (rows.map WorkflowRow.id).Nodup
  held : ∀ row ∈ rows, ∀ name, row.alias_ = some name → Held before batch row.id name
  others : ∀ row, row.id ∉ batch.map RemoteWorkflow.id → (row ∈ rows ↔ row ∈ before)
  finished : ∀ remote ∈ batch, remote ∉ left → ⟨remote.id, writtenAlias before remote⟩ ∈ rows
  old : ∀ id ∈ before.map WorkflowRow.id, id ∈ rows.map WorkflowRow.id
  known : ∀ id ∈ rows.map WorkflowRow.id,
    id ∈ before.map WorkflowRow.id ∨ id ∈ batch.map RemoteWorkflow.id
  waiting : ∀ remote ∈ left, remote.id ∈ rows.map WorkflowRow.id →
    remote.id ∈ before.map WorkflowRow.id

section Assign

variable (hAliases : UniqueAliases before) (hBatch : (batch.map RemoteWorkflow.id).Nodup)
  (hAccepted : ¬ Refused before batch)

include hAliases hBatch hAccepted

theorem Held.id_eq {id other : WorkflowUUID} {name : String} (hHeld : Held before batch id name)
    (hOther : Held before batch other name) : id = other := by
  rw [Refused, not_or, not_not] at hAccepted
  obtain ⟨hDistinct, hFree⟩ := hAccepted
  have hNotTarget : ∀ {id}, (id, name) ∈ parkedOf before batch → ∀ remote ∈ batch,
      writtenAlias before remote ≠ some name := by
    intro id hParked remote hRemote hWritten
    have hFresh := (parkedOf_fresh hParked).2.1
    rw [values_targets hBatch] at hFresh
    exact hFresh (List.mem_filterMap.mpr ⟨remote, hRemote, alias_of_writtenAlias hWritten⟩)
  have hNotOld : ∀ {id old}, (id, name) ∈ parkedOf before batch → ⟨old, some name⟩ ∉ before :=
    fun hParked hRow => (parkedOf_fresh hParked).1 (List.mem_filterMap.mpr ⟨_, hRow, rfl⟩)
  cases hHeld with
  | target remote hRemote hId hName =>
      cases hOther with
      | target remote' hRemote' hId' hName' =>
          rw [← hId, ← hId', eq_of_nodup_filterMap hDistinct hRemote hRemote'
            (alias_of_writtenAlias hName) (alias_of_writtenAlias hName')]
      | outside hRow hOutside =>
          exact absurd ⟨_, hRow, hOutside, remote, hRemote, name, hName, rfl⟩ hFree
      | parked hParked => exact absurd hName (hNotTarget hParked remote hRemote)
  | outside hRow hOutside =>
      cases hOther with
      | target remote hRemote hId hName =>
          exact absurd ⟨_, hRow, hOutside, remote, hRemote, name, hName, rfl⟩ hFree
      | outside hRow' hOutside' =>
          exact congrArg WorkflowRow.id (eq_of_nodup_filterMap hAliases hRow hRow' rfl rfl)
      | parked hParked => exact absurd hRow (hNotOld hParked)
  | parked hParked =>
      cases hOther with
      | target remote hRemote hId hName => exact absurd hName (hNotTarget hParked remote hRemote)
      | outside hRow hOutside => exact absurd hRow (hNotOld hParked)
      | parked hParked' =>
          exact congrArg Prod.fst ((parkedOf_fresh hParked').2.2 _ hParked rfl)

theorem Assigning.unique {left : List RemoteWorkflow}
    (hAssigning : Assigning before batch left rows) : UniqueAliases rows :=
  uniqueAliases_of hAssigning.nodup fun row hRow other hOther name hName hOtherName =>
    (hAssigning.held row hRow name hName).id_eq hAliases hBatch hAccepted
      (hAssigning.held other hOther name hOtherName)

omit hAliases hBatch hAccepted in
/-- The flush that writes the alias of a workflow of the batch. -/
theorem importSingleWorkflow_eq (remote : RemoteWorkflow) (rows : Table) :
    importSingleWorkflow remote rows =
      if remote.id ∈ rows.map WorkflowRow.id then
        flushRow (updateAlias remote.id remote.alias_) rows
      else flushRow (· ++ [⟨remote.id, createdAlias remote.alias_⟩]) rows := by
  refine (Logged.bind_silent (fun rows : Table => (Except.ok
    (rows.any fun row => decide (row.id = remote.id)), rows)) rows rfl).trans ?_
  have hAny : (rows.any fun row => decide (row.id = remote.id)) = true ↔
      remote.id ∈ rows.map WorkflowRow.id := by
    rw [List.any_eq_true, List.mem_map]
    simp only [decide_eq_true_eq]
  by_cases hMem : remote.id ∈ rows.map WorkflowRow.id
  · rw [if_pos hMem, if_pos (hAny.mpr hMem)]
  · rw [if_neg hMem, if_neg (fun hTrue => hMem (hAny.mp hTrue))]

theorem Assigning.step {remote : RemoteWorkflow} {left : List RemoteWorkflow}
    (hAssigning : Assigning before batch (remote :: left) rows) :
    ∃ log next, importSingleWorkflow remote rows = ⟨.ok (), log, next⟩ ∧
      Assigning before batch left next ∧ ∀ table ∈ log, UniqueAliases table := by
  have hRemote : remote ∈ batch := hAssigning.sub List.mem_cons_self
  have hIn : remote.id ∈ batch.map RemoteWorkflow.id := List.mem_map_of_mem hRemote
  obtain ⟨hNew, hLeftNodup⟩ := List.nodup_cons.mp hAssigning.leftNodup
  have hRest : ∀ other ∈ batch, other ∉ left → other = remote ∨ other ∉ remote :: left := by
    intro other _ hOther
    by_cases hSame : other = remote
    · exact .inl hSame
    · exact .inr (by simp [hSame, hOther])
  have hApart : ∀ other ∈ batch, other ≠ remote → other.id ≠ remote.id :=
    fun other hOther hNe hSame => hNe (List.inj_on_of_nodup_map hBatch hOther hRemote hSame)
  -- what the flush makes of the table
  have hFlush : ∃ change : Table → Table, importSingleWorkflow remote rows = flushRow change rows ∧
      Assigning before batch left (change rows) := by
    rw [importSingleWorkflow_eq]
    by_cases hMem : remote.id ∈ rows.map WorkflowRow.id
    · have hWritten : writtenAlias before remote = remote.alias_ := by
        rw [writtenAlias, if_pos (hAssigning.waiting remote List.mem_cons_self hMem)]
      refine ⟨updateAlias remote.id remote.alias_, if_pos hMem,
        fun other hOther => hAssigning.sub (List.mem_cons_of_mem _ hOther), hLeftNodup, ?_, ?_, ?_,
        ?_, ?_, ?_, ?_⟩
      · rw [ids_updateAlias]
        exact hAssigning.nodup
      · intro row hRow name hName
        rcases mem_updateAlias.mp hRow with ⟨-, hOld⟩ | ⟨rfl, -⟩
        · exact hAssigning.held row hOld name hName
        · exact .target remote hRemote rfl (hWritten.trans hName)
      · intro row hOutside
        have hOther : row.id ≠ remote.id := fun hSame => hOutside (hSame ▸ hIn)
        rw [← hAssigning.others row hOutside, mem_updateAlias]
        constructor
        · rintro (⟨-, hOld⟩ | ⟨rfl, -⟩)
          · exact hOld
          · exact absurd rfl hOther
        · exact fun hOld => .inl ⟨hOther, hOld⟩
      · intro other hOther hLeft
        rcases hRest other hOther hLeft with rfl | hWaiting
        · rw [hWritten]
          exact mem_updateAlias.mpr (.inr ⟨rfl, hMem⟩)
        · have hNe : other ≠ remote := fun hSame => hWaiting (hSame ▸ List.mem_cons_self)
          exact mem_updateAlias.mpr (.inl ⟨hApart other hOther hNe,
            hAssigning.finished other hOther hWaiting⟩)
      · intro id hId
        rw [ids_updateAlias]
        exact hAssigning.old id hId
      · intro id hId
        rw [ids_updateAlias] at hId
        exact hAssigning.known id hId
      · intro other hOther hId
        rw [ids_updateAlias] at hId
        exact hAssigning.waiting other (List.mem_cons_of_mem _ hOther) hId
    · have hWritten : writtenAlias before remote = createdAlias remote.alias_ := by
        rw [writtenAlias, if_neg fun hOld => hMem (hAssigning.old _ hOld)]
      refine ⟨(· ++ [⟨remote.id, createdAlias remote.alias_⟩]), if_neg hMem,
        fun other hOther => hAssigning.sub (List.mem_cons_of_mem _ hOther), hLeftNodup, ?_, ?_, ?_,
        ?_, ?_, ?_, ?_⟩
      · rw [List.map_append, List.nodup_append]
        refine ⟨hAssigning.nodup, List.nodup_singleton _, ?_⟩
        rintro id hId _ hLast rfl
        have hSame : id = remote.id := List.mem_singleton.mp hLast
        exact hMem (hSame ▸ hId)
      · intro row hRow name hName
        rcases List.mem_append.mp hRow with hOld | hLast
        · exact hAssigning.held row hOld name hName
        · obtain rfl := List.mem_singleton.mp hLast
          exact .target remote hRemote rfl (hWritten.trans hName)
      · intro row hOutside
        rw [← hAssigning.others row hOutside, List.mem_append, List.mem_singleton]
        constructor
        · rintro (hOld | rfl)
          · exact hOld
          · exact absurd hIn hOutside
        · exact .inl
      · intro other hOther hLeft
        rw [List.mem_append, List.mem_singleton]
        rcases hRest other hOther hLeft with rfl | hWaiting
        · exact .inr (by rw [hWritten])
        · exact .inl (hAssigning.finished other hOther hWaiting)
      · intro id hId
        rw [List.map_append, List.mem_append]
        exact .inl (hAssigning.old id hId)
      · intro id hId
        rw [List.map_append, List.mem_append] at hId
        rcases hId with hId | hLast
        · exact hAssigning.known id hId
        · have hSame : id = remote.id := List.mem_singleton.mp hLast
          exact .inr (hSame ▸ hIn)
      · intro other hOther hId
        rw [List.map_append, List.mem_append] at hId
        rcases hId with hId | hLast
        · exact hAssigning.waiting other (List.mem_cons_of_mem _ hOther) hId
        · exact absurd (List.mem_map.mpr ⟨other, hOther, List.mem_singleton.mp hLast⟩) hNew
  obtain ⟨change, hRun, hNext⟩ := hFlush
  have hUnique := hNext.unique hAliases hBatch hAccepted
  exact ⟨_, _, hRun.trans (flushRow_ok hUnique), hNext, by simpa using hUnique⟩

end Assign

/-! ## Runs -/

section Runs

variable (hIds : (before.map WorkflowRow.id).Nodup) (hAliases : UniqueAliases before)
  (hBatch : (batch.map RemoteWorkflow.id).Nodup)

include hIds hBatch

theorem Parking.assigning (hParking : Parking before (parkedOf before batch) [] rows) :
    Assigning before batch batch rows := by
  have hExisting : ∀ row ∈ before, row.id ∈ batch.map RemoteWorkflow.id →
      row ∈ existingWorkflows (targetAliasesById batch) before := by
    intro row hRow hIn
    exact List.mem_filter.mpr ⟨hRow, by rwa [decide_eq_true_eq, keys_targets hBatch]⟩
  have hParkedIn : ∀ id ∈ (parkedOf before batch).map Prod.fst,
      id ∈ batch.map RemoteWorkflow.id := by
    intro id hId
    obtain ⟨workflow, hWorkflow, rfl, -⟩ := (mem_parkedAliases _ _).mp hId
    have hIn := (List.mem_filter.mp hWorkflow).2
    rwa [decide_eq_true_eq, keys_targets hBatch] at hIn
  refine ⟨fun _ hRemote => hRemote, hBatch, hParking.ids ▸ hIds, fun row hRow name hName => ?_,
    fun row hOutside => hParking.untouched row fun hParked => hOutside (hParkedIn _ hParked),
    fun remote hRemote hLeft => absurd hRemote hLeft, fun id hId => hParking.ids ▸ hId,
    fun id hId => .inl (hParking.ids ▸ hId), fun remote _ hId => hParking.ids ▸ hId⟩
  by_cases hParked : row.id ∈ (parkedOf before batch).map Prod.fst
  · obtain ⟨parked, hMem, hSame⟩ := hParking.done row hRow hParked (by simp)
    obtain rfl := Option.some.inj (hName.symm.trans hSame)
    exact .parked hMem
  · have hOld : row ∈ before := (hParking.untouched row hParked).mp hRow
    by_cases hIn : row.id ∈ batch.map RemoteWorkflow.id
    · -- the alias of the workflow does not change
      obtain ⟨remote, hRemote, hId⟩ := List.mem_map.mp hIn
      have hKept : row.alias_ = remote.alias_ := by
        by_contra hChanged
        refine hParked ((mem_parkedAliases _ _).mpr ⟨row, hExisting row hOld hIn, rfl, ?_⟩)
        rwa [← hId, targetAlias_eq hBatch hRemote]
      refine .target remote hRemote hId ?_
      rw [writtenAlias, if_pos (hId ▸ List.mem_map_of_mem hOld), ← hKept, hName]
    · refine .outside ?_ hIn
      rwa [← hName]

include hAliases

theorem importWorkflows_ok (hAccepted : ¬ Refused before batch) :
    ∃ log final, importWorkflows batch before = ⟨.ok (), log, final⟩ ∧
      Assigning before batch [] final ∧ ∀ table ∈ log, UniqueAliases table := by
  obtain ⟨log, next, hRelease, hParking, hUnique⟩ :=
    release_ok hIds hAliases (checkTargets_ok hBatch hAccepted)
  obtain ⟨later, final, hAssign, hFinal, hLater⟩ := Logged.forM_of_invariant
    (Assigning before batch) UniqueAliases
    (fun hAssigning => hAssigning.step hAliases hBatch hAccepted) (hParking.assigning hIds hBatch)
  refine ⟨log ++ later, final, ?_, hFinal, ?_⟩
  · refine (Logged.bind_ok hRelease).trans ?_
    rw [hAssign]
    rfl
  · rw [List.forall_mem_append]
    exact ⟨hUnique, hLater⟩

omit hIds hAliases hBatch in
/-- Creating a workflow with an alias that another one has does not get through. -/
theorem forM_importSingleWorkflow_error {left : List RemoteWorkflow} {row : WorkflowRow}
    {remote : RemoteWorkflow} {name : String} (hRow : row ∈ rows) (hHeld : row.alias_ = some name)
    (hOutside : row.id ∉ left.map RemoteWorkflow.id) (hNodup : (left.map RemoteWorkflow.id).Nodup)
    (hRemote : remote ∈ left) (hNew : remote.id ∉ rows.map WorkflowRow.id)
    (hName : createdAlias remote.alias_ = some name) :
    ∃ error, ((left.forM importSingleWorkflow) rows).result = .error error := by
  induction left generalizing rows with
  | nil => cases hRemote
  | cons first left ih =>
      rw [List.map_cons, List.mem_cons, not_or] at hOutside
      rw [List.map_cons, List.nodup_cons] at hNodup
      cases hFirst : importSingleWorkflow first rows with
      | mk result log next =>
          cases result with
          | error error =>
              refine ⟨error, ?_⟩
              change ((importSingleWorkflow first >>= fun _ =>
                left.forM importSingleWorkflow) rows).result = _
              rw [Logged.bind_error hFirst]
          | ok =>
              change ∃ error, ((importSingleWorkflow first >>= fun _ =>
                left.forM importSingleWorkflow) rows).result = .error error
              rw [Logged.bind_ok hFirst, LoggedRun.after_result]
              rw [importSingleWorkflow_eq] at hFirst
              have hNext : next = updateAlias first.id first.alias_ rows ∨
                  next = rows ++ [⟨first.id, createdAlias first.alias_⟩] ∧
                    UniqueAliases (rows ++ [⟨first.id, createdAlias first.alias_⟩]) := by
                split at hFirst
                · rw [flushRow] at hFirst
                  split at hFirst
                  · cases hFirst
                    exact .inl rfl
                  · cases hFirst
                · rw [flushRow] at hFirst
                  split at hFirst
                  · rename_i hUnique
                    cases hFirst
                    exact .inr ⟨rfl, hUnique⟩
                  · cases hFirst
              have hStays : row ∈ next := by
                rcases hNext with rfl | ⟨rfl, -⟩
                · exact mem_updateAlias.mpr (.inl ⟨hOutside.1, hRow⟩)
                · exact List.mem_append_left _ hRow
              rcases List.mem_cons.mp hRemote with rfl | hLater
              · rcases hNext with rfl | ⟨rfl, hUnique⟩
                · rw [if_neg hNew, flushRow] at hFirst
                  split at hFirst
                  · have hRows := congrArg LoggedRun.world hFirst
                    have hCount := congrArg List.length hRows
                    simp [updateAlias] at hCount
                  · cases hFirst
                · have hSame := eq_of_nodup_filterMap hUnique hStays
                    (List.mem_append_right _ (List.mem_singleton_self _)) hHeld hName
                  exact absurd (congrArg WorkflowRow.id hSame) hOutside.1
              · refine ih hStays hOutside.2 hNodup.2 hLater ?_
                have hOther : remote.id ≠ first.id := fun hSame =>
                  hNodup.1 (hSame ▸ List.mem_map_of_mem hLater)
                rcases hNext with rfl | ⟨rfl, -⟩
                · rwa [ids_updateAlias]
                · rw [List.map_append, List.mem_append, not_or]
                  exact ⟨hNew, by simpa using hOther⟩

theorem importWorkflows_error (hRefused : Refused before batch) :
    ∃ error, (importWorkflows batch before).result = .error error := by
  cases hChecks : checkTargets (targetAliasesById batch) before with
  | error error =>
      have hRelease : releaseChangingWorkflowAliases batch before = ⟨.error error, [], before⟩ := by
        refine Logged.bind_error ?_
        rw [Logged.silent, hChecks]
      refine ⟨error, ?_⟩
      change ((releaseChangingWorkflowAliases batch >>= fun _ =>
        batch.forM importSingleWorkflow) before).result = _
      rw [Logged.bind_error hRelease]
  | ok =>
      obtain ⟨log, next, hRelease, hParking, -⟩ := release_ok hIds hAliases hChecks
      have hAssigning := hParking.assigning hIds hBatch
      -- what the checks let through is the alias of a new workflow
      have hNewClash : ∃ row ∈ before, row.id ∉ batch.map RemoteWorkflow.id ∧
          ∃ remote ∈ batch, remote.id ∉ before.map WorkflowRow.id ∧
            ∃ name, createdAlias remote.alias_ = some name ∧ row.alias_ = some name := by
        by_contra hNone
        refine checkTargets_error hBatch hAliases ?_ hChecks
        refine hRefused.imp_right ?_
        rintro ⟨row, hRow, hOutside, remote, hRemote, name, hName, hHeld⟩
        refine ⟨row, hRow, hOutside, remote, hRemote, ?_, name, alias_of_writtenAlias hName, hHeld⟩
        by_contra hNew
        rw [writtenAlias, if_neg hNew] at hName
        exact hNone ⟨row, hRow, hOutside, remote, hRemote, hNew, name, hName, hHeld⟩
      obtain ⟨row, hRow, hOutside, remote, hRemote, hNew, name, hName, hHeld⟩ := hNewClash
      obtain ⟨error, hError⟩ := forM_importSingleWorkflow_error
        ((hAssigning.others row hOutside).mpr hRow) hHeld hOutside hBatch hRemote
        (fun hMem => hNew (hAssigning.waiting remote hRemote hMem)) hName
      refine ⟨error, ?_⟩
      change ((releaseChangingWorkflowAliases batch >>= fun _ =>
        batch.forM importSingleWorkflow) before).result = _
      rw [Logged.bind_ok hRelease]
      exact hError

/-- Aliases are imported as they should be, unless a new workflow has the empty text as its
target and the import is not refused for another reason. -/
theorem importWorkflows_iff :
    AliasesImported before batch ↔
      (∀ remote ∈ batch, remote.alias_ = some "" → remote.id ∈ before.map WorkflowRow.id) ∨
        Refused before batch := by
  by_cases hRefused : Refused before batch
  · refine ⟨fun _ => .inr hRefused, fun _ => ?_⟩
    obtain ⟨error, hError⟩ := importWorkflows_error hIds hAliases hBatch hRefused
    refine ⟨fun hAssignable => absurd hRefused ?_, fun _ => ⟨⟨error, ?_⟩, ?_⟩⟩
    · rintro (hTwice | ⟨row, hRow, hOutside, remote, hRemote, name, hName, hHeld⟩)
      · exact hTwice hAssignable.distinct
      · exact hAssignable.free row hRow hOutside remote hRemote name
          (alias_of_writtenAlias hName) hHeld
    · rw [importTransaction, hError]
    · rw [importTransaction, hError]
  · obtain ⟨log, final, hRun, hFinal, hUnique⟩ := importWorkflows_ok hIds hAliases hBatch hRefused
    have hTransaction : importTransaction batch before = (.ok (), final) := by
      rw [importTransaction, hRun]
    have hWrittenIn : ∀ remote ∈ batch, ⟨remote.id, writtenAlias before remote⟩ ∈ final :=
      fun remote hRemote => hFinal.finished remote hRemote (by simp)
    constructor
    · intro hImported
      left
      intro remote hRemote hEmpty
      by_contra hNew
      have hWritten : writtenAlias before remote = none := by
        rw [writtenAlias, if_neg hNew, hEmpty]
        rfl
      by_cases hAssignable : Assignable before batch
      · have hAfter := (hImported.succeeds hAssignable).2.2
        rw [hTransaction] at hAfter
        have hSame := List.inj_on_of_nodup_map hFinal.nodup (hAfter.targets remote hRemote)
          (hWrittenIn remote hRemote) rfl
        rw [hEmpty, hWritten] at hSame
        cases hSame
      · obtain ⟨⟨error, hError⟩, -⟩ := hImported.fails hAssignable
        rw [hTransaction] at hError
        cases hError
    · rintro (hNoEmpty | hAgain)
      · have hWritten : ∀ remote ∈ batch, writtenAlias before remote = remote.alias_ := by
          intro remote hRemote
          rw [writtenAlias]
          split
          · rfl
          · rename_i hNew
            cases hAlias : remote.alias_ with
            | none => rfl
            | some name =>
              have hName : name ≠ "" := by
                rintro rfl
                exact hNew (hNoEmpty remote hRemote hAlias)
              rw [createdAlias, Option.filter_some, if_pos (decide_eq_true hName)]
        have hAssignable : Assignable before batch := by
          rw [Refused, not_or, not_not] at hRefused
          refine ⟨hRefused.1, fun row hRow hOutside remote hRemote name hName hHeld => ?_⟩
          exact hRefused.2 ⟨row, hRow, hOutside, remote, hRemote, name,
            (hWritten remote hRemote).trans hName, hHeld⟩
        refine ⟨fun _ => ⟨by rw [hTransaction], ?_, ?_⟩, fun hNot => absurd hAssignable hNot⟩
        · rw [hRun]
          exact hUnique
        · rw [hTransaction]
          refine ⟨hFinal.nodup, fun id => ⟨hFinal.known id, ?_⟩, fun remote hRemote => ?_,
            hFinal.others⟩
          · rintro (hOld | hIn)
            · exact hFinal.old id hOld
            · obtain ⟨remote, hRemote, rfl⟩ := List.mem_map.mp hIn
              exact List.mem_map_of_mem (hWrittenIn remote hRemote)
          · exact hWritten remote hRemote ▸ hWrittenIn remote hRemote
      · exact absurd hAgain hRefused

end Runs

/-- Two workflows exchange their aliases, and a new one takes a third. -/
theorem exchange_importWorkflows_iff :
    AliasesImported [⟨1, some "first"⟩, ⟨2, some "second"⟩]
        [⟨1, some "second"⟩, ⟨2, some "first"⟩, ⟨3, some "third"⟩] ↔
      (∀ remote ∈ ([⟨1, some "second"⟩, ⟨2, some "first"⟩, ⟨3, some "third"⟩] :
        List RemoteWorkflow), remote.alias_ = some "" → remote.id ∈ [1, 2]) ∨
        Refused [⟨1, some "first"⟩, ⟨2, some "second"⟩]
          [⟨1, some "second"⟩, ⟨2, some "first"⟩, ⟨3, some "third"⟩] :=
  importWorkflows_iff (by decide) (by decide) (by decide)

/-- A workflow that is new with the empty text as its target is left without an alias. -/
theorem empty_alias_not_imported :
    (([] : Table).map WorkflowRow.id).Nodup ∧ UniqueAliases [] ∧ Assignable [] [⟨1, some ""⟩] ∧
      ¬ AliasesImported [] [⟨1, some ""⟩] := by
  have hAssignable : Assignable [] [⟨1, some ""⟩] := ⟨by decide, by simp⟩
  refine ⟨by decide, by decide, hAssignable, fun hImported => ?_⟩
  have hAfter := (hImported.succeeds hAssignable).2.2.targets _ (List.mem_singleton_self _)
  have hTransaction : importTransaction [⟨1, some ""⟩] [] = (.ok (), [⟨1, none⟩]) := by rfl
  rw [hTransaction] at hAfter
  revert hAfter
  decide

end Sync
end Tracecat
