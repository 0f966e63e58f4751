import Mathlib.Data.List.Induction
import Mathlib.Data.List.Nodup

/-!
# Dictionaries that keep their order

A dictionary as the list of its entries in the order in which the keys came in.
A key that is set again keeps its place and takes the new value.  `List.lookup`
reads the entries.
-/

namespace Tracecat
namespace Assoc

variable {κ α : Type*} [DecidableEq κ]

/-- `entries[key] = value`. -/
def set (key : κ) (value : α) : List (κ × α) → List (κ × α)
  | [] => [(key, value)]
  | entry :: entries =>
      if entry.1 = key then (key, value) :: entries else entry :: set key value entries

/-- `dict(pairs)`. -/
def ofPairs (pairs : List (κ × α)) : List (κ × α) :=
  pairs.foldl (fun entries pair => set pair.1 pair.2 entries) []

/-- `entries.update(pairs)`. -/
def update (entries pairs : List (κ × α)) : List (κ × α) :=
  pairs.foldl (fun entries pair => set pair.1 pair.2 entries) entries

theorem lookup_cons_eq_ite (entry : κ × α) (entries : List (κ × α)) (key : κ) :
    (entry :: entries).lookup key = if key = entry.1 then some entry.2 else entries.lookup key := by
  rw [List.lookup_cons]
  by_cases hKey : key = entry.1
  · simp [hKey]
  · simp [hKey, beq_eq_false_iff_ne.mpr hKey]

@[simp] theorem lookup_set (key : κ) (value : α) (entries : List (κ × α)) (other : κ) :
    (set key value entries).lookup other =
      if other = key then some value else entries.lookup other := by
  induction entries with
  | nil =>
      unfold set
      rw [lookup_cons_eq_ite]
  | cons entry entries ih =>
      unfold set
      by_cases hEntry : entry.1 = key
      · rw [if_pos hEntry, lookup_cons_eq_ite, lookup_cons_eq_ite, hEntry]
        by_cases hKey : other = key
        · rw [if_pos hKey, if_pos hKey]
        · rw [if_neg hKey, if_neg hKey, if_neg hKey]
      · rw [if_neg hEntry, lookup_cons_eq_ite, lookup_cons_eq_ite, ih]
        by_cases hKey : other = entry.1
        · rw [if_pos hKey, if_pos hKey, if_neg (hKey ▸ hEntry)]
        · rw [if_neg hKey, if_neg hKey]

theorem lookup_set_cases {key other : κ} {value found : α} {entries : List (κ × α)}
    (hFound : (set key value entries).lookup other = some found) :
    entries.lookup other = some found ∨ other = key ∧ found = value := by
  rw [lookup_set] at hFound
  split at hFound
  next hKey => exact Or.inr ⟨hKey, (Option.some.inj hFound).symm⟩
  next => exact Or.inl hFound

theorem mem_keys_set {key other : κ} {value : α} {entries : List (κ × α)} :
    other ∈ (set key value entries).map Prod.fst ↔
      other = key ∨ other ∈ entries.map Prod.fst := by
  induction entries with
  | nil => simp [set]
  | cons entry entries ih =>
      unfold set
      by_cases hEntry : entry.1 = key
      · rw [if_pos hEntry]
        simp [hEntry]
      · rw [if_neg hEntry, List.map_cons, List.mem_cons, ih, List.map_cons, List.mem_cons]
        tauto

theorem mem_values_set {key : κ} {value other : α} {entries : List (κ × α)}
    (hMem : other ∈ (set key value entries).map Prod.snd) :
    other = value ∨ other ∈ entries.map Prod.snd := by
  induction entries with
  | nil => exact Or.inl (List.mem_singleton.mp hMem)
  | cons entry entries ih =>
      unfold set at hMem
      by_cases hEntry : entry.1 = key
      · rw [if_pos hEntry, List.map_cons, List.mem_cons] at hMem
        exact hMem.imp_right fun hRest => List.mem_cons_of_mem _ hRest
      · rw [if_neg hEntry, List.map_cons, List.mem_cons] at hMem
        rcases hMem with rfl | hRest
        · exact Or.inr List.mem_cons_self
        · exact (ih hRest).imp_right fun hRest => List.mem_cons_of_mem _ hRest

theorem nodup_set {key : κ} {value : α} {entries : List (κ × α)}
    (hNodup : (entries.map Prod.fst).Nodup) : ((set key value entries).map Prod.fst).Nodup := by
  induction entries with
  | nil => simp [set]
  | cons entry entries ih =>
      rw [List.map_cons, List.nodup_cons] at hNodup
      unfold set
      by_cases hEntry : entry.1 = key
      · rw [if_pos hEntry, List.map_cons, List.nodup_cons]
        exact ⟨hEntry ▸ hNodup.1, hNodup.2⟩
      · rw [if_neg hEntry, List.map_cons, List.nodup_cons, mem_keys_set]
        refine ⟨?_, ih hNodup.2⟩
        rintro (hSame | hMem)
        · exact hEntry hSame
        · exact hNodup.1 hMem

theorem lookup_foldl_set (pairs entries : List (κ × α)) (key : κ) :
    (pairs.foldl (fun entries pair => set pair.1 pair.2 entries) entries).lookup key =
      (pairs.reverse.lookup key).or (entries.lookup key) := by
  induction pairs generalizing entries with
  | nil => simp
  | cons pair pairs ih =>
      rw [List.foldl_cons, ih, lookup_set, List.reverse_cons, List.lookup_append]
      rw [lookup_cons_eq_ite, List.lookup_nil, Option.or_assoc]
      by_cases hKey : key = pair.1
      · rw [if_pos hKey, if_pos hKey, Option.some_or]
      · rw [if_neg hKey, if_neg hKey, Option.none_or]

theorem lookup_ofPairs (pairs : List (κ × α)) (key : κ) :
    (ofPairs pairs).lookup key = pairs.reverse.lookup key := by
  simp [ofPairs, lookup_foldl_set]

theorem mem_set {key : κ} {value : α} {entries : List (κ × α)} {entry : κ × α}
    (hMem : entry ∈ set key value entries) : entry = (key, value) ∨ entry ∈ entries := by
  induction entries with
  | nil => exact Or.inl (List.mem_singleton.mp hMem)
  | cons first entries ih =>
      unfold set at hMem
      by_cases hFirst : first.1 = key
      · rw [if_pos hFirst, List.mem_cons] at hMem
        exact hMem.imp_right fun hRest => List.mem_cons_of_mem _ hRest
      · rw [if_neg hFirst, List.mem_cons] at hMem
        rcases hMem with rfl | hRest
        · exact Or.inr List.mem_cons_self
        · exact (ih hRest).imp_right fun hRest => List.mem_cons_of_mem _ hRest

theorem mem_update {pairs entries : List (κ × α)} {entry : κ × α}
    (hMem : entry ∈ update entries pairs) : entry ∈ pairs ∨ entry ∈ entries := by
  induction pairs generalizing entries with
  | nil => exact Or.inr hMem
  | cons pair pairs ih =>
      rcases ih hMem with hPairs | hEntries
      · exact Or.inl (List.mem_cons_of_mem _ hPairs)
      · rcases mem_set hEntries with rfl | hOld
        · exact Or.inl List.mem_cons_self
        · exact Or.inr hOld

theorem nodup_update (pairs : List (κ × α)) {entries : List (κ × α)}
    (hNodup : (entries.map Prod.fst).Nodup) : ((update entries pairs).map Prod.fst).Nodup := by
  induction pairs generalizing entries with
  | nil => exact hNodup
  | cons pair pairs ih => exact ih (nodup_set hNodup)

theorem mem_keys_update {pairs entries : List (κ × α)} {key : κ} :
    key ∈ (update entries pairs).map Prod.fst ↔
      key ∈ pairs.map Prod.fst ∨ key ∈ entries.map Prod.fst := by
  induction pairs generalizing entries with
  | nil => simp [update]
  | cons pair pairs ih =>
      have hSet := @ih (set pair.1 pair.2 entries)
      rw [mem_keys_set] at hSet
      rw [List.map_cons, List.mem_cons]
      exact Iff.trans hSet (by tauto)

theorem mem_keys_ofPairs {pairs : List (κ × α)} {key : κ} :
    key ∈ (ofPairs pairs).map Prod.fst ↔ key ∈ pairs.map Prod.fst := by
  refine Iff.trans mem_keys_update ⟨?_, Or.inl⟩
  rintro (hPairs | hNone)
  · exact hPairs
  · cases hNone

theorem nodup_ofPairs (pairs : List (κ × α)) : ((ofPairs pairs).map Prod.fst).Nodup :=
  nodup_update pairs List.nodup_nil

theorem lookup_update (pairs entries : List (κ × α)) (key : κ) :
    (update entries pairs).lookup key = (pairs.reverse.lookup key).or (entries.lookup key) :=
  lookup_foldl_set pairs entries key

theorem set_of_notMem {key : κ} {value : α} {entries : List (κ × α)}
    (hKey : key ∉ entries.map Prod.fst) : set key value entries = entries ++ [(key, value)] := by
  induction entries with
  | nil => rfl
  | cons entry entries ih =>
      rw [List.map_cons, List.mem_cons, not_or] at hKey
      rw [set, if_neg (Ne.symm hKey.1), ih hKey.2, List.cons_append]

theorem update_of_nodup {pairs entries : List (κ × α)}
    (hNodup : ((entries ++ pairs).map Prod.fst).Nodup) :
    update entries pairs = entries ++ pairs := by
  induction pairs generalizing entries with
  | nil => rw [List.append_nil]; rfl
  | cons pair pairs ih =>
      have hKey : pair.1 ∉ entries.map Prod.fst := by
        rw [List.map_append, List.map_cons] at hNodup
        exact fun hMem => (List.nodup_append.mp hNodup).2.2 _ hMem _ List.mem_cons_self rfl
      have hRest : ((entries ++ [pair] ++ pairs).map Prod.fst).Nodup := by simpa using hNodup
      show update (set pair.1 pair.2 entries) pairs = _
      rw [set_of_notMem hKey, ih hRest, List.append_assoc, List.singleton_append]

theorem ofPairs_eq_self {pairs : List (κ × α)} (hNodup : (pairs.map Prod.fst).Nodup) :
    ofPairs pairs = pairs :=
  @update_of_nodup κ α _ pairs [] hNodup

theorem lookup_eq_some_iff {entries : List (κ × α)} (hNodup : (entries.map Prod.fst).Nodup)
    {key : κ} {value : α} : entries.lookup key = some value ↔ (key, value) ∈ entries := by
  induction entries with
  | nil => simp
  | cons entry entries ih =>
      rw [List.map_cons, List.nodup_cons] at hNodup
      obtain ⟨head, first⟩ := entry
      rw [lookup_cons_eq_ite, List.mem_cons]
      by_cases hKey : key = head
      · subst hKey
        have hNot : (key, value) ∉ entries := fun hMem =>
          hNodup.1 (List.mem_map.mpr ⟨_, hMem, rfl⟩)
        simp [hNot, eq_comm]
      · rw [if_neg hKey, ih hNodup.2]
        simp [hKey]

/-- With distinct keys, the order of the entries does not matter. -/
theorem lookup_reverse {entries : List (κ × α)} (hNodup : (entries.map Prod.fst).Nodup) (key : κ) :
    entries.reverse.lookup key = entries.lookup key := by
  have hReverse : (entries.reverse.map Prod.fst).Nodup := by
    rw [List.map_reverse]
    exact List.nodup_reverse.mpr hNodup
  ext value
  rw [lookup_eq_some_iff hReverse, lookup_eq_some_iff hNodup, List.mem_reverse]

theorem lookup_filter_key (keep : κ → Bool) (entries : List (κ × α)) (key : κ) :
    (entries.filter fun entry => keep entry.1).lookup key =
      if keep key then entries.lookup key else none := by
  induction entries with
  | nil => simp
  | cons entry entries ih =>
      by_cases hKeep : keep entry.1
      · rw [List.filter_cons, if_pos hKeep, lookup_cons_eq_ite, lookup_cons_eq_ite, ih]
        by_cases hKey : key = entry.1
        · rw [if_pos hKey, if_pos hKey, hKey, if_pos hKeep]
        · rw [if_neg hKey, if_neg hKey]
      · rw [List.filter_cons, if_neg hKeep, lookup_cons_eq_ite, ih]
        by_cases hKey : key = entry.1
        · rw [if_pos hKey, hKey, if_neg hKeep, if_neg hKeep]
        · rw [if_neg hKey]

/-- The last row of a key gives the entry of a dictionary that is filled from rows. -/
theorem lookup_ofPairs_map {β : Type*} (key : β → κ) (value : β → α) (rows : List β) (k : κ) :
    (ofPairs (rows.map fun row => (key row, value row))).lookup k =
      (rows.reverse.find? fun row => key row = k).map value := by
  rw [lookup_ofPairs, ← List.map_reverse]
  induction rows.reverse with
  | nil => rfl
  | cons row rows ih =>
      rw [List.map_cons, lookup_cons_eq_ite, ih]
      by_cases hKey : key row = k
      · rw [if_pos hKey.symm, List.find?_cons_of_pos (by simpa using hKey), Option.map_some]
      · rw [if_neg (Ne.symm hKey), List.find?_cons_of_neg (by simpa using hKey)]

theorem find?_key_eq_some {β : Type*} {key : β → κ} {rows : List β}
    (hNodup : (rows.map key).Nodup) {k : κ} {row : β} :
    rows.find? (fun other => key other = k) = some row ↔ row ∈ rows ∧ key row = k := by
  constructor
  · intro hFind
    exact ⟨List.mem_of_find?_eq_some hFind, by simpa using List.find?_some hFind⟩
  · rintro ⟨hRow, hKey⟩
    cases hFind : rows.find? fun other => key other = k with
    | none =>
        have hNone := List.find?_eq_none.mp hFind row hRow
        exact absurd hKey (by simpa using hNone)
    | some other =>
        have hOther : key other = k := by simpa using List.find?_some hFind
        rw [List.inj_on_of_nodup_map hNodup (List.mem_of_find?_eq_some hFind) hRow
          (hOther.trans hKey.symm)]

theorem lookup_isSome_iff {entries : List (κ × α)} {key : κ} :
    (entries.lookup key).isSome ↔ key ∈ entries.map Prod.fst := by
  induction entries with
  | nil => simp
  | cons entry entries ih =>
      rw [lookup_cons_eq_ite, List.map_cons, List.mem_cons, ← ih]
      by_cases hKey : key = entry.1
      · simp [hKey]
      · simp [hKey]

theorem mem_of_lookup {entries : List (κ × α)} {key : κ} {value : α}
    (hLookup : entries.lookup key = some value) : (key, value) ∈ entries := by
  induction entries with
  | nil => cases hLookup
  | cons entry entries ih =>
      rw [lookup_cons_eq_ite] at hLookup
      split at hLookup
      · next hKey =>
          rw [hKey, ← Option.some.inj hLookup]
          exact List.mem_cons_self
      · exact List.mem_cons_of_mem _ (ih hLookup)

theorem set_set (key : κ) (first second : α) (entries : List (κ × α)) :
    set key second (set key first entries) = set key second entries := by
  induction entries with
  | nil => simp [set]
  | cons entry entries ih =>
      by_cases hEntry : entry.1 = key
      · simp [set, hEntry]
      · simp [set, hEntry, ih]

/-- Where every key has one value, the order of the pairs does not count. -/
theorem lookup_ofPairs_eq_some {pairs : List (κ × α)}
    (hOne : ∀ key first second, (key, first) ∈ pairs → (key, second) ∈ pairs → first = second)
    {key : κ} {value : α} : (ofPairs pairs).lookup key = some value ↔ (key, value) ∈ pairs := by
  rw [lookup_ofPairs]
  constructor
  · intro hLookup
    exact List.mem_reverse.mp (mem_of_lookup hLookup)
  · intro hMem
    obtain ⟨found, hFound⟩ := Option.isSome_iff_exists.mp (lookup_isSome_iff.mpr
      (List.mem_map_of_mem (f := Prod.fst) (List.mem_reverse.mpr hMem)))
    rw [hFound, hOne key found value (List.mem_reverse.mp (mem_of_lookup hFound)) hMem]

theorem set_of_lookup {entries : List (κ × α)} (hNodup : (entries.map Prod.fst).Nodup) {key : κ}
    {value : α} (hLookup : entries.lookup key = some value) (change : α → α) :
    set key (change value) entries = entries.map fun entry =>
      if entry.1 = key then (entry.1, change entry.2) else entry := by
  induction entries with
  | nil => cases hLookup
  | cons entry entries ih =>
      rw [List.map_cons, List.nodup_cons] at hNodup
      rw [lookup_cons_eq_ite] at hLookup
      rw [List.map_cons]
      by_cases hKey : entry.1 = key
      · have hRest : (entries.map fun other =>
            if other.1 = key then (other.1, change other.2) else other) = entries := by
          conv_rhs => rw [← List.map_id entries]
          apply List.map_congr_left
          intro other hOther
          rw [if_neg, id]
          intro hSame
          exact hNodup.1 (List.mem_map.mpr ⟨other, hOther, hSame.trans hKey.symm⟩)
        rw [if_pos hKey.symm, Option.some.injEq] at hLookup
        rw [set, if_pos hKey, if_pos hKey, hRest, hLookup, hKey]
      · rw [if_neg (Ne.symm hKey)] at hLookup
        rw [set, if_neg hKey, if_neg hKey, ih hNodup.2 hLookup]

/-- Which keys there are, and in which order, does not depend on the values. -/
theorem keys_set_congr {entries others : List (κ × α)}
    (hKeys : entries.map Prod.fst = others.map Prod.fst) (key : κ) (value other : α) :
    (set key value entries).map Prod.fst = (set key other others).map Prod.fst := by
  induction entries generalizing others with
  | nil =>
      cases others with
      | nil => rfl
      | cons entry others => cases hKeys
  | cons entry entries ih =>
      cases others with
      | nil => cases hKeys
      | cons entry' others =>
          rw [List.map_cons, List.map_cons] at hKeys
          obtain ⟨hFirst, hRest⟩ := List.cons.inj hKeys
          unfold set
          rw [hFirst]
          by_cases hKey : entry'.1 = key
          · rw [if_pos hKey, if_pos hKey, List.map_cons, List.map_cons, hRest]
          · rw [if_neg hKey, if_neg hKey, List.map_cons, List.map_cons, hFirst, ih hRest]

theorem keys_update_congr {pairs others entries entries' : List (κ × α)}
    (hPairs : pairs.map Prod.fst = others.map Prod.fst)
    (hEntries : entries.map Prod.fst = entries'.map Prod.fst) :
    (update entries pairs).map Prod.fst = (update entries' others).map Prod.fst := by
  induction pairs generalizing others entries entries' with
  | nil =>
      cases others with
      | nil => exact hEntries
      | cons other others => cases hPairs
  | cons pair pairs ih =>
      cases others with
      | nil => cases hPairs
      | cons other others =>
          rw [List.map_cons, List.map_cons] at hPairs
          obtain ⟨hFirst, hRest⟩ := List.cons.inj hPairs
          apply ih hRest
          show (set pair.1 pair.2 entries).map Prod.fst =
            (set other.1 other.2 entries').map Prod.fst
          rw [hFirst]
          exact keys_set_congr hEntries other.1 pair.2 other.2

theorem lookup_eq_none {entries : List (κ × α)} {key : κ} (hKey : key ∉ entries.map Prod.fst) :
    entries.lookup key = none := by
  rw [← Option.not_isSome_iff_eq_none, lookup_isSome_iff]
  exact hKey

/-- Entries with the same keys and the same readings are the same. -/
theorem eq_of_lookup {entries others : List (κ × α)}
    (hKeys : entries.map Prod.fst = others.map Prod.fst) (hNodup : (entries.map Prod.fst).Nodup)
    (hLookup : ∀ key, entries.lookup key = others.lookup key) : entries = others := by
  induction entries generalizing others with
  | nil =>
      cases others with
      | nil => rfl
      | cons other others => cases hKeys
  | cons entry entries ih =>
      cases others with
      | nil => cases hKeys
      | cons other others =>
          rw [List.map_cons, List.map_cons] at hKeys
          obtain ⟨hFirst, hRest⟩ := List.cons.inj hKeys
          rw [List.map_cons, List.nodup_cons] at hNodup
          have hValue := hLookup entry.1
          rw [lookup_cons_eq_ite, lookup_cons_eq_ite, if_pos rfl, if_pos hFirst] at hValue
          have hTails : entries = others := by
            apply ih hRest hNodup.2
            intro key
            by_cases hKey : key = entry.1
            · have hOthers : entry.1 ∉ others.map Prod.fst := hRest ▸ hNodup.1
              rw [hKey, lookup_eq_none hNodup.1, lookup_eq_none hOthers]
            · have hSame := hLookup key
              rwa [lookup_cons_eq_ite, lookup_cons_eq_ite, if_neg hKey, if_neg (hFirst ▸ hKey)]
                at hSame
          rw [hTails, Prod.ext hFirst (Option.some.inj hValue)]
/-! ## Accumulation by keys -/

section Accumulate

variable {β : Type*} (key : β → κ) (update : Option α → β → α)

/-- Each item in turn updates the entry of its key. -/
def accumulate (items : List β) : List (κ × α) :=
  items.foldl (fun entries item =>
    set (key item) (update (entries.lookup (key item)) item) entries) []

variable {key update}

theorem accumulate_concat (items : List β) (item : β) :
    accumulate key update (items ++ [item]) =
      set (key item) (update ((accumulate key update items).lookup (key item)) item)
        (accumulate key update items) := by
  rw [accumulate, List.foldl_append]
  rfl

theorem lookup_accumulate (items : List β) (k : κ) :
    (accumulate key update items).lookup k =
      (items.filter fun item => key item = k).foldl
        (fun entry item => some (update entry item)) none := by
  induction items using List.reverseRecOn with
  | nil => rfl
  | append_singleton items item ih =>
      rw [accumulate_concat, lookup_set, List.filter_append]
      by_cases hKey : key item = k
      · subst hKey
        have hSelf : decide (key item = key item) = true := decide_eq_true rfl
        rw [if_pos rfl, ih, List.filter_singleton, hSelf, List.foldl_append]
        rfl
      · have hOther : decide (key item = k) = false := decide_eq_false hKey
        rw [if_neg (Ne.symm hKey), ih, List.filter_singleton, hOther, cond_false, List.append_nil]

theorem mem_keys_accumulate {items : List β} {k : κ} :
    k ∈ (accumulate key update items).map Prod.fst ↔ ∃ item ∈ items, key item = k := by
  induction items using List.reverseRecOn with
  | nil => simp [accumulate]
  | append_singleton items item ih =>
      rw [accumulate_concat, mem_keys_set, ih]
      constructor
      · rintro (rfl | ⟨other, hOther, hKey⟩)
        · exact ⟨item, by simp, rfl⟩
        · exact ⟨other, List.mem_append_left _ hOther, hKey⟩
      · rintro ⟨other, hOther, hKey⟩
        rcases List.mem_append.mp hOther with hMem | hMem
        · exact Or.inr ⟨other, hMem, hKey⟩
        · rw [List.mem_singleton] at hMem
          exact Or.inl (hMem ▸ hKey.symm)

theorem nodup_accumulate (items : List β) :
    ((accumulate key update items).map Prod.fst).Nodup := by
  induction items using List.reverseRecOn with
  | nil => exact List.nodup_nil
  | append_singleton items item ih =>
      rw [accumulate_concat]
      exact nodup_set ih

end Accumulate

/-! ## Pairs that later ones replace -/

section ForLast

variable {β : Type*} (key : β → κ)

/-- A property of the last row with each key. -/
def ForLast (P : β → Prop) : List β → Prop
  | [] => True
  | row :: rows => (key row ∈ rows.map key ∨ P row) ∧ ForLast P rows

variable {key}

omit [DecidableEq κ] in
theorem ForLast.imp {P Q : β → Prop} {rows : List β} (hLast : ForLast key P rows)
    (hImp : ∀ row ∈ rows, P row → Q row) : ForLast key Q rows := by
  induction rows with
  | nil => trivial
  | cons row rows ih =>
      refine ⟨hLast.1.imp_right (hImp row List.mem_cons_self), ih hLast.2 ?_⟩
      exact fun other hOther => hImp other (List.mem_cons_of_mem _ hOther)

theorem lookup_reverse_map_iff {f g : β → α} {rows : List β} :
    (∀ k, (rows.map fun row => (key row, f row)).reverse.lookup k =
        (rows.map fun row => (key row, g row)).reverse.lookup k) ↔
      ForLast key (fun row => f row = g row) rows := by
  have hKeys : ∀ h : β → α, ∀ rows : List β,
      (rows.map fun row => (key row, h row)).reverse.map Prod.fst = (rows.map key).reverse := by
    intro h rows
    rw [List.map_reverse, List.map_map]
    rfl
  induction rows with
  | nil => exact ⟨fun _ => trivial, fun _ _ => rfl⟩
  | cons row rows ih =>
      simp only [List.map_cons, List.reverse_cons, List.lookup_append, lookup_cons_eq_ite,
        List.lookup_nil]
      constructor
      · intro hSame
        refine ⟨?_, ih.mp ?_⟩
        · by_cases hLater : key row ∈ rows.map key
          · exact Or.inl hLater
          · right
            have hRow := hSame (key row)
            have hNone : ∀ h : β → α,
                (rows.map fun row => (key row, h row)).reverse.lookup (key row) = none := by
              intro h
              apply lookup_eq_none
              rw [hKeys, List.mem_reverse]
              exact hLater
            rw [hNone, hNone, if_pos rfl, Option.none_or, if_pos rfl, Option.none_or] at hRow
            exact Option.some.inj hRow
        · intro k
          by_cases hLater : k ∈ rows.map key
          · have hRow := hSame k
            have hSome : ∀ h : β → α, ∃ value,
                (rows.map fun row => (key row, h row)).reverse.lookup k = some value := by
              intro h
              apply Option.isSome_iff_exists.mp
              rw [lookup_isSome_iff, hKeys, List.mem_reverse]
              exact hLater
            obtain ⟨first, hFirst⟩ := hSome f
            obtain ⟨second, hSecond⟩ := hSome g
            rw [hFirst, hSecond, Option.some_or, Option.some_or] at hRow
            rw [hFirst, hSecond, hRow]
          · rw [lookup_eq_none, lookup_eq_none]
            · rw [hKeys, List.mem_reverse]
              exact hLater
            · rw [hKeys, List.mem_reverse]
              exact hLater
      · rintro ⟨hRow, hRows⟩ k
        rw [ih.mpr hRows k]
        rcases hRow with hLater | hRow
        · by_cases hKey : k = key row
          · have hSome : ((rows.map fun row => (key row, g row)).reverse.lookup k).isSome := by
              rw [lookup_isSome_iff, hKeys, List.mem_reverse, hKey]
              exact hLater
            obtain ⟨value, hValue⟩ := Option.isSome_iff_exists.mp hSome
            rw [hValue, Option.some_or, Option.some_or]
          · rw [if_neg hKey, if_neg hKey]
        · rw [hRow]

/-- Dictionaries of pairs with the same keys agree if and only if the last pairs agree. -/
theorem ofPairs_map_eq_iff {f g : β → α} {rows : List β} :
    (ofPairs (rows.map fun row => (key row, f row)) =
        ofPairs (rows.map fun row => (key row, g row))) ↔
      ForLast key (fun row => f row = g row) rows := by
  rw [← lookup_reverse_map_iff]
  constructor
  · intro hSame k
    rw [← lookup_ofPairs, ← lookup_ofPairs, hSame]
  · intro hLookup
    apply eq_of_lookup
    · apply keys_update_congr _ rfl
      rw [List.map_map, List.map_map]
      rfl
    · exact nodup_ofPairs _
    · intro k
      rw [lookup_ofPairs, lookup_ofPairs, hLookup]

end ForLast

end Assoc
end Tracecat
