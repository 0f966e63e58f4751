import Mathlib.Data.List.AList

/-!
# Finite dictionaries

A mutable dictionary keyed by a decidable type is an association list with
distinct keys.  Mathlib's `AList` supplies lookup, insertion and erasure; this
file adds the two comprehensions that bookkeeping code uses on top of them:
keeping the keys that satisfy a test, and reading a key with a default.
-/

namespace Tracecat

/-- A dictionary with keys `K` and values `V`; no key occurs twice. -/
abbrev Dict (K V : Type) : Type := AList (fun _ : K => V)

namespace Dict

variable {K V : Type} [DecidableEq K]

/-- The value stored under `key`, or `default` when the key is absent. -/
def getD (dict : Dict K V) (key : K) (default : V) : V :=
  (dict.lookup key).getD default

/-- `{k: v for k, v in dict.items() if keep(k)}`. -/
def filterKeys (dict : Dict K V) (keep : K → Bool) : Dict K V where
  entries := dict.entries.filter fun entry => keep entry.1
  nodupKeys := by
    have hNodup : (dict.entries.map Sigma.fst).Nodup := dict.nodupKeys
    exact hNodup.sublist (List.filter_sublist.map Sigma.fst)

theorem dlookup_filter (keep : K → Bool) (key : K) (entries : List (Sigma fun _ : K => V)) :
    (entries.filter fun entry => keep entry.1).dlookup key =
      if keep key then entries.dlookup key else none := by
  induction entries with
  | nil => simp
  | cons entry rest ih =>
      obtain ⟨head, value⟩ := entry
      by_cases hKey : head = key
      · subst hKey
        by_cases hKeep : keep head <;> simp [hKeep, ih]
      · have hNe : key ≠ head := fun h => hKey h.symm
        have hSkip (tail : List (Sigma fun _ : K => V)) :
            List.dlookup key (⟨head, value⟩ :: tail) = tail.dlookup key :=
          List.dlookup_cons_ne tail ⟨head, value⟩ hNe
        by_cases hKeep : keep head <;> simp [hKeep, hSkip, ih]

@[simp] theorem lookup_filterKeys (dict : Dict K V) (keep : K → Bool) (key : K) :
    (dict.filterKeys keep).lookup key = if keep key then dict.lookup key else none :=
  dlookup_filter keep key dict.entries

theorem lookup_insert_eq (dict : Dict K V) (key other : K) (value : V) :
    (dict.insert key value).lookup other =
      if other = key then some value else dict.lookup other := by
  by_cases hKey : other = key
  · subst hKey
    simp
  · simp [AList.lookup_insert_ne hKey, hKey]

theorem lookup_erase_eq (dict : Dict K V) (key other : K) :
    (dict.erase key).lookup other = if other = key then none else dict.lookup other := by
  by_cases hKey : other = key
  · subst hKey
    simp
  · simp [AList.lookup_erase_ne hKey, hKey]

/-- Every value is replaced, with its key in view; the keys stay. -/
def mapValues (dict : Dict K V) (update : K → V → V) : Dict K V where
  entries := dict.entries.map fun entry => ⟨entry.1, update entry.1 entry.2⟩
  nodupKeys := by
    have hNodup : (dict.entries.map Sigma.fst).Nodup := dict.nodupKeys
    simpa [List.NodupKeys, List.keys, Function.comp_def] using hNodup

@[simp] theorem lookup_mapValues (dict : Dict K V) (update : K → V → V) (key : K) :
    (dict.mapValues update).lookup key = (dict.lookup key).map (update key) := by
  obtain ⟨entries, hNodup⟩ := dict
  show (entries.map fun entry => (⟨entry.1, update entry.1 entry.2⟩ : Sigma fun _ : K => V)).dlookup
    key = (entries.dlookup key).map (update key)
  clear hNodup
  induction entries with
  | nil => rfl
  | cons entry rest ih =>
      obtain ⟨head, value⟩ := entry
      by_cases hKey : head = key
      · subst hKey
        simp
      · have hNe : key ≠ head := fun h => hKey h.symm
        rw [List.map_cons, List.dlookup_cons_ne _ _ hNe, List.dlookup_cons_ne _ _ hNe, ih]

theorem getD_insert (dict : Dict K V) (key other : K) (value default : V) :
    getD (dict.insert key value) other default =
      if other = key then value else getD dict other default := by
  unfold getD
  rw [lookup_insert_eq]
  split <;> rfl

theorem mem_entries_iff (dict : Dict K V) (key : K) (value : V) :
    (⟨key, value⟩ : Sigma fun _ : K => V) ∈ dict.entries ↔ dict.lookup key = some value :=
  (AList.mem_lookup_iff (s := dict) (a := key) (b := value)).symm

theorem entries_perm {first second : Dict K V}
    (hSame : ∀ key, first.lookup key = second.lookup key) :
    first.entries.Perm second.entries := by
  refine List.lookup_ext first.nodupKeys second.nodupKeys fun key value => ?_
  rw [show first.entries.dlookup key = second.entries.dlookup key from hSame key]

theorem mem_iff_lookup (dict : Dict K V) (key : K) :
    key ∈ dict ↔ ∃ value, dict.lookup key = some value := by
  rw [← AList.lookup_isSome, Option.isSome_iff_exists]

@[simp] theorem mem_mapValues (dict : Dict K V) (update : K → V → V) (key : K) :
    key ∈ dict.mapValues update ↔ key ∈ dict := by
  rw [← AList.lookup_isSome, ← AList.lookup_isSome, lookup_mapValues, Option.isSome_map]

section FoldInsert

variable {α : Type} (key : α → K) (value : α → V)

theorem lookup_foldl_insert_of_not_mem (items : List α) (dict : Dict K V) {other : K}
    (hOther : other ∉ items.map key) :
    (items.foldl (fun dict item => dict.insert (key item) (value item)) dict).lookup other =
      dict.lookup other := by
  induction items generalizing dict with
  | nil => rfl
  | cons head rest ih =>
      rw [List.map_cons, List.mem_cons, not_or] at hOther
      rw [List.foldl_cons, ih _ hOther.2, AList.lookup_insert_ne hOther.1]

theorem lookup_foldl_insert_of_mem (items : List α) (dict : Dict K V)
    (hNodup : (items.map key).Nodup) {item : α} (hItem : item ∈ items) :
    (items.foldl (fun dict item => dict.insert (key item) (value item)) dict).lookup
      (key item) = some (value item) := by
  induction items generalizing dict with
  | nil => cases hItem
  | cons head rest ih =>
      rw [List.map_cons, List.nodup_cons] at hNodup
      rw [List.foldl_cons]
      rcases List.mem_cons.mp hItem with rfl | hRest
      · rw [lookup_foldl_insert_of_not_mem key value rest _ hNodup.1, AList.lookup_insert]
      · exact ih _ hNodup.2 hRest

end FoldInsert

theorem lookup_foldl_update (update : K → Option V → V) {keys : List K} (hNodup : keys.Nodup)
    (dict : Dict K V) (other : K) :
    (keys.foldl (fun dict key => dict.insert key (update key (dict.lookup key))) dict).lookup
      other = if other ∈ keys then some (update other (dict.lookup other))
        else dict.lookup other := by
  induction keys generalizing dict with
  | nil => simp
  | cons key keys ih =>
      obtain ⟨hKey, hRest⟩ := List.nodup_cons.mp hNodup
      rw [List.foldl_cons, ih hRest, lookup_insert_eq]
      by_cases hEq : other = key
      · subst hEq
        simp [hKey]
      · simp [hEq]

end Dict

end Tracecat
