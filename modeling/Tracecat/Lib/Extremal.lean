import Mathlib.Data.List.Basic
import Mathlib.Order.Lattice

/-!
# The first least and the last greatest entry of a list

Some items of a list have a key.  The first item with the least key and the last item
with the greatest key are told by what stands before and after them, so a scan that keeps
the best item so far comes to them one item at a time.
-/

namespace Tracecat
namespace Extremal

variable {α κ : Type} {key : α → Option κ}

/-- The item has the least key, and no item before it has the same. -/
def FirstLeast [LinearOrder κ] (key : α → Option κ) (items : List α) (found : α × κ) : Prop :=
  ∃ before after, items = before ++ found.1 :: after ∧ key found.1 = some found.2 ∧
    (∀ other ∈ before, ∀ value, key other = some value → found.2 < value) ∧
    ∀ other ∈ after, ∀ value, key other = some value → found.2 ≤ value

/-- The item has the greatest key, and no item after it has the same. -/
def LastGreatest [LinearOrder κ] (key : α → Option κ) (items : List α) (found : α × κ) : Prop :=
  ∃ before after, items = before ++ found.1 :: after ∧ key found.1 = some found.2 ∧
    (∀ other ∈ before, ∀ value, key other = some value → value ≤ found.2) ∧
    ∀ other ∈ after, ∀ value, key other = some value → value < found.2

/-- No item has a key. -/
def Keyless (key : α → Option κ) (items : List α) : Prop := ∀ item ∈ items, key item = none

variable {items : List α} {found : α × κ} {item : α}

/-! ## One item more -/

section Concat

theorem Keyless.concat (hKeyless : Keyless key items) (hItem : key item = none) :
    Keyless key (items ++ [item]) := by
  intro other hOther
  rcases List.mem_append.mp hOther with hOld | hNew
  · exact hKeyless other hOld
  · obtain rfl := List.mem_singleton.mp hNew
    exact hItem

variable [LinearOrder κ]

theorem Keyless.firstLeast {value : κ} (hKeyless : Keyless key items)
    (hItem : key item = some value) : FirstLeast key (items ++ [item]) (item, value) := by
  refine ⟨items, [], rfl, hItem, fun other hOther other_ hValue => ?_, by simp⟩
  rw [hKeyless other hOther] at hValue
  cases hValue

theorem Keyless.lastGreatest {value : κ} (hKeyless : Keyless key items)
    (hItem : key item = some value) : LastGreatest key (items ++ [item]) (item, value) := by
  refine ⟨items, [], rfl, hItem, fun other hOther other_ hValue => ?_, by simp⟩
  rw [hKeyless other hOther] at hValue
  cases hValue

theorem FirstLeast.concat (hFound : FirstLeast key items found)
    (hItem : ∀ value, key item = some value → found.2 ≤ value) :
    FirstLeast key (items ++ [item]) found := by
  obtain ⟨before, after, rfl, hKey, hBefore, hAfter⟩ := hFound
  refine ⟨before, after ++ [item], by simp, hKey, hBefore, fun other hOther => ?_⟩
  rcases List.mem_append.mp hOther with hOld | hNew
  · exact hAfter other hOld
  · obtain rfl := List.mem_singleton.mp hNew
    exact hItem

theorem FirstLeast.le (hFound : FirstLeast key items found) {other : α} (hOther : other ∈ items)
    {value : κ} (hValue : key other = some value) : found.2 ≤ value := by
  obtain ⟨before, after, rfl, hKey, hBefore, hAfter⟩ := hFound
  rcases List.mem_append.mp hOther with hIn | hIn
  · exact (hBefore other hIn value hValue).le
  · rcases List.mem_cons.mp hIn with rfl | hIn
    · exact le_of_eq (Option.some.inj (hKey.symm.trans hValue))
    · exact hAfter other hIn value hValue

theorem LastGreatest.le (hFound : LastGreatest key items found) {other : α}
    (hOther : other ∈ items) {value : κ} (hValue : key other = some value) :
    value ≤ found.2 := by
  obtain ⟨before, after, rfl, hKey, hBefore, hAfter⟩ := hFound
  rcases List.mem_append.mp hOther with hIn | hIn
  · exact hBefore other hIn value hValue
  · rcases List.mem_cons.mp hIn with rfl | hIn
    · exact le_of_eq (Option.some.inj (hValue.symm.trans hKey))
    · exact (hAfter other hIn value hValue).le

theorem FirstLeast.replace {value : κ} (hFound : FirstLeast key items found)
    (hItem : key item = some value) (hLt : value < found.2) :
    FirstLeast key (items ++ [item]) (item, value) := by
  refine ⟨items, [], rfl, hItem, fun other hOther low hLow => ?_, by simp⟩
  exact lt_of_lt_of_le hLt (hFound.le hOther hLow)

theorem LastGreatest.replace {value : κ} (hFound : LastGreatest key items found)
    (hItem : key item = some value) (hLe : found.2 ≤ value) :
    LastGreatest key (items ++ [item]) (item, value) := by
  refine ⟨items, [], rfl, hItem, fun other hOther high hHigh => ?_, by simp⟩
  exact (hFound.le hOther hHigh).trans hLe

theorem LastGreatest.concat (hFound : LastGreatest key items found)
    (hItem : ∀ value, key item = some value → value < found.2) :
    LastGreatest key (items ++ [item]) found := by
  obtain ⟨before, after, rfl, hKey, hBefore, hAfter⟩ := hFound
  refine ⟨before, after ++ [item], by simp, hKey, hBefore, fun other hOther => ?_⟩
  rcases List.mem_append.mp hOther with hOld | hNew
  · exact hAfter other hOld
  · obtain rfl := List.mem_singleton.mp hNew
    exact hItem

end Concat

/-! ## Items without a key -/

/-- Items of a kind, put anywhere into a list. -/
inductive Padded (extra : α → Prop) : List α → List α → Prop
  | nil : Padded extra [] []
  | keep (item : α) {items padded : List α} :
      Padded extra items padded → Padded extra (item :: items) (item :: padded)
  | insert {item : α} {items padded : List α} :
      extra item → Padded extra items padded → Padded extra items (item :: padded)

section Padded

variable {extra : α → Prop} {padded : List α} (hPadded : Padded extra items padded)
include hPadded

theorem Padded.subset : items ⊆ padded := by
  induction hPadded with
  | nil => exact List.Subset.refl _
  | keep item _ ih => exact List.cons_subset_cons item ih
  | insert _ _ ih => exact List.subset_cons_of_subset _ ih

theorem Padded.append {others padded' : List α} (hOthers : Padded extra others padded') :
    Padded extra (items ++ others) (padded ++ padded') := by
  induction hPadded with
  | nil => exact hOthers
  | keep item _ ih => exact .keep item ih
  | insert hExtra _ ih => exact .insert hExtra ih

theorem Padded.reverse : Padded extra items.reverse padded.reverse := by
  induction hPadded with
  | nil => exact .nil
  | keep item _ ih =>
      rw [List.reverse_cons, List.reverse_cons]
      exact ih.append (.keep item .nil)
  | @insert item items padded hExtra _ ih =>
      rw [List.reverse_cons, ← List.append_nil items.reverse]
      exact ih.append (.insert hExtra .nil)

end Padded

/-! ## Uniqueness -/

/-- Two places of a list: one is the other, or stands after it. -/
theorem split_cases {before before' after after' : List α} {first second : α}
    (hSame : before ++ first :: after = before' ++ second :: after') :
    first = second ∨ (second ∈ after ∧ first ∈ before') ∨ (first ∈ after' ∧ second ∈ before) := by
  rcases List.append_eq_append_iff.mp hSame with ⟨gap, hBefore, hAfter⟩ | ⟨gap, hBefore, hAfter⟩
  · cases gap with
    | nil => exact .inl (List.cons.inj hAfter).1
    | cons head gap =>
        obtain ⟨rfl, rfl⟩ := List.cons.inj hAfter
        exact .inr (.inl ⟨by simp, by simp [hBefore]⟩)
  · cases gap with
    | nil => exact .inl (List.cons.inj hAfter).1.symm
    | cons head gap =>
        obtain ⟨rfl, rfl⟩ := List.cons.inj hAfter
        exact .inr (.inr ⟨by simp, by simp [hBefore]⟩)

theorem FirstLeast.unique [LinearOrder κ] {other : α × κ} (hFound : FirstLeast key items found)
    (hOther : FirstLeast key items other) : found = other := by
  obtain ⟨before, after, rfl, hKey, hBefore, hAfter⟩ := hFound
  obtain ⟨before', after', hSame, hKey', hBefore', hAfter'⟩ := hOther
  have hItem : found.1 = other.1 := by
    rcases split_cases hSame with hEq | ⟨hSecond, hFirst⟩ | ⟨hFirst, hSecond⟩
    · exact hEq
    · exact absurd (hBefore' _ hFirst _ hKey) (hAfter _ hSecond _ hKey').not_gt
    · exact absurd (hBefore _ hSecond _ hKey') (hAfter' _ hFirst _ hKey).not_gt
  rw [← hItem, hKey] at hKey'
  exact Prod.ext hItem (Option.some.inj hKey')

theorem LastGreatest.unique [LinearOrder κ] {other : α × κ} (hFound : LastGreatest key items found)
    (hOther : LastGreatest key items other) : found = other := by
  obtain ⟨before, after, rfl, hKey, hBefore, hAfter⟩ := hFound
  obtain ⟨before', after', hSame, hKey', hBefore', hAfter'⟩ := hOther
  have hItem : found.1 = other.1 := by
    rcases split_cases hSame with hEq | ⟨hSecond, hFirst⟩ | ⟨hFirst, hSecond⟩
    · exact hEq
    · exact absurd (hBefore' _ hFirst _ hKey) (hAfter _ hSecond _ hKey').not_ge
    · exact absurd (hBefore _ hSecond _ hKey') (hAfter' _ hFirst _ hKey).not_ge
  rw [← hItem, hKey] at hKey'
  exact Prod.ext hItem (Option.some.inj hKey')

end Extremal
end Tracecat
