import Mathlib.Data.List.Basic
import Mathlib.Data.List.Nodup
import Mathlib.Data.List.Sort
import Mathlib.Order.OrderDual

/-!
# Pages of a list

`slice start stop items` is `items[start:stop]` for bounds that are not negative.
Adjacent slices make one, and so do the parts of the windows of one width that a
range meets.
-/

namespace Tracecat
namespace Slices

variable {α : Type*}

/-- `items[start:stop]`. -/
def slice (start stop : Nat) (items : List α) : List α :=
  (items.take stop).drop start

/-- `items[offset:offset + limit]`, or the rest. -/
def pageOf (items : List α) (offset : Nat) : Option Nat → List α
  | none => items.drop offset
  | some size => (items.drop offset).take size

theorem slice_of_le {start stop : Nat} {items : List α} (hLe : stop ≤ start) :
    slice start stop items = [] := by
  unfold slice
  rw [List.drop_eq_nil_iff, List.length_take]
  omega

theorem slice_of_length_le {start stop : Nat} {items : List α} (hStop : items.length ≤ stop) :
    slice start stop items = items.drop start := by
  rw [slice, List.take_of_length_le hStop]

theorem slice_add (start size : Nat) (items : List α) :
    slice start (start + size) items = (items.drop start).take size := by
  unfold slice
  rw [List.drop_take, Nat.add_sub_cancel_left]

theorem slice_append {start middle stop : Nat} (items : List α) (hStart : start ≤ middle)
    (hStop : middle ≤ stop) :
    slice start middle items ++ slice middle stop items = slice start stop items := by
  unfold slice
  have hTake : items.take middle = (items.take stop).take middle := by
    rw [List.take_take, Nat.min_eq_left hStop]
  rw [hTake, List.drop_take]
  have hDrop : (items.take stop).drop middle =
      ((items.take stop).drop start).drop (middle - start) := by
    rw [List.drop_drop, Nat.add_sub_cancel' hStart]
  rw [hDrop, List.take_append_drop]

/-- A slice of a slice, with bounds counted from the start of the first. -/
theorem slice_slice (start stop from' to' : Nat) (items : List α) :
    slice from' to' (slice start stop items) =
      slice (start + from') (min (start + to') stop) items := by
  unfold slice
  rw [List.take_drop, List.drop_drop, List.take_take]

/-- The parts of consecutive windows of one width that lie in a range make up the
range as far as the windows go. -/
theorem flatten_windows {width start stop first : Nat} (items : List α)
    (hFirst : first * width ≤ start) (hNext : start < (first + 1) * width) (count : Nat)
    (hCount : (first + count) * width ≤ stop) :
    ((List.range' first (count + 1)).map fun window =>
        slice (max (window * width) start) (min ((window + 1) * width) stop) items).flatten =
      slice start (min ((first + count + 1) * width) stop) items := by
  induction count with
  | zero =>
      simp only [Nat.zero_add, List.range'_one, List.map_singleton, List.flatten_singleton,
        Nat.max_eq_right hFirst, Nat.add_zero]
  | succ count ih =>
      have hWindow : (first + 1) * width ≤ (first + (count + 1)) * width :=
        Nat.mul_le_mul_right width (by omega)
      have hBefore : (first + count) * width ≤ (first + (count + 1)) * width :=
        Nat.mul_le_mul_right width (by omega)
      have hAfter : (first + (count + 1)) * width ≤ (first + (count + 1) + 1) * width :=
        Nat.mul_le_mul_right width (by omega)
      rw [List.range'_concat, List.map_append, List.flatten_append, ih (by omega),
        List.map_singleton, List.flatten_singleton, Nat.one_mul]
      have hMiddle : min ((first + count + 1) * width) stop = (first + (count + 1)) * width := by
        rw [← Nat.add_assoc] at hCount ⊢
        exact Nat.min_eq_left hCount
      have hStart : max ((first + (count + 1)) * width) start = (first + (count + 1)) * width :=
        Nat.max_eq_left (by omega)
      rw [hMiddle, hStart]
      exact slice_append items (by omega) (by omega)

end Slices

/-! ## Sorting by a key, and cuts in the order

`sortBy key items` sorts by a key.  Where the keys are distinct, a filter may be applied
before or after, the dual order is the reversed list, and what comes before or after an
item is found by its key.
-/

namespace Keyset

variable {α K : Type*} [LinearOrder K] {key : α → K} {items : List α}

def sortBy (key : α → K) (items : List α) : List α :=
  items.mergeSort fun first second => decide (key first ≤ key second)

theorem perm_sortBy (key : α → K) (items : List α) : (sortBy key items).Perm items :=
  List.mergeSort_perm _ _

theorem pairwise_sortBy (hKeys : (items.map key).Nodup) :
    (sortBy key items).Pairwise fun first second => key first < key second := by
  have hSorted : (sortBy key items).Pairwise fun first second => key first ≤ key second := by
    have hPairwise := @List.pairwise_mergeSort α
      (fun first second => decide (key first ≤ key second))
      (fun a b c hFirst hSecond => by
        rw [decide_eq_true_iff] at hFirst hSecond ⊢
        exact le_trans hFirst hSecond)
      (fun a b => by
        rw [Bool.or_eq_true, decide_eq_true_iff, decide_eq_true_iff]
        exact le_total _ _) items
    exact hPairwise.imp fun hLe => of_decide_eq_true hLe
  have hNodup : ((sortBy key items).map key).Nodup :=
    ((perm_sortBy key items).map key).nodup_iff.mpr hKeys
  have hDistinct : (sortBy key items).Pairwise fun first second => key first ≠ key second :=
    List.pairwise_map.mp hNodup
  exact (hSorted.and hDistinct).imp fun hBoth => lt_of_le_of_ne hBoth.1 hBoth.2

theorem eq_of_perm {first second : List α}
    (hFirst : first.Pairwise fun one other => key one < key other)
    (hSecond : second.Pairwise fun one other => key one < key other) (hPerm : first.Perm second) :
    first = second := by
  refine hPerm.eq_of_pairwise ?_ hFirst hSecond
  intro one other _ _ hLt hGt
  exact absurd (lt_trans hLt hGt) (lt_irrefl _)

theorem sortBy_filter (hKeys : (items.map key).Nodup) (keep : α → Bool) :
    sortBy key (items.filter keep) = (sortBy key items).filter keep := by
  have hFiltered : ((items.filter keep).map key).Nodup :=
    hKeys.sublist (List.filter_sublist.map key)
  refine eq_of_perm (pairwise_sortBy hFiltered) ((pairwise_sortBy hKeys).filter keep) ?_
  exact (perm_sortBy key _).trans ((perm_sortBy key items).filter keep).symm

/-! ## Cuts -/

section Cuts

variable {first later : List α} {item : α}

theorem filter_gt
    (hSorted : (first ++ item :: later).Pairwise fun one other => key one < key other) :
    (first ++ item :: later).filter (fun other => decide (key item < key other)) = later := by
  rw [List.pairwise_append, List.pairwise_cons] at hSorted
  obtain ⟨-, ⟨hLater, -⟩, hFirst⟩ := hSorted
  rw [List.filter_append, List.filter_cons, List.filter_eq_nil_iff.mpr, List.nil_append, if_neg,
    List.filter_eq_self.mpr]
  · exact fun other hOther => decide_eq_true (hLater other hOther)
  · rw [decide_eq_true_iff]
    exact lt_irrefl _
  · intro other hOther
    rw [decide_eq_true_iff]
    exact lt_asymm (hFirst other hOther item List.mem_cons_self)

theorem filter_lt
    (hSorted : (first ++ item :: later).Pairwise fun one other => key one < key other) :
    (first ++ item :: later).filter (fun other => decide (key other < key item)) = first := by
  rw [List.pairwise_append, List.pairwise_cons] at hSorted
  obtain ⟨-, ⟨hLater, -⟩, hFirst⟩ := hSorted
  rw [List.filter_append, List.filter_cons, if_neg, List.filter_eq_self.mpr,
    List.filter_eq_nil_iff.mpr, List.append_nil]
  · intro other hOther
    rw [decide_eq_true_iff]
    exact lt_asymm (hLater other hOther)
  · exact fun other hOther => decide_eq_true (hFirst other hOther item List.mem_cons_self)
  · rw [decide_eq_true_iff]
    exact lt_irrefl _

/-- A list in strict order that is reversed by another one is short. -/
theorem length_le_one_of_reverse (hSorted : items.Pairwise fun one other => key one < key other)
    (hReverse : items.reverse.Pairwise fun one other => key one < key other) :
    items.length ≤ 1 := by
  cases items with
  | nil => exact Nat.zero_le 1
  | cons one items =>
      cases items with
      | nil => exact le_refl 1
      | cons other items =>
          rw [List.pairwise_reverse] at hReverse
          have hLt := (List.pairwise_cons.mp hSorted).1 other List.mem_cons_self
          have hGt := (List.pairwise_cons.mp hReverse).1 other List.mem_cons_self
          exact absurd hLt (lt_asymm hGt)

end Cuts

end Keyset
end Tracecat
