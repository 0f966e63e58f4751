import Mathlib.Data.List.Count
import Mathlib.Data.List.Nodup
import Mathlib.Logic.Function.Basic

/-!
# Countdown loops

A work-list algorithm releases a key when a counter reaches zero: it walks a
list of keys, decrements the counter of each occurrence, and emits the key at
the occurrence that makes the counter zero.  This file describes the outcome
of such a walk: every counter drops by the number of occurrences of its key,
and, when no counter is overdrawn, the keys emitted are exactly those whose
counter equals their number of occurrences, each emitted once.
-/

namespace Tracecat
namespace Countdown

variable {κ : Type} [DecidableEq κ]

/-- One decrement of the counter of `key`. -/
def tick (counter : κ → Int) (key : κ) : κ → Int :=
  Function.update counter key (counter key - 1)

/-- The keys whose counter becomes zero during the walk, in the order of the
walk. -/
def released (counter : κ → Int) : List κ → List κ
  | [] => []
  | key :: rest =>
      if counter key - 1 = 0 then key :: released (tick counter key) rest
      else released (tick counter key) rest

@[simp] theorem tick_apply (counter : κ → Int) (key other : κ) :
    tick counter key other = counter other - if key = other then 1 else 0 := by
  unfold tick
  by_cases hKey : other = key
  · subst hKey
    simp
  · have hNe : key ≠ other := fun h => hKey h.symm
    simp [Function.update_of_ne hKey, hNe]

/-- After the whole walk a counter has dropped by the number of occurrences of
its key. -/
theorem foldl_tick_apply (counter : κ → Int) (keys : List κ) (key : κ) :
    keys.foldl tick counter key = counter key - keys.count key := by
  induction keys generalizing counter with
  | nil => simp
  | cons head rest ih =>
      rw [List.foldl_cons, ih, tick_apply, List.count_cons]
      by_cases hKey : head = key
      · simp [hKey]
        omega
      · simp [hKey]

theorem released_sublist (counter : κ → Int) (keys : List κ) :
    (released counter keys).Sublist keys := by
  induction keys generalizing counter with
  | nil => exact .slnil
  | cons head rest ih =>
      unfold released
      split
      · exact (ih _).cons_cons head
      · exact (ih _).cons head

theorem released_subset (counter : κ → Int) (keys : List κ) {key : κ}
    (hMem : key ∈ released counter keys) : key ∈ keys :=
  (released_sublist counter keys).subset hMem

/-- A walk that overdraws no counter still overdraws none after its first
decrement. -/
theorem count_le_tick {counter : κ → Int} {head : κ} {rest : List κ}
    (hBound : ∀ key ∈ head :: rest, ((head :: rest).count key : Int) ≤ counter key) :
    ∀ key ∈ rest, (rest.count key : Int) ≤ tick counter head key := by
  intro key hMem
  have hKey := hBound key (List.mem_cons_of_mem _ hMem)
  rw [List.count_cons] at hKey
  rw [tick_apply]
  by_cases hEq : head = key
  · simp [hEq] at hKey ⊢
    omega
  · simpa [hEq] using hKey

/-- The emitted keys are the keys of the walk whose counter is used up. -/
theorem mem_released_iff (counter : κ → Int) (keys : List κ)
    (hBound : ∀ key ∈ keys, (keys.count key : Int) ≤ counter key) (key : κ) :
    key ∈ released counter keys ↔ key ∈ keys ∧ counter key = keys.count key := by
  induction keys generalizing counter with
  | nil => simp [released]
  | cons head rest ih =>
      have hHead := hBound head List.mem_cons_self
      rw [List.count_cons_self] at hHead
      have hTail := ih (tick counter head) (count_le_tick hBound)
      rw [tick_apply] at hTail
      unfold released
      by_cases hEq : head = key
      · subst hEq
        by_cases hZero : counter head - 1 = 0
        · have hNone : rest.count head = 0 := by
            push_cast at hHead
            omega
          simp [hZero, hNone]
          omega
        · rw [if_neg hZero, hTail, List.count_cons_self]
          have hPos : counter head = rest.count head + 1 → head ∈ rest := by
            intro hCount
            apply List.count_pos_iff.mp
            omega
          constructor
          · rintro ⟨hMem, hCount⟩
            refine ⟨List.mem_cons_self, ?_⟩
            push_cast
            simp at hCount
            omega
          · rintro ⟨-, hCount⟩
            push_cast at hCount
            exact ⟨hPos hCount, by simp; omega⟩
      · have hNe : key ≠ head := fun h => hEq h.symm
        rw [List.count_cons_of_ne hEq]
        simp only [hEq, if_false, Int.sub_zero] at hTail
        split <;> simp [hTail, hNe]

/-- The walk turns the last unit of a counter into one emission of its key, and
never emits a key whose counter has run out. -/
theorem count_released (counter : κ → Int) (keys : List κ) (key : κ) :
    (released counter keys).count key + (if 0 < keys.foldl tick counter key then 1 else 0) =
      if 0 < counter key then 1 else 0 := by
  induction keys generalizing counter with
  | nil => rw [released, List.count_nil, Nat.zero_add, List.foldl_nil]
  | cons head rest ih =>
      rw [List.foldl_cons]
      have hTail := ih (tick counter head)
      rw [tick_apply] at hTail
      unfold released
      by_cases hEq : head = key
      · subst hEq
        simp only [if_true] at hTail
        by_cases hZero : counter head - 1 = 0
        · have hPos : 0 < counter head := by omega
          rw [if_pos hZero, List.count_cons_self, if_pos hPos]
          have hSpent : ¬ 0 < counter head - 1 := by omega
          rw [if_neg hSpent] at hTail
          omega
        · rw [if_neg hZero, hTail]
          by_cases hPos : 0 < counter head
          · rw [if_pos hPos, if_pos (by omega)]
          · rw [if_neg hPos, if_neg (by omega)]
      · simp only [hEq, if_false, Int.sub_zero] at hTail
        split
        · rw [List.count_cons_of_ne hEq, hTail]
        · exact hTail

theorem released_nodup (counter : κ → Int) (keys : List κ)
    (hBound : ∀ key ∈ keys, (keys.count key : Int) ≤ counter key) :
    (released counter keys).Nodup := by
  induction keys generalizing counter with
  | nil => simp [released]
  | cons head rest ih =>
      have hTail := ih (tick counter head) (count_le_tick hBound)
      unfold released
      split
      · rename_i hZero
        refine List.nodup_cons.mpr ⟨?_, hTail⟩
        intro hMem
        have hHead := hBound head List.mem_cons_self
        rw [List.count_cons_self] at hHead
        have hPos := List.count_pos_iff.mpr (released_subset _ _ hMem)
        push_cast at hHead
        omega
      · exact hTail

end Countdown
end Tracecat
