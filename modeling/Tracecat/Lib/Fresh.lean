import Mathlib.Data.List.Nodup
import Mathlib.Data.List.Perm.Subperm
import Tracecat.Lib.Paths

/-!
# Fresh texts

A loop counts up until its candidate is free.  When the candidates are distinct
and the taken texts are finitely many, it finds one.
-/

namespace Tracecat
namespace Fresh

/-- The first free candidate from a counter on, as far as the fuel goes. -/
def firstFree (candidate : Nat → String) (isTaken : String → Bool) (counter : Nat) : Nat → String
  | 0 => candidate counter
  | fuel + 1 =>
      if isTaken (candidate counter) then firstFree candidate isTaken (counter + 1) fuel
      else candidate counter

/-- `base`, a separator and a counter. -/
def suffixed (base separator : String) (counter : Nat) : String :=
  base ++ separator ++ toString counter

theorem suffixed_injective (base separator : String) :
    Function.Injective (suffixed base separator) := by
  intro first second hSame
  unfold suffixed at hSame
  have hText := congrArg String.toList hSame
  simp only [String.toList_append, List.append_assoc, List.append_cancel_left_eq] at hText
  exact Paths.toString_injective (String.toList_injective hText)

variable {candidate : Nat → String} {isTaken : String → Bool}

theorem firstFree_free {counter fuel : Nat}
    (hFree : ∃ i ≤ fuel, isTaken (candidate (counter + i)) = false) :
    isTaken (firstFree candidate isTaken counter fuel) = false := by
  induction fuel generalizing counter with
  | zero =>
      obtain ⟨i, hLe, hFree⟩ := hFree
      obtain rfl : i = 0 := by omega
      exact hFree
  | succ fuel ih =>
      unfold firstFree
      by_cases hTaken : isTaken (candidate counter)
      · rw [if_pos hTaken]
        obtain ⟨i, hLe, hFree⟩ := hFree
        cases i with
        | zero => rw [Nat.add_zero, hTaken] at hFree; cases hFree
        | succ i =>
            apply ih
            refine ⟨i, by omega, ?_⟩
            rwa [Nat.add_right_comm, Nat.add_assoc]
      · rw [if_neg hTaken]
        simpa using hTaken

theorem firstFree_notMem (hInjective : Function.Injective candidate) {taken : List String}
    (hTaken : ∀ text, isTaken text = true → text ∈ taken) (counter : Nat) {fuel : Nat}
    (hFuel : taken.length ≤ fuel) :
    isTaken (firstFree candidate isTaken counter fuel) = false := by
  apply firstFree_free
  by_contra hNone
  push Not at hNone
  have hSubset : (List.range (fuel + 1)).map (fun i => candidate (counter + i)) ⊆ taken := by
    intro text hText
    obtain ⟨i, hI, rfl⟩ := List.mem_map.mp hText
    have hLe : i ≤ fuel := by
      have := List.mem_range.mp hI
      omega
    exact hTaken _ (by simpa using hNone i hLe)
  have hNodup : ((List.range (fuel + 1)).map fun i => candidate (counter + i)).Nodup := by
    apply List.Nodup.map_on _ List.nodup_range
    intro first _ second _ hSame
    have hCounter := hInjective hSame
    omega
  have hLength := (hNodup.subperm hSubset).length_le
  rw [List.length_map, List.length_range] at hLength
  omega

end Fresh
end Tracecat
