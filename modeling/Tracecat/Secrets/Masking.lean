import Mathlib.Data.List.Sort
import Tracecat.Lib.LiteralScan

/-!
# Masking of secrets

`secrets/common.py`: the values of the secrets that an action used are replaced in its
result.  The masks are joined to one pattern, the longest first, and replaced from left
to right in every string of the result.
-/

namespace Tracecat

namespace Secrets

variable {α : Type}

/-- `MASK_VALUE`. -/
def maskValue : String := "***"

inductive Key (α : Type)
  | str (text : String)
  | other (value : α)
  | tuple (items : List (Key α))

/-- A result; `other` values are neither strings, sequences nor mappings. -/
inductive Value (α : Type)
  | str (text : String)
  | other (value : α)
  | list (items : List (Value α))
  | tuple (items : List (Value α))
  | dict (entries : List (Key α × Value α))

/-- The alternatives of the pattern: masks of more than one character, the longest first. -/
def sortedMasks (masks : List String) : List String :=
  (masks.filter fun mask => 1 < mask.length).insertionSort fun mask other =>
    other.length ≤ mask.length

/-- `apply_masks`. -/
def applyMasks (value : String) (masks : List String) : String :=
  if masks.isEmpty then value
  else if (sortedMasks masks).isEmpty then value
  else
    String.ofList (LiteralScan.substitute ((sortedMasks masks).map String.toList)
      maskValue.toList 0 value.toList)

mutual

/-- `apply_masks_object`. -/
def applyMasksObject (masks : List String) : Value α → Value α
  | .str text => .str (applyMasks text masks)
  | .other value => .other value
  | .list items => .list (applyMasksItems masks items)
  | .tuple items => .tuple (applyMasksItems masks items)
  | .dict entries => .dict (applyMasksEntries masks entries)

def applyMasksItems (masks : List String) : List (Value α) → List (Value α)
  | [] => []
  | item :: items => applyMasksObject masks item :: applyMasksItems masks items

def applyMasksEntries (masks : List String) : List (Key α × Value α) → List (Key α × Value α)
  | [] => []
  | (key, value) :: entries =>
      (key, applyMasksObject masks value) :: applyMasksEntries masks entries

end

/-! ## The strings of a result -/

mutual

def Key.strings : Key α → List String
  | .str text => [text]
  | .other _ => []
  | .tuple items => Key.stringsItems items

def Key.stringsItems : List (Key α) → List String
  | [] => []
  | key :: keys => key.strings ++ Key.stringsItems keys

end

mutual

/-- The strings in the keys of dictionaries. -/
def Value.keyStrings : Value α → List String
  | .str _ => []
  | .other _ => []
  | .list items => Value.keyStringsItems items
  | .tuple items => Value.keyStringsItems items
  | .dict entries => Value.keyStringsEntries entries

def Value.keyStringsItems : List (Value α) → List String
  | [] => []
  | item :: items => item.keyStrings ++ Value.keyStringsItems items

def Value.keyStringsEntries : List (Key α × Value α) → List String
  | [] => []
  | (key, value) :: entries => key.strings ++ value.keyStrings ++ Value.keyStringsEntries entries

end

mutual

/-- The strings that are not in a key. -/
def Value.valueStrings : Value α → List String
  | .str text => [text]
  | .other _ => []
  | .list items => Value.valueStringsItems items
  | .tuple items => Value.valueStringsItems items
  | .dict entries => Value.valueStringsEntries entries

def Value.valueStringsItems : List (Value α) → List String
  | [] => []
  | item :: items => item.valueStrings ++ Value.valueStringsItems items

def Value.valueStringsEntries : List (Key α × Value α) → List String
  | [] => []
  | (_, value) :: entries => value.valueStrings ++ Value.valueStringsEntries entries

end

/-! ## One string -/

section Text

variable {masks : List String} (hLength : ∀ mask ∈ masks, 2 ≤ mask.length)
  (hApart : ∀ mask ∈ masks, ∀ char ∈ mask.toList, char ∉ maskValue.toList)

theorem mem_sortedMasks (hLength : ∀ mask ∈ masks, 2 ≤ mask.length) (mask : String) :
    mask ∈ sortedMasks masks ↔ mask ∈ masks := by
  rw [sortedMasks, List.mem_insertionSort, List.mem_filter]
  refine ⟨fun hBoth => hBoth.1, fun hMem => ⟨hMem, ?_⟩⟩
  have := hLength mask hMem
  exact decide_eq_true (by omega)

theorem mem_patterns (hLength : ∀ mask ∈ masks, 2 ≤ mask.length) (pattern : List Char) :
    pattern ∈ (sortedMasks masks).map String.toList ↔ pattern ∈ masks.map String.toList := by
  simp only [List.mem_map, mem_sortedMasks hLength]

theorem pairwise_patterns (masks : List String) :
    ((sortedMasks masks).map String.toList).Pairwise fun first second =>
      second.length ≤ first.length := by
  rw [List.pairwise_map]
  have hSorted := List.pairwise_insertionSort
    (fun mask other : String => other.length ≤ mask.length)
    (masks.filter fun mask => 1 < mask.length)
  refine hSorted.imp fun hLe => ?_
  rw [String.length_toList, String.length_toList]
  exact hLe

theorem toList_applyMasks (value : String) (masks : List String) :
    (applyMasks value masks).toList =
      LiteralScan.substitute ((sortedMasks masks).map String.toList) maskValue.toList 0
        value.toList := by
  have hNone : sortedMasks masks = [] → value.toList =
      LiteralScan.substitute ((sortedMasks masks).map String.toList) maskValue.toList 0
        value.toList := by
    intro hEmpty
    rw [hEmpty]
    exact (LiteralScan.substitute_of_clean (by simp)).symm
  rw [applyMasks]
  split
  · rename_i hEmpty
    rw [List.isEmpty_iff] at hEmpty
    subst hEmpty
    exact hNone rfl
  · split
    · rename_i hEmpty
      exact hNone (List.isEmpty_iff.mp hEmpty)
    · exact String.toList_ofList

include hLength

theorem nonempty_patterns :
    ∀ pattern ∈ (sortedMasks masks).map String.toList, pattern ≠ [] := by
  intro pattern hMem hEmpty
  obtain ⟨mask, hMask, rfl⟩ := List.mem_map.mp ((mem_patterns hLength pattern).mp hMem)
  have hTwo := hLength mask hMask
  rw [← String.length_toList, hEmpty] at hTwo
  cases hTwo

include hApart

theorem apart_patterns : ∀ pattern ∈ (sortedMasks masks).map String.toList,
    ∀ char ∈ pattern, char ∉ maskValue.toList := by
  intro pattern hMem
  obtain ⟨mask, hMask, rfl⟩ := List.mem_map.mp ((mem_patterns hLength pattern).mp hMem)
  exact hApart mask hMask

theorem applyMasks_clean (value : String) {mask : String} (hMem : mask ∈ masks) :
    ¬ mask.toList <:+: (applyMasks value masks).toList := by
  rw [toList_applyMasks]
  exact LiteralScan.not_infix_substitute (nonempty_patterns hLength) (by decide)
    (apart_patterns hLength hApart) 0
    ((mem_patterns hLength _).mpr (List.mem_map_of_mem hMem))

theorem applyMasks_again (value : String) :
    applyMasks (applyMasks value masks) masks = applyMasks value masks := by
  rw [← String.toList_inj, toList_applyMasks]
  refine LiteralScan.substitute_of_clean fun pattern hMem => ?_
  obtain ⟨mask, hMask, rfl⟩ := List.mem_map.mp ((mem_patterns hLength pattern).mp hMem)
  exact applyMasks_clean hLength hApart value hMask

end Text

end Secrets

end Tracecat
