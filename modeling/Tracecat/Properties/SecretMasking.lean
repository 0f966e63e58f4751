import Tracecat.Secrets.Masking

/-!
# What masking leaves

No string of a result outside the keys of dictionaries contains a mask after masking.
But masks may overlap, and the scan goes on behind the first one; and keys are not masked.
-/

namespace Tracecat

namespace Secrets

open LiteralScan

variable {α : Type}

/-! ## Masked results -/

/-- A text with all that lies inside an occurrence of a mask gone. -/
def MaskedText (masks : List String) (text out : String) : Prop :=
  Redacts (Covered (masks.map String.toList) text.toList) maskValue.toList 0 text.toList out.toList

mutual

def MaskedKey (masks : List String) : Key α → Key α → Prop
  | .str text, .str out => MaskedText masks text out
  | .other value, .other out => value = out
  | .tuple items, .tuple others => MaskedKeys masks items others
  | _, _ => False

def MaskedKeys (masks : List String) : List (Key α) → List (Key α) → Prop
  | [], [] => True
  | key :: keys, out :: others => MaskedKey masks key out ∧ MaskedKeys masks keys others
  | _, _ => False

end

mutual

/-- A result of the same shape in which every string is masked. -/
def Masked (masks : List String) : Value α → Value α → Prop
  | .str text, .str out => MaskedText masks text out
  | .other value, .other out => value = out
  | .list items, .list others => MaskedItems masks items others
  | .tuple items, .tuple others => MaskedItems masks items others
  | .dict entries, .dict others => MaskedEntries masks entries others
  | _, _ => False

def MaskedItems (masks : List String) : List (Value α) → List (Value α) → Prop
  | [], [] => True
  | item :: items, out :: others => Masked masks item out ∧ MaskedItems masks items others
  | _, _ => False

def MaskedEntries (masks : List String) :
    List (Key α × Value α) → List (Key α × Value α) → Prop
  | [], [] => True
  | (key, value) :: entries, (outKey, out) :: others =>
      (MaskedKey masks key outKey ∧ Masked masks value out) ∧ MaskedEntries masks entries others
  | _, _ => False

end

/-- Masking of a result is complete: no string contains a mask, what was inside an
occurrence is gone and all else is as it was, and masking again changes nothing. -/
structure CompletelyMasked (masks : List String) (obj : Value α) : Prop where
  clean : ∀ text ∈ (applyMasksObject masks obj).keyStrings ++
      (applyMasksObject masks obj).valueStrings,
    ∀ mask ∈ masks, ¬ mask.toList <:+: text.toList
  masked : Masked masks obj (applyMasksObject masks obj)
  again : applyMasksObject masks (applyMasksObject masks obj) = applyMasksObject masks obj

/-- A string that consists of characters outside all occurrences of masks and of masks,
each the longest that begins at its place. -/
def TiledText (masks : List String) (text : String) : Prop :=
  Tiled (masks.map String.toList) text.toList 0

/-! ## Keys -/

section Keys

variable {masks : List String}

theorem maskedText_refl {text : String} (hClean : ∀ mask ∈ masks, ¬ mask.toList <:+: text.toList) :
    MaskedText masks text text := by
  refine redacts_refl (not_covered_of_clean fun pattern hMem => ?_) 0 _
  obtain ⟨mask, hMask, rfl⟩ := List.mem_map.mp hMem
  exact hClean mask hMask

mutual

theorem maskedKey_refl : ∀ key : Key α,
    (∀ text ∈ key.strings, ∀ mask ∈ masks, ¬ mask.toList <:+: text.toList) →
      MaskedKey masks key key
  | .str text, hClean => by
      rw [MaskedKey]
      exact maskedText_refl (hClean text List.mem_cons_self)
  | .other _, _ => by rw [MaskedKey]
  | .tuple items, hClean => by
      rw [MaskedKey]
      exact maskedKeys_refl items hClean

theorem maskedKeys_refl : ∀ keys : List (Key α),
    (∀ text ∈ Key.stringsItems keys, ∀ mask ∈ masks, ¬ mask.toList <:+: text.toList) →
      MaskedKeys masks keys keys
  | [], _ => trivial
  | key :: keys, hClean => by
      rw [Key.stringsItems] at hClean
      rw [MaskedKeys]
      exact ⟨maskedKey_refl key fun text hMem => hClean text (List.mem_append_left _ hMem),
        maskedKeys_refl keys fun text hMem => hClean text (List.mem_append_right _ hMem)⟩

end

end Keys

/-! ## Results -/

section Strings

variable (masks : List String)

mutual

theorem keyStrings_applyMasksObject : ∀ obj : Value α,
    (applyMasksObject masks obj).keyStrings = obj.keyStrings
  | .str _ => rfl
  | .other _ => rfl
  | .list items => keyStrings_applyMasksItems items
  | .tuple items => keyStrings_applyMasksItems items
  | .dict entries => keyStrings_applyMasksEntries entries

theorem keyStrings_applyMasksItems : ∀ items : List (Value α),
    Value.keyStringsItems (applyMasksItems masks items) = Value.keyStringsItems items
  | [] => rfl
  | item :: items => by
      rw [applyMasksItems, Value.keyStringsItems, Value.keyStringsItems,
        keyStrings_applyMasksObject item, keyStrings_applyMasksItems items]

theorem keyStrings_applyMasksEntries : ∀ entries : List (Key α × Value α),
    Value.keyStringsEntries (applyMasksEntries masks entries) = Value.keyStringsEntries entries
  | [] => rfl
  | (key, value) :: entries => by
      rw [applyMasksEntries, Value.keyStringsEntries, Value.keyStringsEntries,
        keyStrings_applyMasksObject value, keyStrings_applyMasksEntries entries]

end

mutual

theorem valueStrings_applyMasksObject : ∀ obj : Value α,
    (applyMasksObject masks obj).valueStrings = obj.valueStrings.map (applyMasks · masks)
  | .str _ => rfl
  | .other _ => rfl
  | .list items => valueStrings_applyMasksItems items
  | .tuple items => valueStrings_applyMasksItems items
  | .dict entries => valueStrings_applyMasksEntries entries

theorem valueStrings_applyMasksItems : ∀ items : List (Value α),
    Value.valueStringsItems (applyMasksItems masks items) =
      (Value.valueStringsItems items).map (applyMasks · masks)
  | [] => rfl
  | item :: items => by
      rw [applyMasksItems, Value.valueStringsItems, Value.valueStringsItems, List.map_append,
        valueStrings_applyMasksObject item, valueStrings_applyMasksItems items]

theorem valueStrings_applyMasksEntries : ∀ entries : List (Key α × Value α),
    Value.valueStringsEntries (applyMasksEntries masks entries) =
      (Value.valueStringsEntries entries).map (applyMasks · masks)
  | [] => rfl
  | (key, value) :: entries => by
      rw [applyMasksEntries, Value.valueStringsEntries, Value.valueStringsEntries,
        List.map_append, valueStrings_applyMasksObject value,
        valueStrings_applyMasksEntries entries]

end

end Strings

section Complete

variable {masks : List String} (hLength : ∀ mask ∈ masks, 2 ≤ mask.length)
  (hApart : ∀ mask ∈ masks, ∀ char ∈ mask.toList, char ∉ maskValue.toList)

include hLength hApart

-- items and entries use the hypotheses through the object only
set_option linter.unusedSectionVars false in
mutual

theorem applyMasksObject_again : ∀ obj : Value α,
    applyMasksObject masks (applyMasksObject masks obj) = applyMasksObject masks obj
  | .str text => congrArg Value.str (applyMasks_again hLength hApart text)
  | .other _ => rfl
  | .list items => congrArg Value.list (applyMasksItems_again items)
  | .tuple items => congrArg Value.tuple (applyMasksItems_again items)
  | .dict entries => congrArg Value.dict (applyMasksEntries_again entries)

theorem applyMasksItems_again : ∀ items : List (Value α),
    applyMasksItems masks (applyMasksItems masks items) = applyMasksItems masks items
  | [] => rfl
  | item :: items => congrArg₂ List.cons (applyMasksObject_again item) (applyMasksItems_again items)

theorem applyMasksEntries_again : ∀ entries : List (Key α × Value α),
    applyMasksEntries masks (applyMasksEntries masks entries) = applyMasksEntries masks entries
  | [] => rfl
  | (key, value) :: entries => by
      rw [applyMasksEntries, applyMasksEntries, applyMasksObject_again value,
        applyMasksEntries_again entries]

end

/-- A string is masked as it should be exactly when it is tiled. -/
theorem maskedText_iff (text : String) :
    MaskedText masks text (applyMasks text masks) ↔ TiledText masks text := by
  have hSame := mem_patterns hLength
  rw [MaskedText, toList_applyMasks, ← covered_congr hSame, redacts_iff_tiled
    (nonempty_patterns hLength) (pairwise_patterns masks) (apart_patterns hLength hApart)]
  exact ⟨tiled_mono hSame, tiled_mono fun pattern => (hSame pattern).symm⟩

-- items and entries use the hypotheses through the object only
set_option linter.unusedSectionVars false in
mutual

theorem masked_iff : ∀ obj : Value α,
    (∀ text ∈ obj.keyStrings, ∀ mask ∈ masks, ¬ mask.toList <:+: text.toList) →
      (Masked masks obj (applyMasksObject masks obj) ↔
        ∀ text ∈ obj.valueStrings, TiledText masks text)
  | .str text, _ => by
      rw [applyMasksObject, Masked, Value.valueStrings, List.forall_mem_singleton]
      exact maskedText_iff hLength hApart text
  | .other value, _ => by simp [applyMasksObject, Masked, Value.valueStrings]
  | .list items, hClean => by
      rw [applyMasksObject, Masked]
      exact maskedItems_iff items hClean
  | .tuple items, hClean => by
      rw [applyMasksObject, Masked]
      exact maskedItems_iff items hClean
  | .dict entries, hClean => by
      rw [applyMasksObject, Masked]
      exact maskedEntries_iff entries hClean

theorem maskedItems_iff : ∀ items : List (Value α),
    (∀ text ∈ Value.keyStringsItems items, ∀ mask ∈ masks, ¬ mask.toList <:+: text.toList) →
      (MaskedItems masks items (applyMasksItems masks items) ↔
        ∀ text ∈ Value.valueStringsItems items, TiledText masks text)
  | [], _ => by simp [applyMasksItems, MaskedItems, Value.valueStringsItems]
  | item :: items, hClean => by
      rw [Value.keyStringsItems, List.forall_mem_append] at hClean
      rw [applyMasksItems, MaskedItems, Value.valueStringsItems, List.forall_mem_append,
        masked_iff item hClean.1, maskedItems_iff items hClean.2]

theorem maskedEntries_iff : ∀ entries : List (Key α × Value α),
    (∀ text ∈ Value.keyStringsEntries entries, ∀ mask ∈ masks,
        ¬ mask.toList <:+: text.toList) →
      (MaskedEntries masks entries (applyMasksEntries masks entries) ↔
        ∀ text ∈ Value.valueStringsEntries entries, TiledText masks text)
  | [], _ => by simp [applyMasksEntries, MaskedEntries, Value.valueStringsEntries]
  | (key, value) :: entries, hClean => by
      rw [Value.keyStringsEntries, List.forall_mem_append, List.forall_mem_append] at hClean
      have hKey := maskedKey_refl key hClean.1.1
      rw [applyMasksEntries, MaskedEntries, Value.valueStringsEntries, List.forall_mem_append,
        masked_iff value hClean.1.2, maskedEntries_iff entries hClean.2]
      simp only [hKey, true_and]

end

/-- Masking is complete exactly when no key contains a mask and every other string is
tiled. -/
theorem applyMasksObject_complete_iff (obj : Value α) :
    CompletelyMasked masks obj ↔
      (∀ text ∈ obj.keyStrings, ∀ mask ∈ masks, ¬ mask.toList <:+: text.toList) ∧
        ∀ text ∈ obj.valueStrings, TiledText masks text := by
  constructor
  · rintro ⟨hClean, hMasked, -⟩
    rw [keyStrings_applyMasksObject, List.forall_mem_append] at hClean
    exact ⟨hClean.1, (masked_iff hLength hApart obj hClean.1).mp hMasked⟩
  · rintro ⟨hKeys, hTiled⟩
    refine ⟨?_, (masked_iff hLength hApart obj hKeys).mpr hTiled,
      applyMasksObject_again hLength hApart obj⟩
    rw [keyStrings_applyMasksObject, valueStrings_applyMasksObject, List.forall_mem_append]
    refine ⟨hKeys, fun text hMem mask hMask => ?_⟩
    obtain ⟨value, -, rfl⟩ := List.mem_map.mp hMem
    exact applyMasks_clean hLength hApart value hMask

end Complete

/-! ## Secrets that overlap -/

/-- Two secrets, the shorter of which ends as the longer begins. -/
def overlapping : List String := ["ab", "bcd"]

theorem overlapping_length : ∀ mask ∈ overlapping, 2 ≤ mask.length := by decide

theorem overlapping_apart :
    ∀ mask ∈ overlapping, ∀ char ∈ mask.toList, char ∉ maskValue.toList := by
  intro mask hMask char hChar hStar
  have hSame : char = '*' := by simpa [maskValue] using hStar
  subst hSame
  simp only [overlapping, List.mem_cons, List.not_mem_nil, or_false] at hMask
  rcases hMask with rfl | rfl
  · simp at hChar
  · simp at hChar

/-- Behind the shorter secret, the text is neither outside the longer one nor a secret. -/
theorem overlapping_not_tiled : ¬ TiledText overlapping "abcd" := by
  intro hTiled
  have hFirst : Covered (overlapping.map String.toList) "abcd".toList 0 :=
    ⟨"ab".toList, by decide, 0, by decide⟩
  have hThird : Covered (overlapping.map String.toList) "abcd".toList 2 :=
    ⟨"bcd".toList, by decide, 1, by decide⟩
  cases hTiled with
  | outside _ hOutside _ => exact hOutside hFirst
  | longest pattern hMem hPrefix _ hRest =>
      have hPattern : pattern = "ab".toList := by
        simp only [overlapping, List.map_cons, List.map_nil, List.mem_cons, List.not_mem_nil,
          or_false] at hMem
        rcases hMem with rfl | rfl
        · rfl
        · exact absurd hPrefix (by decide)
      subst hPattern
      cases hRest with
      | outside _ hOutside _ => exact hOutside hThird
      | longest pattern hMem hPrefix _ _ =>
          simp only [overlapping, List.map_cons, List.map_nil, List.mem_cons, List.not_mem_nil,
            or_false] at hMem
          rcases hMem with rfl | rfl
          · exact absurd hPrefix (by decide)
          · exact absurd hPrefix (by decide)

/-- The rest of the longer secret stays. -/
theorem overlapping_leaks :
    (∀ mask ∈ overlapping, 2 ≤ mask.length) ∧
      (∀ mask ∈ overlapping, ∀ char ∈ mask.toList, char ∉ maskValue.toList) ∧
      applyMasks "abcd" overlapping = "***cd" ∧
      ¬ CompletelyMasked overlapping (.str "abcd" : Value Unit) := by
  refine ⟨overlapping_length, overlapping_apart, by decide, fun hComplete => ?_⟩
  have hMasked := hComplete.masked
  rw [applyMasksObject, Masked, maskedText_iff overlapping_length overlapping_apart] at hMasked
  exact overlapping_not_tiled hMasked

/-- A result with that text and a key. -/
def leakingResult : Value Unit := .dict [(.str "token", .str "abcd")]

/-- The condition for these secrets and that result. -/
theorem overlapping_complete_iff :
    CompletelyMasked overlapping leakingResult ↔
      (∀ text ∈ leakingResult.keyStrings, ∀ mask ∈ overlapping,
          ¬ mask.toList <:+: text.toList) ∧
        ∀ text ∈ leakingResult.valueStrings, TiledText overlapping text :=
  applyMasksObject_complete_iff overlapping_length overlapping_apart leakingResult

end Secrets

end Tracecat
