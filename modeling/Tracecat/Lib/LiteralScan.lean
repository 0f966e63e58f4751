import Mathlib.Data.List.Infix
import Mathlib.Tactic.Ring

/-!
# Replacing literals from left to right

A text is read once.  Where one of the patterns begins, the first of them that does is
replaced, and reading goes on behind it; any other character is kept.

* `substitute`: what the reading gives.
* `scan_induction`: the induction along the reading.
* `not_infix_substitute`: no pattern is left, when the replacement has no character of a
  pattern.
* `Redacts`: the text with given positions gone, which is what a reader expects who
  thinks of all occurrences of the patterns.
* `redacts_iff_tiled`: the reading does that exactly when the text consists of characters
  outside all occurrences and of longest patterns, one behind the other.
-/

namespace Tracecat

namespace LiteralScan

variable {α : Type} [DecidableEq α]

/-- The first pattern that a text begins with. -/
def firstMatch (patterns : List (List α)) (text : List α) : Option (List α) :=
  patterns.find? (·.isPrefixOf text)

/-- The text with matches replaced; the first characters, which belong to a match that is
already replaced, are skipped. -/
def substitute (patterns : List (List α)) (replacement : List α) : Nat → List α → List α
  | _, [] => []
  | skip + 1, _ :: rest => substitute patterns replacement skip rest
  | 0, char :: rest =>
      match firstMatch patterns (char :: rest) with
      | some found => replacement ++ substitute patterns replacement (found.length - 1) rest
      | none => char :: substitute patterns replacement 0 rest

variable {patterns : List (List α)} {replacement text : List α}

theorem substitute_skip (skip : Nat) (text : List α) :
    substitute patterns replacement skip text =
      substitute patterns replacement 0 (text.drop skip) := by
  induction text generalizing skip with
  | nil => cases skip <;> rfl
  | cons char rest ih =>
      cases skip with
      | zero => rfl
      | succ skip => exact ih skip

theorem mem_of_firstMatch {found : List α} (hMatch : firstMatch patterns text = some found) :
    found ∈ patterns ∧ found <+: text := by
  have hPrefix := @List.find?_some _ (fun pattern : List α => pattern.isPrefixOf text)
    found patterns hMatch
  exact ⟨List.mem_of_find?_eq_some hMatch, List.isPrefixOf_iff_prefix.mp hPrefix⟩

theorem not_prefix_of_firstMatch (hMatch : firstMatch patterns text = none) {pattern : List α}
    (hMem : pattern ∈ patterns) : ¬ pattern <+: text := by
  intro hPrefix
  have hNot := List.find?_eq_none.mp hMatch pattern hMem
  exact hNot (List.isPrefixOf_iff_prefix.mpr hPrefix)

theorem substitute_none {char : α} {rest : List α}
    (hMatch : firstMatch patterns (char :: rest) = none) :
    substitute patterns replacement 0 (char :: rest) =
      char :: substitute patterns replacement 0 rest := by
  rw [substitute, hMatch]

section Reading

variable (hNonempty : ∀ pattern ∈ patterns, pattern ≠ [])

include hNonempty

theorem substitute_some {found : List α} (hMatch : firstMatch patterns text = some found) :
    substitute patterns replacement 0 text =
      replacement ++ substitute patterns replacement 0 (text.drop found.length) := by
  obtain ⟨hMem, hPrefix⟩ := mem_of_firstMatch hMatch
  cases text with
  | nil => exact absurd (List.prefix_nil.mp hPrefix) (hNonempty found hMem)
  | cons char rest =>
      obtain ⟨length, hLength⟩ := Nat.exists_eq_succ_of_ne_zero
        (fun hZero => hNonempty found hMem (List.length_eq_zero_iff.mp hZero))
      rw [substitute, hMatch, hLength, List.drop_succ_cons]
      simp only [hLength, Nat.succ_sub_one]
      rw [substitute_skip]

/-- Along the reading: a position is passed by one character, or by a match. -/
theorem scan_induction (text : List α) {motive : Nat → Prop}
    (done : ∀ position, text.length ≤ position → motive position)
    (step : ∀ position, position < text.length →
      firstMatch patterns (text.drop position) = none → motive (position + 1) → motive position)
    (jump : ∀ position found, firstMatch patterns (text.drop position) = some found →
      motive (position + found.length) → motive position) (position : Nat) : motive position := by
  induction hRest : text.length - position using Nat.strong_induction_on generalizing position with
  | _ rest ih =>
      by_cases hLength : position < text.length
      · cases hMatch : firstMatch patterns (text.drop position) with
        | none => exact step position hLength hMatch (ih _ (by omega) _ rfl)
        | some found =>
            have hPositive := List.length_pos_iff.mpr
              (hNonempty found (mem_of_firstMatch hMatch).1)
            exact jump position found hMatch (ih _ (by omega) _ rfl)
      · exact done position (by omega)

/-! ## What is left -/

section Clean

variable (hReplacement : replacement ≠ [])

include hReplacement

/-- A word without characters of the replacement that the result begins with is one that
the text begins with. -/
theorem prefix_of_substitute (position : Nat) {word : List α}
    (hApart : ∀ char ∈ word, char ∉ replacement)
    (hWord : word <+: substitute patterns replacement 0 (text.drop position)) :
    word <+: text.drop position := by
  induction position using scan_induction hNonempty text generalizing word with
  | done position hLength =>
      rw [List.drop_eq_nil_of_le hLength] at hWord ⊢
      exact hWord
  | step position hLength hMatch ih =>
      rw [List.drop_eq_getElem_cons hLength] at hMatch hWord ⊢
      rw [substitute_none hMatch] at hWord
      cases word with
      | nil => exact List.nil_prefix
      | cons char word =>
          obtain ⟨rfl, hTail⟩ := List.cons_prefix_cons.mp hWord
          refine List.cons_prefix_cons.mpr ⟨rfl, ih (fun other hOther => ?_) hTail⟩
          exact hApart other (List.mem_cons_of_mem _ hOther)
  | jump position found hMatch _ =>
      rw [substitute_some hNonempty hMatch] at hWord
      obtain ⟨first, others, rfl⟩ := List.exists_cons_of_ne_nil hReplacement
      cases word with
      | nil => exact List.nil_prefix
      | cons char word =>
          obtain ⟨rfl, -⟩ := List.cons_prefix_cons.mp hWord
          exact absurd List.mem_cons_self (hApart char List.mem_cons_self)

omit [DecidableEq α] hNonempty hReplacement in
theorem infix_of_infix_append {word before rest : List α} (hWord : word ≠ [])
    (hApart : ∀ char ∈ word, char ∉ before) (hInfix : word <:+: before ++ rest) :
    word <:+: rest := by
  induction before with
  | nil => exact hInfix
  | cons first before ih =>
      rw [List.cons_append, List.infix_cons_iff] at hInfix
      rcases hInfix with hPrefix | hInfix
      · obtain ⟨char, word, rfl⟩ := List.exists_cons_of_ne_nil hWord
        obtain ⟨rfl, -⟩ := List.cons_prefix_cons.mp hPrefix
        exact absurd List.mem_cons_self (hApart char List.mem_cons_self)
      · exact ih (fun char hChar hMem => hApart char hChar (List.mem_cons_of_mem _ hMem)) hInfix

variable (hApart : ∀ pattern ∈ patterns, ∀ char ∈ pattern, char ∉ replacement)

include hApart

theorem not_infix_substitute (position : Nat) {pattern : List α} (hMem : pattern ∈ patterns) :
    ¬ pattern <:+: substitute patterns replacement 0 (text.drop position) := by
  induction position using scan_induction hNonempty text with
  | done position hLength =>
      rw [List.drop_eq_nil_of_le hLength]
      exact fun hInfix => hNonempty pattern hMem (List.infix_nil.mp hInfix)
  | step position hLength hMatch ih =>
      intro hInfix
      have hText := List.drop_eq_getElem_cons hLength
      rw [hText, substitute_none (hText ▸ hMatch), List.infix_cons_iff] at hInfix
      rcases hInfix with hPrefix | hInfix
      · rw [← substitute_none (hText ▸ hMatch), ← hText] at hPrefix
        have hBegins := prefix_of_substitute hNonempty hReplacement position (hApart pattern hMem)
          hPrefix
        exact not_prefix_of_firstMatch hMatch hMem hBegins
      · exact ih hInfix
  | jump position found hMatch ih =>
      intro hInfix
      rw [substitute_some hNonempty hMatch, List.drop_drop] at hInfix
      exact ih (infix_of_infix_append (hNonempty pattern hMem) (hApart pattern hMem) hInfix)

end Clean

omit hNonempty in
theorem substitute_of_clean (hClean : ∀ pattern ∈ patterns, ¬ pattern <:+: text) :
    substitute patterns replacement 0 text = text := by
  induction text with
  | nil => rfl
  | cons char rest ih =>
      have hMatch : firstMatch patterns (char :: rest) = none := by
        rw [firstMatch, List.find?_eq_none]
        intro pattern hMem hPrefix
        exact hClean pattern hMem (List.isPrefixOf_iff_prefix.mp hPrefix).isInfix
      rw [substitute_none hMatch, ih fun pattern hMem hInfix =>
        hClean pattern hMem (hInfix.trans (List.suffix_cons char rest).isInfix)]

end Reading

/-! ## What was to go -/

/-- A position that lies inside an occurrence of a pattern. -/
def Covered (patterns : List (List α)) (text : List α) (position : Nat) : Prop :=
  ∃ pattern ∈ patterns, ∃ start, start ≤ position ∧ position < start + pattern.length ∧
    pattern <+: text.drop start

/-- A text, from a position on, with the characters at some positions gone: others are
kept, and a row of them is replaced. -/
inductive Redacts (gone : Nat → Prop) (replacement : List α) : Nat → List α → List α → Prop
  | nil (position : Nat) : Redacts gone replacement position [] []
  | keep {position : Nat} (char : α) {rest out : List α} (hKeep : ¬ gone position)
      (hRest : Redacts gone replacement (position + 1) rest out) :
      Redacts gone replacement position (char :: rest) (char :: out)
  | replace {position : Nat} (chunk : List α) {rest out : List α} (hChunk : chunk ≠ [])
      (hGone : ∀ offset, offset < chunk.length → gone (position + offset))
      (hRest : Redacts gone replacement (position + chunk.length) rest out) :
      Redacts gone replacement position (chunk ++ rest) (replacement ++ out)

/-- A text that, from a position on, consists of characters outside all occurrences and of
patterns, each the longest that begins at its place. -/
inductive Tiled (patterns : List (List α)) (text : List α) : Nat → Prop
  | done : Tiled patterns text text.length
  | outside {position : Nat} (hLength : position < text.length)
      (hOutside : ¬ Covered patterns text position) (hRest : Tiled patterns text (position + 1)) :
      Tiled patterns text position
  | longest {position : Nat} (pattern : List α) (hMem : pattern ∈ patterns)
      (hPrefix : pattern <+: text.drop position)
      (hLongest : ∀ other ∈ patterns, other <+: text.drop position →
        other.length ≤ pattern.length)
      (hRest : Tiled patterns text (position + pattern.length)) :
      Tiled patterns text position

omit [DecidableEq α] in
theorem covered_congr {others : List (List α)}
    (hSame : ∀ pattern, pattern ∈ patterns ↔ pattern ∈ others) :
    Covered patterns text = Covered others text := by
  funext position
  simp only [Covered, hSame]

omit [DecidableEq α] in
theorem tiled_mono {others : List (List α)} (hSame : ∀ pattern, pattern ∈ patterns ↔ pattern ∈ others)
    {position : Nat} (hTiled : Tiled patterns text position) : Tiled others text position := by
  induction hTiled with
  | done => exact .done
  | outside hLength hOutside _ ih => exact .outside hLength (covered_congr hSame ▸ hOutside) ih
  | longest pattern hMem hPrefix hLongest _ ih =>
      refine .longest pattern ((hSame pattern).mp hMem) hPrefix (fun other hOther => ?_) ih
      exact hLongest other ((hSame other).mpr hOther)

omit [DecidableEq α] in
theorem redacts_refl {gone : Nat → Prop} (hGone : ∀ position, ¬ gone position)
    (position : Nat) (text : List α) : Redacts gone replacement position text text := by
  induction text generalizing position with
  | nil => exact .nil position
  | cons char rest ih => exact .keep char (hGone position) (ih (position + 1))

omit [DecidableEq α] in
theorem not_covered_of_clean (hClean : ∀ pattern ∈ patterns, ¬ pattern <:+: text)
    (position : Nat) : ¬ Covered patterns text position := by
  rintro ⟨pattern, hMem, start, -, -, hPrefix⟩
  exact hClean pattern hMem (hPrefix.isInfix.trans (List.drop_suffix start text).isInfix)

/-! ## When all that was to go is gone -/

section Counting

open Classical in
/-- How many characters of a kind are to stay. -/
noncomputable def staying (gone : Nat → Prop) (kind : α → Bool) : Nat → List α → Nat
  | _, [] => 0
  | position, char :: rest =>
      (if kind char = true ∧ ¬ gone position then 1 else 0) + staying gone kind (position + 1) rest

variable {gone : Nat → Prop} {kind : α → Bool}

omit [DecidableEq α] in
theorem staying_append {chunk : List α} {position : Nat}
    (hGone : ∀ offset, offset < chunk.length → gone (position + offset)) (rest : List α) :
    staying gone kind position (chunk ++ rest) =
      staying gone kind (position + chunk.length) rest := by
  induction chunk generalizing position with
  | nil => rfl
  | cons char chunk ih =>
      have hHere : gone position := hGone 0 (Nat.succ_pos _)
      have hLater : ∀ offset, offset < chunk.length → gone (position + 1 + offset) := by
        intro offset hOffset
        rw [show position + 1 + offset = position + (offset + 1) by ring]
        exact hGone (offset + 1) (Nat.succ_lt_succ hOffset)
      rw [List.cons_append, staying, if_neg (fun hBoth => hBoth.2 hHere), ih hLater, List.length_cons,
        Nat.zero_add, show position + 1 + chunk.length = position + (chunk.length + 1) by ring]

omit [DecidableEq α] in
/-- Of the characters that the replacement does not have, exactly those that are to stay do. -/
theorem Redacts.countP_eq {position : Nat} {out : List α}
    (hRedacts : Redacts gone replacement position text out)
    (hReplacement : ∀ char ∈ replacement, kind char = false) :
    out.countP kind = staying gone kind position text := by
  induction hRedacts with
  | nil position => rfl
  | @keep position char rest out hKeep _ ih =>
      rw [List.countP_cons, staying, ih, Nat.add_comm]
      cases kind char <;> simp [hKeep]
  | @replace position chunk rest out hChunk hGone _ ih =>
      have hNone : replacement.countP kind = 0 :=
        List.countP_eq_zero.mpr fun char hMem => by simp [hReplacement char hMem]
      rw [List.countP_append, hNone, Nat.zero_add, ih, staying_append hGone]

end Counting

section Tiles

variable (hNonempty : ∀ pattern ∈ patterns, pattern ≠ [])
  (hSorted : patterns.Pairwise fun first second => second.length ≤ first.length)
  (hApart : ∀ pattern ∈ patterns, ∀ char ∈ pattern, char ∉ replacement)

theorem length_le_of_firstMatch {found other : List α}
    (hSorted : patterns.Pairwise fun first second => second.length ≤ first.length)
    (hMatch : firstMatch patterns text = some found) (hOther : other ∈ patterns)
    (hPrefix : other <+: text) : other.length ≤ found.length := by
  obtain ⟨-, before, after, rfl, hBefore⟩ := List.find?_eq_some_iff_append.mp hMatch
  rcases List.mem_append.mp hOther with hMem | hMem
  · have hNot := hBefore other hMem
    rw [List.isPrefixOf_iff_prefix.mpr hPrefix] at hNot
    cases hNot
  · rcases List.mem_cons.mp hMem with rfl | hMem
    · exact le_rfl
    · exact (List.pairwise_cons.mp (List.pairwise_append.mp hSorted).2.1).1 other hMem

omit [DecidableEq α] in
theorem covered_of_begins {pattern : List α} {position : Nat} (hMem : pattern ∈ patterns)
    (hPrefix : pattern <+: text.drop position) (offset : Nat) (hOffset : offset < pattern.length) :
    Covered patterns text (position + offset) :=
  ⟨pattern, hMem, position, Nat.le_add_right _ _, Nat.add_lt_add_left hOffset _, hPrefix⟩

omit [DecidableEq α] in
theorem drop_eq_append {pattern : List α} {position : Nat}
    (hPrefix : pattern <+: text.drop position) :
    text.drop position = pattern ++ text.drop (position + pattern.length) := by
  obtain ⟨rest, hRest⟩ := hPrefix
  rw [← List.drop_drop, ← hRest, List.drop_left]

include hNonempty

section

include hSorted

theorem redacts_of_tiled {position : Nat} (hTiled : Tiled patterns text position) :
    Redacts (Covered patterns text) replacement position (text.drop position)
      (substitute patterns replacement 0 (text.drop position)) := by
  induction hTiled with
  | done =>
      rw [List.drop_length]
      exact .nil _
  | @outside position hLength hOutside _ ih =>
      have hMatch : firstMatch patterns (text.drop position) = none := by
        refine List.find?_eq_none.mpr fun pattern hMem hPrefix => hOutside ?_
        have hCovered := covered_of_begins hMem (List.isPrefixOf_iff_prefix.mp hPrefix) 0
          (List.length_pos_iff.mpr (hNonempty pattern hMem))
        exact hCovered
      rw [List.drop_eq_getElem_cons hLength] at hMatch ⊢
      rw [substitute_none hMatch]
      exact .keep _ hOutside ih
  | @longest position pattern hMem hPrefix hLongest _ ih =>
      cases hMatch : firstMatch patterns (text.drop position) with
      | none => exact absurd hPrefix (not_prefix_of_firstMatch hMatch hMem)
      | some found =>
          obtain ⟨hFound, hFoundPrefix⟩ := mem_of_firstMatch hMatch
          have hEq : found = pattern := by
            have hLength : found.length = pattern.length := le_antisymm
              (hLongest found hFound hFoundPrefix)
              (length_le_of_firstMatch hSorted hMatch hMem hPrefix)
            exact (List.prefix_of_prefix_length_le hFoundPrefix hPrefix hLength.le).eq_of_length
              hLength
          subst hEq
          rw [substitute_some hNonempty hMatch, List.drop_drop, drop_eq_append hPrefix]
          exact .replace found (hNonempty found hFound) (covered_of_begins hFound hPrefix) ih

end

variable {kind : α → Bool} (hKind : ∀ pattern ∈ patterns, ∀ char ∈ pattern, kind char = true)
  (hOther : ∀ char ∈ replacement, kind char = false)

theorem staying_le_countP (position : Nat) :
    staying (Covered patterns text) kind position (text.drop position) ≤
      (substitute patterns replacement 0 (text.drop position)).countP kind := by
  induction position using scan_induction hNonempty text with
  | done position hLength =>
      rw [List.drop_eq_nil_of_le hLength]
      exact Nat.le_refl 0
  | step position hLength hMatch ih =>
      rw [List.drop_eq_getElem_cons hLength] at hMatch ⊢
      rw [substitute_none hMatch, staying, List.countP_cons, Nat.add_comm]
      refine Nat.add_le_add ih ?_
      split
      · rename_i hBoth
        rw [if_pos hBoth.1]
      · exact Nat.zero_le _
  | jump position found hMatch ih =>
      obtain ⟨hMem, hPrefix⟩ := mem_of_firstMatch hMatch
      rw [substitute_some hNonempty hMatch, List.drop_drop, List.countP_append]
      calc staying (Covered patterns text) kind position (text.drop position)
          = staying (Covered patterns text) kind (position + found.length)
              (text.drop (position + found.length)) := by
            rw [drop_eq_append hPrefix, staying_append (covered_of_begins hMem hPrefix)]
        _ ≤ _ := ih
        _ ≤ _ := Nat.le_add_left _ _

include hSorted hKind hOther

theorem tiled_of_countP (position : Nat) (hPosition : position ≤ text.length)
    (hCount : (substitute patterns replacement 0 (text.drop position)).countP kind =
      staying (Covered patterns text) kind position (text.drop position)) :
    Tiled patterns text position := by
  induction position using scan_induction hNonempty text with
  | done position hLength =>
      rw [show position = text.length by omega]
      exact .done
  | step position hLength hMatch ih =>
      have hRest := @staying_le_countP _ _ patterns replacement text hNonempty kind (position + 1)
      have hText := List.drop_eq_getElem_cons hLength
      rw [hText, substitute_none (hText ▸ hMatch), List.countP_cons, staying] at hCount
      by_cases hCovered : Covered patterns text position
      · -- The character belongs to a pattern, so one more than those that are to stay does.
        obtain ⟨pattern, hMem, start, hStart, hEnd, hPrefix⟩ := hCovered
        have hChar : text[position] ∈ pattern := by
          have hGet := @List.IsPrefix.getElem _ _ _ hPrefix (position - start) (by omega)
          rw [List.getElem_drop] at hGet
          simp only [Nat.add_sub_cancel' hStart] at hGet
          exact hGet ▸ List.getElem_mem _
        rw [if_pos (hKind pattern hMem _ hChar), if_neg (by
          rintro ⟨-, hNot⟩
          exact hNot ⟨pattern, hMem, start, hStart, hEnd, hPrefix⟩)] at hCount
        omega
      · refine .outside hLength hCovered (ih hLength ?_)
        cases hChar : kind text[position] <;> simp [hChar, hCovered] at hCount <;> omega
  | jump position found hMatch ih =>
      obtain ⟨hMem, hPrefix⟩ := mem_of_firstMatch hMatch
      have hLength : position + found.length ≤ text.length := by
        have hLe := hPrefix.length_le
        rw [List.length_drop] at hLe
        omega
      refine .longest found hMem hPrefix (fun other hOther hOtherPrefix =>
        length_le_of_firstMatch hSorted hMatch hOther hOtherPrefix) (ih hLength ?_)
      have hNone : replacement.countP kind = 0 :=
        List.countP_eq_zero.mpr fun char hChar => by simp [hOther char hChar]
      rw [substitute_some hNonempty hMatch, List.drop_drop, List.countP_append, hNone,
        Nat.zero_add, drop_eq_append hPrefix, staying_append (covered_of_begins hMem hPrefix)] at hCount
      exact hCount

end Tiles

/-- Reading from left to right removes all occurrences exactly when the text is tiled. -/
theorem redacts_iff_tiled (hNonempty : ∀ pattern ∈ patterns, pattern ≠ [])
    (hSorted : patterns.Pairwise fun first second => second.length ≤ first.length)
    (hApart : ∀ pattern ∈ patterns, ∀ char ∈ pattern, char ∉ replacement) :
    Redacts (Covered patterns text) replacement 0 text (substitute patterns replacement 0 text) ↔
      Tiled patterns text 0 := by
  constructor
  · intro hRedacts
    have hOther : ∀ char ∈ replacement, patterns.flatten.contains char = false := by
      intro char hChar
      rw [Bool.eq_false_iff, ne_eq, List.contains_iff_mem, List.mem_flatten]
      rintro ⟨pattern, hMem, hIn⟩
      exact hApart pattern hMem char hIn hChar
    have hKind : ∀ pattern ∈ patterns, ∀ char ∈ pattern, patterns.flatten.contains char = true :=
      fun pattern hMem char hChar =>
        List.contains_iff_mem.mpr (List.mem_flatten.mpr ⟨pattern, hMem, hChar⟩)
    exact tiled_of_countP hNonempty hSorted hKind hOther 0 (Nat.zero_le _)
      (hRedacts.countP_eq hOther)
  · exact redacts_of_tiled hNonempty hSorted

end LiteralScan

end Tracecat
