import Mathlib.Data.List.DropRight
import Tracecat.Expressions.Template

/-!
# Where templates are found

The pattern finds a template whose text has no `}}` before its end, as a whole and
with its expression trimmed, and it finds nothing in text that has no `${{`.
-/

namespace Tracecat
namespace Templating

open Folders (isSpace strip rstrip)

/-! ## Trimming -/

theorem rstrip_eq (text : TokenText) : rstrip isSpace text = text.rdropWhile isSpace := rfl

theorem rstrip_blank {text : TokenText} (hBlank : ∀ char ∈ text, isSpace char = true) :
    rstrip isSpace text = [] :=
  List.rdropWhile_eq_nil_iff.mpr hBlank

theorem rstrip_cons {char : Char} {text : TokenText}
    (hVisible : ∃ other ∈ char :: text, isSpace other = false) :
    rstrip isSpace (char :: text) = char :: rstrip isSpace text := by
  induction text using List.reverseRecOn with
  | nil =>
      obtain ⟨other, hOther, hSpace⟩ := hVisible
      rw [List.mem_singleton] at hOther
      subst hOther
      rw [rstrip_eq, List.rdropWhile_singleton, if_neg (by rw [hSpace]; exact Bool.false_ne_true)]
      rfl
  | append_singleton text last ih =>
      rw [rstrip_eq, rstrip_eq, ← List.cons_append, List.rdropWhile_concat, List.rdropWhile_concat]
      by_cases hLast : isSpace last = true
      · rw [if_pos hLast, if_pos hLast]
        apply ih
        obtain ⟨other, hOther, hSpace⟩ := hVisible
        rw [← List.cons_append] at hOther
        rcases List.mem_append.mp hOther with hMem | hMem
        · exact ⟨other, hMem, hSpace⟩
        · rw [List.mem_singleton.mp hMem, hLast] at hSpace
          cases hSpace
      · rw [if_neg hLast, if_neg hLast, List.cons_append]

theorem strip_cons_space {char : Char} {text : TokenText} (hSpace : isSpace char = true) :
    strip (char :: text) = strip text := by
  unfold strip
  rw [List.dropWhile_cons, if_pos hSpace]

theorem strip_cons_visible {char : Char} {text : TokenText} (hVisible : isSpace char = false) :
    strip (char :: text) = char :: rstrip isSpace text := by
  unfold strip
  rw [List.dropWhile_cons, if_neg (by rw [hVisible]; exact Bool.false_ne_true)]
  exact rstrip_cons ⟨char, List.mem_cons_self, hVisible⟩

/-! ## One template -/

/-- The text between `${{` and `}}`: it has an expression, and no `}}` before its end. -/
structure Inner (text : TokenText) : Prop where
  closed : ¬ closing <:+: text ++ ['}']
  visible : ∃ char ∈ text, isSpace char = false

def template (inner : TokenText) : TokenText :=
  opening ++ inner ++ closing

theorem afterClosing_blank {text : TokenText} (hBlank : ∀ char ∈ text, isSpace char = true)
    (rest : TokenText) : afterClosing (text ++ closing ++ rest) = some rest := by
  unfold afterClosing
  rw [List.append_assoc, List.dropWhile_append_of_pos hBlank]
  rfl

/-- No `}}` is found where something stands before it. -/
theorem afterClosing_visible {text : TokenText} (hClosed : ¬ closing <:+: text ++ ['}'])
    (hVisible : ∃ char ∈ text, isSpace char = false) (rest : TokenText) :
    afterClosing (text ++ closing ++ rest) = none := by
  induction text with
  | nil =>
      obtain ⟨char, hChar, -⟩ := hVisible
      cases hChar
  | cons char text ih =>
      by_cases hSpace : isSpace char = true
      · have hRest : afterClosing (text ++ closing ++ rest) = none := by
          apply ih
          · intro hInfix
            exact hClosed (hInfix.trans (List.infix_cons (List.infix_refl _)))
          · obtain ⟨other, hOther, hFalse⟩ := hVisible
            rcases List.mem_cons.mp hOther with rfl | hMem
            · rw [hSpace] at hFalse
              cases hFalse
            · exact ⟨other, hMem, hFalse⟩
        unfold afterClosing at hRest ⊢
        rw [List.cons_append, List.cons_append, List.dropWhile_cons, if_pos hSpace]
        exact hRest
      · unfold afterClosing
        rw [List.cons_append, List.cons_append, List.dropWhile_cons, if_neg hSpace]
        -- two braces here would be a `}}` in the text, or one with the brace after it
        split
        · rename_i after hTwo
          obtain ⟨rfl, hNext⟩ := List.cons.inj hTwo
          exfalso
          apply hClosed
          cases text with
          | nil => exact ⟨[], [], rfl⟩
          | cons next text =>
              obtain ⟨rfl, -⟩ := List.cons.inj hNext
              exact ⟨[], text ++ ['}'], rfl⟩
        · rfl

theorem lazyExpr_inner {char : Char} {text : TokenText}
    (hClosed : ¬ closing <:+: char :: text ++ ['}']) (rest : TokenText) :
    lazyExpr (char :: text ++ closing ++ rest) = some (char :: rstrip isSpace text, rest) := by
  induction text generalizing char with
  | nil =>
      have hAfter : afterClosing (closing ++ rest) = some rest :=
        @afterClosing_blank [] (fun _ hNone => absurd hNone List.not_mem_nil) rest
      change lazyExpr (char :: (closing ++ rest)) = _
      rw [lazyExpr, hAfter]
      rfl
  | cons next text ih =>
      have hTail : ¬ closing <:+: next :: text ++ ['}'] := fun hInfix =>
        hClosed (hInfix.trans (List.infix_cons (List.infix_refl _)))
      change lazyExpr (char :: (next :: text ++ closing ++ rest)) = _
      rw [lazyExpr]
      by_cases hBlank : ∀ other ∈ next :: text, isSpace other = true
      · rw [afterClosing_blank hBlank, rstrip_blank hBlank]
      · push Not at hBlank
        have hVisible : ∃ other ∈ next :: text, isSpace other = false := by
          obtain ⟨other, hOther, hSpace⟩ := hBlank
          exact ⟨other, hOther, Bool.not_eq_true _ ▸ hSpace⟩
        rw [afterClosing_visible hTail hVisible, ih hTail, rstrip_cons hVisible]
        rfl

theorem spacedExpr_inner {inner : TokenText} (hInner : Inner inner) (rest : TokenText) :
    spacedExpr (inner ++ closing ++ rest) = some (strip inner, rest) := by
  obtain ⟨hClosed, hVisible⟩ := hInner
  induction inner with
  | nil =>
      obtain ⟨char, hChar, -⟩ := hVisible
      cases hChar
  | cons char inner ih =>
      change spacedExpr (char :: (inner ++ closing ++ rest)) = _
      rw [spacedExpr]
      by_cases hSpace : isSpace char = true
      · rw [if_pos hSpace, strip_cons_space hSpace, ih, Option.some_or]
        · intro hInfix
          exact hClosed (hInfix.trans (List.infix_cons (List.infix_refl _)))
        · obtain ⟨other, hOther, hFalse⟩ := hVisible
          rcases List.mem_cons.mp hOther with rfl | hMem
          · rw [hSpace] at hFalse
            cases hFalse
          · exact ⟨other, hMem, hFalse⟩
      · rw [if_neg hSpace, strip_cons_visible (Bool.not_eq_true _ ▸ hSpace)]
        exact lazyExpr_inner hClosed rest

def found (inner : TokenText) : TemplateMatch where
  template := template inner
  expr := strip inner

theorem matchTemplate_template {inner : TokenText} (hInner : Inner inner) (rest : TokenText) :
    matchTemplate (template inner ++ rest) = some (found inner) := by
  have hText : template inner ++ rest = '$' :: '{' :: '{' :: (inner ++ closing ++ rest) := by
    unfold template opening
    simp only [List.cons_append, List.nil_append, List.append_assoc]
  have hTake : (template inner ++ rest).take ((template inner ++ rest).length - rest.length) =
      template inner := by
    rw [List.length_append, Nat.add_sub_cancel, List.take_left]
  rw [hText] at hTake ⊢
  change (spacedExpr (inner ++ closing ++ rest)).map _ = _
  rw [spacedExpr_inner hInner, Option.map_some]
  dsimp only
  rw [hTake]
  rfl

theorem matchTemplate_eq_none {text : TokenText} (hNone : ¬ opening <+: text) :
    matchTemplate text = none := by
  unfold matchTemplate
  split
  · rename_i body
    exact absurd ⟨body, rfl⟩ hNone
  · rfl

/-! ## Segments -/

theorem segments_skip (skip : Nat) (text : TokenText) :
    segments skip text = segments 0 (text.drop skip) := by
  induction text generalizing skip with
  | nil => cases skip <;> rfl
  | cons char text ih =>
      cases skip with
      | zero => rfl
      | succ skip => exact ih skip

theorem segments_template {inner : TokenText} (hInner : Inner inner) (rest : TokenText) :
    segments 0 (template inner ++ rest) = .template (found inner) :: segments 0 rest := by
  have hMatch := matchTemplate_template hInner rest
  have hTail : template inner = '$' :: (template inner).tail := rfl
  have hDrop : ((template inner).tail ++ rest).drop ((template inner).length - 1) = rest := by
    rw [← List.length_tail, List.drop_left]
  rw [hTail] at hMatch ⊢
  rw [List.cons_append] at hMatch ⊢
  rw [segments, hMatch]
  change .template (found inner) ::
    segments ((template inner).length - 1) ((template inner).tail ++ rest) = _
  rw [segments_skip, hDrop]

/-- No template begins in a text without `${{`, also where a template comes after it. -/
theorem opening_absent {literal rest : TokenText} (hLiteral : ¬ opening <:+: literal)
    (hRest : rest = [] ∨ ∃ more, rest = '$' :: more) (hSome : literal ≠ []) :
    ¬ opening <+: literal ++ rest := by
  rintro ⟨body, hBody⟩
  -- the three characters do not fit into the literal, and a dollar is no brace
  match literal, hSome, hLiteral with
  | [first], _, _ =>
      obtain ⟨-, hBraces⟩ := List.cons.inj hBody
      rcases hRest with rfl | ⟨more, rfl⟩
      · cases hBraces
      · cases hBraces
  | [first, second], _, _ =>
      obtain ⟨-, hBraces⟩ := List.cons.inj hBody
      obtain ⟨-, hLast⟩ := List.cons.inj hBraces
      rcases hRest with rfl | ⟨more, rfl⟩
      · cases hLast
      · cases hLast
  | first :: second :: third :: literal, _, hLiteral =>
      obtain ⟨rfl, hBraces⟩ := List.cons.inj hBody
      obtain ⟨rfl, hLast⟩ := List.cons.inj hBraces
      obtain ⟨rfl, -⟩ := List.cons.inj hLast
      exact hLiteral ⟨[], literal, rfl⟩

/-- A text without `${{` is kept, up to a template or to the end. -/
theorem segments_literal {literal rest : TokenText} (hLiteral : ¬ opening <:+: literal)
    (hRest : rest = [] ∨ ∃ more, rest = '$' :: more) :
    segments 0 (literal ++ rest) = literal.map .char ++ segments 0 rest := by
  induction literal with
  | nil => rfl
  | cons char literal ih =>
      have hNone : matchTemplate (char :: (literal ++ rest)) = none :=
        matchTemplate_eq_none (opening_absent hLiteral hRest (List.cons_ne_nil char literal))
      rw [List.cons_append, segments, hNone, List.map_cons, List.cons_append]
      dsimp only
      rw [ih fun hInfix => hLiteral (hInfix.trans (List.infix_cons (List.infix_refl _)))]

end Templating
end Tracecat
