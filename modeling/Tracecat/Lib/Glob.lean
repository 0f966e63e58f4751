import Mathlib.Computability.Language

/-!
# Glob patterns

A pattern is a row of tokens over any alphabet: a token stands for any text or for
one letter that it accepts.  The language of a pattern is the product of the
languages of its tokens, and `matchesText` decides it.
-/

namespace Tracecat
namespace Glob

variable {α : Type*}

inductive Token (α : Type*)
  | anyText
  | one (accepts : α → Bool)

def Token.language : Token α → Language α
  | anyText => (Set.univ : Set (List α))
  | one accepts => {text : List α | ∃ letter, accepts letter = true ∧ text = [letter]}

def language (tokens : List (Token α)) : Language α :=
  (tokens.map Token.language).prod

/-- The search of a matcher: a token for any text is tried on every suffix. -/
def matchesText : List (Token α) → List α → Bool
  | [], text => text.isEmpty
  | .anyText :: tokens, text => text.tails.any fun rest => matchesText tokens rest
  | .one _ :: _, [] => false
  | .one accepts :: tokens, letter :: text => accepts letter && matchesText tokens text

/-! ## Membership -/

@[simp] theorem mem_language_nil {text : List α} : text ∈ language ([] : List (Token α)) ↔
    text = [] := Iff.rfl

theorem mem_language_anyText {tokens : List (Token α)} {text : List α} :
    text ∈ language (.anyText :: tokens) ↔ ∃ rest, rest <:+ text ∧ rest ∈ language tokens := by
  show text ∈ Token.language .anyText * language tokens ↔ _
  rw [Language.mem_mul]
  constructor
  · rintro ⟨front, -, rest, hRest, rfl⟩
    exact ⟨rest, List.suffix_append front rest, hRest⟩
  · rintro ⟨rest, ⟨front, rfl⟩, hRest⟩
    exact ⟨front, Set.mem_univ front, rest, hRest, rfl⟩

theorem mem_language_one {accepts : α → Bool} {tokens : List (Token α)} {text : List α} :
    text ∈ language (.one accepts :: tokens) ↔
      ∃ letter rest, text = letter :: rest ∧ accepts letter = true ∧ rest ∈ language tokens := by
  show text ∈ Token.language (.one accepts) * language tokens ↔ _
  rw [Language.mem_mul]
  constructor
  · rintro ⟨front, ⟨letter, hLetter, rfl⟩, rest, hRest, rfl⟩
    exact ⟨letter, rest, rfl, hLetter, hRest⟩
  · rintro ⟨letter, rest, rfl, hLetter, hRest⟩
    exact ⟨[letter], ⟨letter, hLetter, rfl⟩, rest, hRest, rfl⟩

theorem matchesText_iff {tokens : List (Token α)} {text : List α} :
    matchesText tokens text = true ↔ text ∈ language tokens := by
  induction tokens generalizing text with
  | nil => rw [matchesText, List.isEmpty_iff, mem_language_nil]
  | cons token tokens ih =>
      cases token with
      | anyText =>
          rw [matchesText, List.any_eq_true, mem_language_anyText]
          constructor
          · rintro ⟨rest, hRest, hMatch⟩
            exact ⟨rest, (List.mem_tails _ _).mp hRest, ih.mp hMatch⟩
          · rintro ⟨rest, hRest, hMem⟩
            exact ⟨rest, (List.mem_tails _ _).mpr hRest, ih.mpr hMem⟩
      | one accepts =>
          rw [mem_language_one]
          cases text with
          | nil => simp [matchesText]
          | cons letter text =>
              rw [matchesText, Bool.and_eq_true, ih]
              constructor
              · rintro ⟨hLetter, hMem⟩
                exact ⟨letter, text, rfl, hLetter, hMem⟩
              · rintro ⟨_, _, hText, hLetter, hMem⟩
                obtain ⟨rfl, rfl⟩ := List.cons.inj hText
                exact ⟨hLetter, hMem⟩

/-! ## Literals -/

variable [DecidableEq α]

def literal (letter : α) : Token α := .one fun other => decide (other = letter)

theorem mem_language_literals {word text : List α} :
    text ∈ language (word.map literal) ↔ text = word := by
  induction word generalizing text with
  | nil => exact mem_language_nil
  | cons letter word ih =>
      rw [List.map_cons, literal, mem_language_one]
      constructor
      · rintro ⟨other, rest, rfl, hOther, hRest⟩
        rw [of_decide_eq_true hOther, ih.mp hRest]
      · rintro rfl
        exact ⟨letter, word, rfl, decide_eq_true rfl, ih.mpr rfl⟩

end Glob
end Tracecat
