import Mathlib.Data.List.Basic
import Mathlib.Data.Nat.Digits.Lemmas
import Mathlib.Algebra.Order.Ring.Int

/-!
# Numerals

The numerals that `int`, `float` and `decimal.Decimal` of Python read, after white space is
stripped, and the ones that they are written with.
-/

namespace Tracecat
namespace Numerals

/-! ## Characters -/

/-- The first of each ten decimal digits of Unicode. -/
def decimalZeros : List Nat :=
  [0x30, 0x660, 0x6f0, 0x7c0, 0x966, 0x9e6, 0xa66, 0xae6, 0xb66, 0xbe6, 0xc66, 0xce6, 0xd66,
    0xde6, 0xe50, 0xed0, 0xf20, 0x1040, 0x1090, 0x17e0, 0x1810, 0x1946, 0x19d0, 0x1a80, 0x1a90,
    0x1b50, 0x1bb0, 0x1c40, 0x1c50, 0xa620, 0xa8d0, 0xa900, 0xa9d0, 0xa9f0, 0xaa50, 0xabf0,
    0xff10, 0x104a0, 0x10d30, 0x11066, 0x110f0, 0x11136, 0x111d0, 0x112f0, 0x11450, 0x114d0,
    0x11650, 0x116c0, 0x11730, 0x118e0, 0x11950, 0x11c50, 0x11d50, 0x11da0, 0x11f50, 0x16a60,
    0x16ac0, 0x16b50, 0x1d7ce, 0x1d7d8, 0x1d7e2, 0x1d7ec, 0x1d7f6, 0x1e140, 0x1e2f0, 0x1e4f0,
    0x1e950, 0x1fbf0]

/-- What a character counts for in a numeral; letters are in lower case. -/
inductive Mark
  | digit (value : Fin 10)
  | point
  | plus
  | minus
  | underscore
  | letter (char : Char)
  | other
  deriving DecidableEq, Repr

/-- The mark of a character, where `unicodeDigit` is the decimal digit of a character that is
not in ASCII. -/
def mark (unicodeDigit : Char → Option (Fin 10)) (char : Char) : Mark :=
  if char.isDigit then .digit (Fin.ofNat 10 (char.toNat - '0'.toNat))
  else if char.toNat < 128 then
    match char with
    | '.' => .point
    | '+' => .plus
    | '-' => .minus
    | '_' => .underscore
    | char => .letter char.toLower
  else
    match unicodeDigit char with
    | some value => .digit value
    | none => .other

def Mark.char : Mark → Char
  | .digit value => Nat.digitChar value
  | .point => '.'
  | .plus => '+'
  | .minus => '-'
  | .underscore => '_'
  | .letter char => char.toUpper
  | .other => ' '

/-! ## Literals -/

/-- A numeral with digits before and after the point, and a power of ten. -/
structure Literal where
  negative : Bool
  whole : List (Fin 10)
  fraction : List (Fin 10)
  exponent : ℤ
  deriving DecidableEq, Repr

def zero : Fin 10 := 0

/-- The number of a row of digits, the most significant one first. -/
def valueOf (digits : List (Fin 10)) : ℕ :=
  Nat.ofDigits 10 (digits.reverse.map Fin.val)

def digitsOf (number : ℕ) : List (Fin 10) :=
  if number = 0 then [0] else ((Nat.digits 10 number).map (Fin.ofNat 10)).reverse

def signed (negative : Bool) (number : ℕ) : ℤ := if negative then -number else number

def readSign : List Mark → Bool × List Mark
  | .plus :: rest => (false, rest)
  | .minus :: rest => (true, rest)
  | marks => (false, marks)

def readDigits : List Mark → List (Fin 10) × List Mark
  | .digit value :: rest => (value :: (readDigits rest).1, (readDigits rest).2)
  | marks => ([], marks)

def readFraction : List Mark → List (Fin 10) × List Mark
  | .point :: rest => readDigits rest
  | marks => ([], marks)

def readExponent : List Mark → Option ℤ
  | [] => some 0
  | .letter 'e' :: rest =>
      let (negative, rest) := readSign rest
      let (digits, rest) := readDigits rest
      if digits.isEmpty || !rest.isEmpty then none else some (signed negative (valueOf digits))
  | _ => none

/-- `[sign] digits [. [digits]] [e [sign] digits]`, where the digits may also come after the
point only. -/
def readLiteral (marks : List Mark) : Option Literal :=
  let (negative, rest) := readSign marks
  let (whole, rest) := readDigits rest
  let (fraction, rest) := readFraction rest
  if whole.isEmpty && fraction.isEmpty then none
  else (readExponent rest).map fun exponent => ⟨negative, whole, fraction, exponent⟩

def signMarks (negative : Bool) : List Mark := if negative then [.minus] else []

def fractionMarks (fraction : List (Fin 10)) : List Mark :=
  if fraction.isEmpty then [] else .point :: fraction.map .digit

def exponentMarks (exponent : ℤ) : List Mark :=
  if exponent = 0 then []
  else .letter 'e' :: (if exponent < 0 then .minus else .plus) ::
    (digitsOf exponent.natAbs).map .digit

def Literal.render (literal : Literal) : List Mark :=
  signMarks literal.negative ++ (literal.whole.map .digit ++
    (fractionMarks literal.fraction ++ exponentMarks literal.exponent))

theorem valueOf_digitsOf (number : ℕ) : valueOf (digitsOf number) = number := by
  unfold valueOf digitsOf
  split
  · next hZero =>
      rw [hZero]
      rfl
  · rw [List.reverse_reverse, List.map_map]
    have hDigits : (Nat.digits 10 number).map (Fin.val ∘ Fin.ofNat 10) = Nat.digits 10 number := by
      rw [List.map_congr_left (g := id), List.map_id]
      intro digit hDigit
      exact Nat.mod_eq_of_lt (Nat.digits_lt_base (by omega) hDigit)
    rw [hDigits, Nat.ofDigits_digits]

theorem digitsOf_ne_nil (number : ℕ) : digitsOf number ≠ [] := by
  unfold digitsOf
  split
  · exact List.cons_ne_nil _ _
  · next hZero =>
      rw [Ne, List.reverse_eq_nil_iff, List.map_eq_nil_iff, Nat.digits_eq_nil_iff_eq_zero]
      exact hZero

theorem valueOf_zeros (count : ℕ) (digits : List (Fin 10)) :
    valueOf (List.replicate count zero ++ digits) = valueOf digits := by
  unfold valueOf
  rw [List.reverse_append, List.map_append, Nat.ofDigits_append, List.reverse_replicate,
    List.map_replicate]
  have hZero : Nat.ofDigits 10 (List.replicate count (Fin.val zero)) = 0 := by
    induction count with
    | zero => rfl
    | succ count ih =>
        rw [List.replicate_succ, Nat.ofDigits_cons, ih]
        rfl
  rw [hZero, Nat.mul_zero, Nat.add_zero]

/-! ### What is written is read back -/

/-- Digits stop here. -/
def Stops : List Mark → Prop
  | .digit _ :: _ => False
  | _ => True

theorem readDigits_append {rest : List Mark} (hRest : Stops rest) (digits : List (Fin 10)) :
    readDigits (digits.map .digit ++ rest) = (digits, rest) := by
  induction digits with
  | nil =>
      rw [List.map_nil, List.nil_append]
      unfold readDigits
      split
      · exact hRest.elim
      · rfl
  | cons digit digits ih =>
      rw [List.map_cons, List.cons_append, readDigits, ih]

theorem readSign_digits {digits : List (Fin 10)} (hDigits : digits ≠ []) (negative : Bool)
    (rest : List Mark) :
    readSign (signMarks negative ++ (digits.map .digit ++ rest)) =
      (negative, digits.map .digit ++ rest) := by
  obtain ⟨digit, digits, rfl⟩ := List.exists_cons_of_ne_nil hDigits
  cases negative <;> rfl

theorem stops_exponentMarks (exponent : ℤ) : Stops (exponentMarks exponent) := by
  unfold exponentMarks
  split <;> trivial

theorem readExponent_exponentMarks (exponent : ℤ) :
    readExponent (exponentMarks exponent) = some exponent := by
  unfold exponentMarks
  split
  · next hZero =>
      rw [hZero]
      rfl
  · have hDigits := @readDigits_append [] trivial (digitsOf exponent.natAbs)
    have hSome : (digitsOf exponent.natAbs).isEmpty = false :=
      List.isEmpty_eq_false_iff.mpr (digitsOf_ne_nil _)
    rw [List.append_nil] at hDigits
    -- the sign is always written
    have hValue (negative : Bool) (hSign : signed negative exponent.natAbs = exponent) :
        (if (digitsOf exponent.natAbs).isEmpty || !(([] : List Mark).isEmpty) then none
          else some (signed negative (valueOf (digitsOf exponent.natAbs)))) = some exponent := by
      rw [hSome, valueOf_digitsOf, hSign]
      rfl
    split
    · next hNegative =>
        show (let (digits, rest) := readDigits ((digitsOf exponent.natAbs).map .digit)
          if digits.isEmpty || !rest.isEmpty then none
          else some (signed true (valueOf digits))) = some exponent
        rw [hDigits]
        refine hValue true ?_
        show -(exponent.natAbs : ℤ) = exponent
        omega
    · next hNegative =>
        show (let (digits, rest) := readDigits ((digitsOf exponent.natAbs).map .digit)
          if digits.isEmpty || !rest.isEmpty then none
          else some (signed false (valueOf digits))) = some exponent
        rw [hDigits]
        refine hValue false ?_
        show (exponent.natAbs : ℤ) = exponent
        omega

theorem readFraction_fractionMarks (fraction : List (Fin 10)) (exponent : ℤ) :
    readFraction (fractionMarks fraction ++ exponentMarks exponent) =
      (fraction, exponentMarks exponent) := by
  cases fraction with
  | nil =>
      show readFraction (exponentMarks exponent) = _
      unfold exponentMarks
      split <;> rfl
  | cons digit fraction => exact readDigits_append (stops_exponentMarks exponent) _

theorem stops_fractionMarks (fraction : List (Fin 10)) (exponent : ℤ) :
    Stops (fractionMarks fraction ++ exponentMarks exponent) := by
  cases fraction with
  | nil => exact stops_exponentMarks exponent
  | cons digit fraction => trivial

theorem readLiteral_render {literal : Literal} (hWhole : literal.whole ≠ []) :
    readLiteral literal.render = some literal := by
  unfold readLiteral Literal.render
  rw [readSign_digits hWhole]
  dsimp only
  rw [readDigits_append (stops_fractionMarks _ _)]
  dsimp only
  rw [readFraction_fractionMarks]
  dsimp only
  rw [List.isEmpty_eq_false_iff.mpr hWhole, readExponent_exponentMarks]
  rfl

end Numerals
end Tracecat
