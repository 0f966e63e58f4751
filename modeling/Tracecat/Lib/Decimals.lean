import Mathlib.Algebra.Order.Group.Int
import Mathlib.Tactic.FinCases
import Tracecat.Lib.Numerals

/-!
# Decimals

`decimal.Decimal` of Python: the texts that its constructor takes, the numbers that it
holds, and `str`.  The texts of `int` and `float` are compared with those of decimals.
-/

namespace Tracecat
namespace Numerals

/-- A finite decimal, `coefficient * 10 ^ exponent` with a sign. -/
structure Dec where
  negative : Bool
  coefficient : ℕ
  exponent : ℤ
  deriving DecidableEq, Repr

inductive Decimal
  | finite (number : Dec)
  | infinite (negative : Bool)
  | nan (negative signaling : Bool) (payload : List (Fin 10))
  deriving DecidableEq, Repr

namespace Dec

/-- `MAX_EMAX`. -/
def maxExponent : ℤ := 999999999999999999

/-- The least exponent, `Etiny` at `MAX_PREC` and `MIN_EMIN`. -/
def minExponent : ℤ := -1999999999999999997

def length (number : Dec) : ℕ := (digitsOf number.coefficient).length

def exact (number : Dec) : Bool :=
  minExponent ≤ number.exponent && number.exponent + number.length - 1 ≤ maxExponent

def ofLiteral (literal : Literal) : Dec where
  negative := literal.negative
  coefficient := valueOf (literal.whole ++ literal.fraction)
  exponent := literal.exponent - literal.fraction.length

def toInt? (number : Dec) : Option ℤ :=
  if 0 ≤ number.exponent then
    some (signed number.negative (number.coefficient * 10 ^ number.exponent.toNat))
  else if number.coefficient % 10 ^ number.exponent.natAbs = 0 then
    some (signed number.negative (number.coefficient / 10 ^ number.exponent.natAbs))
  else none

def ofInt (number : ℤ) : Dec := ⟨number < 0, number.natAbs, 0⟩

/-- The literal of `str`, by the place of the point in the digits. -/
def literal (number : Dec) : Literal :=
  let digits := digitsOf number.coefficient
  let left := number.exponent + digits.length
  if number.exponent ≤ 0 ∧ -6 < left then
    if left ≤ 0 then
      ⟨number.negative, [zero], List.replicate (-left).toNat zero ++ digits, 0⟩
    else ⟨number.negative, digits.take left.toNat, digits.drop left.toNat, 0⟩
  else ⟨number.negative, digits.take 1, digits.drop 1, left - 1⟩

end Dec

def letters (text : String) : List Mark := text.toList.map .letter

/-- `Infinity` and `NaN`. -/
def readNamed (marks : List Mark) : Option Decimal :=
  let (negative, rest) := readSign marks
  if rest = letters "inf" ∨ rest = letters "infinity" then some (.infinite negative)
  else
    match rest with
    | .letter 'n' :: .letter 'a' :: .letter 'n' :: rest =>
        if (readDigits rest).2 = [] then some (.nan negative false (readDigits rest).1) else none
    | .letter 's' :: .letter 'n' :: .letter 'a' :: .letter 'n' :: rest =>
        if (readDigits rest).2 = [] then some (.nan negative true (readDigits rest).1) else none
    | _ => none

def plain (marks : List Mark) : List Mark := marks.filter fun mark => mark ≠ .underscore

/-- `Decimal(text)`. -/
def readDecimal (marks : List Mark) : Option Decimal :=
  match readLiteral (plain marks) with
  | some literal =>
      if (Dec.ofLiteral literal).exact then some (.finite (Dec.ofLiteral literal)) else none
  | none => readNamed (plain marks)

/-- Each underscore stands between two digits. -/
def separated : Bool → List Mark → Bool
  | _, [] => true
  | _, .digit _ :: rest => separated true rest
  | after, .underscore :: rest =>
      after && (match rest with | .digit _ :: _ => true | _ => false) && separated false rest
  | _, _ :: rest => separated false rest

/-- The most digits that `int` reads. -/
def maxIntDigits : ℕ := 4300

/-- `int(text)`. -/
def readInt (marks : List Mark) : Option ℤ :=
  if !separated false marks then none
  else
    let (negative, rest) := readSign (plain marks)
    let (digits, rest) := readDigits rest
    if digits.isEmpty || !rest.isEmpty || digits.length > maxIntDigits then none
    else some (signed negative (valueOf digits))

/-- `str` of a finite decimal. -/
def Dec.marks (number : Dec) : List Mark := number.literal.render

/-- `str`. -/
def Decimal.text : Decimal → List Char
  | .finite number => number.marks.map Mark.char
  | .infinite negative => (signMarks negative).map Mark.char ++ "Infinity".toList
  | .nan negative signaling payload =>
      (signMarks negative).map Mark.char ++ ((if signaling then ['s'] else []) ++
        ("NaN".toList ++ payload.map fun digit => (Mark.digit digit).char))

/-! ## `str` and back -/

theorem Dec.length_pos (number : Dec) : 0 < (digitsOf number.coefficient).length :=
  List.length_pos_iff.mpr (digitsOf_ne_nil _)

theorem Dec.literal_whole_ne_nil (number : Dec) : number.literal.whole ≠ [] := by
  have hLength := number.length_pos
  unfold Dec.literal
  dsimp only
  split
  · split
    · exact List.cons_ne_nil _ _
    · rw [Ne, List.take_eq_nil_iff]
      rintro (hTake | hDigits)
      · omega
      · exact digitsOf_ne_nil _ hDigits
  · rw [Ne, List.take_eq_nil_iff]
    rintro (hTake | hDigits)
    · omega
    · exact digitsOf_ne_nil _ hDigits

theorem Dec.ofLiteral_literal (number : Dec) : Dec.ofLiteral number.literal = number := by
  obtain ⟨negative, coefficient, exponent⟩ := number
  have hLength := Dec.length_pos ⟨negative, coefficient, exponent⟩
  unfold Dec.literal Dec.ofLiteral
  dsimp only at hLength ⊢
  split
  · split
    · -- zeros between the point and the digits
      have hZeros : [zero] ++ (List.replicate
            (-(exponent + (digitsOf coefficient).length)).toNat zero ++ digitsOf coefficient) =
          List.replicate ((-(exponent + (digitsOf coefficient).length)).toNat + 1) zero ++
            digitsOf coefficient := rfl
      rw [hZeros, valueOf_zeros, valueOf_digitsOf, Dec.mk.injEq]
      refine ⟨rfl, rfl, ?_⟩
      rw [List.length_append, List.length_replicate]
      dsimp only
      omega
    · rw [List.take_append_drop, valueOf_digitsOf, Dec.mk.injEq]
      refine ⟨rfl, rfl, ?_⟩
      rw [List.length_drop]
      dsimp only
      omega
  · rw [List.take_append_drop, valueOf_digitsOf, Dec.mk.injEq]
    refine ⟨rfl, rfl, ?_⟩
    rw [List.length_drop]
    dsimp only
    omega

theorem underscore_notMem_render (literal : Literal) : Mark.underscore ∉ literal.render := by
  unfold Literal.render signMarks fractionMarks exponentMarks
  intro hMem
  rcases List.mem_append.mp hMem with hSign | hRest
  · split at hSign <;> simp at hSign
  · rcases List.mem_append.mp hRest with hWhole | hRest
    · simp at hWhole
    · rcases List.mem_append.mp hRest with hFraction | hExponent
      · split at hFraction <;> simp at hFraction
      · split at hExponent
        · cases hExponent
        · split at hExponent <;> simp at hExponent

theorem plain_eq {marks : List Mark} (hMarks : Mark.underscore ∉ marks) : plain marks = marks := by
  unfold plain
  rw [List.filter_eq_self]
  intro mark hMark
  exact decide_eq_true fun hSame => hMarks (hSame ▸ hMark)

theorem readDecimal_render {literal : Literal} (hWhole : literal.whole ≠ [])
    (hExact : (Dec.ofLiteral literal).exact = true) :
    readDecimal literal.render = some (.finite (Dec.ofLiteral literal)) := by
  unfold readDecimal
  rw [plain_eq (underscore_notMem_render literal), readLiteral_render hWhole]
  exact if_pos hExact

theorem readDecimal_marks {number : Dec} (hExact : number.exact = true) :
    readDecimal number.marks = some (.finite number) := by
  have hRead := @readDecimal_render number.literal number.literal_whole_ne_nil
    (by rw [Dec.ofLiteral_literal]; exact hExact)
  rw [Dec.ofLiteral_literal] at hRead
  exact hRead

theorem readNamed_ne_finite (marks : List Mark) (number : Dec) :
    readNamed marks ≠ some (.finite number) := by
  intro hRead
  unfold readNamed at hRead
  dsimp only at hRead
  split at hRead
  · cases hRead
  · split at hRead
    · split at hRead <;> cases hRead
    · split at hRead <;> cases hRead
    · cases hRead

/-- A decimal that is finite is a literal that is held without rounding. -/
theorem readDecimal_finite_iff {marks : List Mark} {number : Dec} :
    readDecimal marks = some (.finite number) ↔
      ∃ literal, readLiteral (plain marks) = some literal ∧
        (Dec.ofLiteral literal).exact = true ∧ Dec.ofLiteral literal = number := by
  unfold readDecimal
  cases hLiteral : readLiteral (plain marks) with
  | none =>
      refine iff_of_false (readNamed_ne_finite _ _) ?_
      rintro ⟨literal, hSome, -⟩
      cases hSome
  | some literal =>
      dsimp only
      constructor
      · intro hRead
        split at hRead
        · next hExact =>
            cases hRead
            exact ⟨literal, rfl, hExact, rfl⟩
        · cases hRead
      · rintro ⟨other, hOther, hExact, rfl⟩
        cases hOther
        exact if_pos hExact

theorem exact_of_readDecimal {marks : List Mark} {number : Dec}
    (hRead : readDecimal marks = some (.finite number)) : number.exact = true := by
  obtain ⟨literal, -, hExact, rfl⟩ := readDecimal_finite_iff.mp hRead
  exact hExact

inductive Written : Mark → Prop
  | digit (value : Fin 10) : Written (.digit value)
  | point : Written .point
  | plus : Written .plus
  | minus : Written .minus
  | exponent : Written (.letter 'e')

theorem written_render {literal : Literal} {mark : Mark} (hMark : mark ∈ literal.render) :
    Written mark := by
  unfold Literal.render signMarks fractionMarks exponentMarks at hMark
  have hDigits {digits : List (Fin 10)} (hMem : mark ∈ digits.map .digit) : Written mark := by
    obtain ⟨digit, -, rfl⟩ := List.mem_map.mp hMem
    exact .digit digit
  rcases List.mem_append.mp hMark with hSign | hRest
  · split at hSign
    · rw [List.mem_singleton.mp hSign]
      exact .minus
    · cases hSign
  · rcases List.mem_append.mp hRest with hWhole | hRest
    · exact hDigits hWhole
    · rcases List.mem_append.mp hRest with hFraction | hExponent
      · split at hFraction
        · cases hFraction
        · rcases List.mem_cons.mp hFraction with rfl | hFraction
          · exact .point
          · exact hDigits hFraction
      · split at hExponent
        · cases hExponent
        · rcases List.mem_cons.mp hExponent with rfl | hExponent
          · exact .exponent
          · rcases List.mem_cons.mp hExponent with rfl | hExponent
            · split
              · exact .minus
              · exact .plus
            · exact hDigits hExponent

theorem mark_char {unicodeDigit : Char → Option (Fin 10)} {it : Mark} (hWritten : Written it) :
    mark unicodeDigit it.char = it := by
  cases hWritten with
  | digit value => fin_cases value <;> rfl
  | point => rfl
  | plus => rfl
  | minus => rfl
  | exponent => rfl

theorem marks_render (unicodeDigit : Char → Option (Fin 10)) (literal : Literal) :
    (literal.render.map Mark.char).map (mark unicodeDigit) = literal.render := by
  rw [List.map_map]
  refine (List.map_congr_left fun it hIt => ?_).trans (List.map_id _)
  exact mark_char (written_render hIt)

theorem toInt?_ofInt (number : ℤ) : (Dec.ofInt number).toInt? = some number := by
  unfold Dec.toInt? Dec.ofInt signed
  dsimp only
  rw [if_pos (le_refl _)]
  show some (if decide (number < 0) = true then -((number.natAbs * 10 ^ 0 : ℕ) : ℤ)
    else ((number.natAbs * 10 ^ 0 : ℕ) : ℤ)) = some number
  rw [pow_zero, Nat.mul_one]
  split
  · next hNegative =>
      have hLess := of_decide_eq_true hNegative
      congr 1
      omega
  · next hNegative =>
      have hLess : ¬ number < 0 := fun hLess => hNegative (decide_eq_true hLess)
      congr 1
      omega

theorem exact_ofInt {number : ℤ} (hDigits : (digitsOf number.natAbs).length ≤ maxIntDigits) :
    (Dec.ofInt number).exact = true := by
  unfold Dec.exact Dec.ofInt Dec.length Dec.minExponent Dec.maxExponent
  unfold maxIntDigits at hDigits
  rw [Bool.and_eq_true, decide_eq_true_eq, decide_eq_true_eq]
  dsimp only
  omega

/-! ## Texts of `int` and `float` -/

theorem toList_toString (number : ℕ) :
    (toString number).toList = (digitsOf number).map fun digit : Fin 10 => Nat.digitChar digit.val := by
  have hDigits : (toString number).toList = Nat.toDigits 10 number := by
    simp [toString]
  rw [hDigits]
  clear hDigits
  induction number using Nat.strong_induction_on with
  | _ number ih =>
      by_cases hSmall : number < 10
      · rw [Nat.toDigits_of_lt_base hSmall]
        interval_cases number <;> rfl
      · have hRest : digitsOf number = digitsOf (number / 10) ++ [Fin.ofNat 10 (number % 10)] := by
          unfold digitsOf
          rw [if_neg (by omega), if_neg (by omega), Nat.digits_def' (by omega) (by omega),
            List.map_cons, List.reverse_cons]
        rw [Nat.toDigits_of_base_le (by omega) (by omega), ih _ (by omega), hRest, List.map_append,
          List.map_singleton]
        show _ = _ ++ [Nat.digitChar (number % 10 % 10)]
        rw [Nat.mod_mod]

def intMarks (number : ℤ) : List Mark :=
  signMarks (number < 0) ++ (digitsOf number.natAbs).map .digit

theorem toList_toString_int (number : ℤ) :
    (toString number).toList = (intMarks number).map Mark.char := by
  have hDigits (size : ℕ) : ((digitsOf size).map Mark.digit).map Mark.char =
      (digitsOf size).map fun digit : Fin 10 => Nat.digitChar digit.val := by
    rw [List.map_map]
    rfl
  unfold intMarks
  rw [List.map_append, hDigits, ← toList_toString]
  cases number with
  | ofNat size =>
      rw [decide_eq_false (by simp)]
      rfl
  | negSucc size =>
      rw [decide_eq_true (Int.negSucc_lt_zero size)]
      show ("-" ++ toString (size + 1)).toList = _
      rw [String.toList_append]
      rfl

theorem written_intMarks {number : ℤ} {it : Mark} (hIt : it ∈ intMarks number) : Written it := by
  unfold intMarks signMarks at hIt
  rcases List.mem_append.mp hIt with hSign | hDigit
  · split at hSign
    · rw [List.mem_singleton.mp hSign]
      exact .minus
    · cases hSign
  · obtain ⟨digit, -, rfl⟩ := List.mem_map.mp hDigit
    exact .digit digit

theorem readInt_toString (unicodeDigit : Char → Option (Fin 10)) {number : ℤ}
    (hDigits : (digitsOf number.natAbs).length ≤ maxIntDigits) :
    readInt ((toString number).toList.map (mark unicodeDigit)) = some number := by
  have hMarks : (toString number).toList.map (mark unicodeDigit) = intMarks number := by
    rw [toList_toString_int, List.map_map]
    refine (List.map_congr_left fun it hIt => ?_).trans (List.map_id _)
    exact mark_char (written_intMarks hIt)
  have hPlain : Mark.underscore ∉ intMarks number := fun hMem => by
    cases written_intMarks hMem
  have hSeparated (after : Bool) (marks : List Mark) (hNone : Mark.underscore ∉ marks) :
      separated after marks = true := by
    induction marks generalizing after with
    | nil => rfl
    | cons it marks ih =>
        rw [List.mem_cons, not_or] at hNone
        cases it with
        | underscore => exact absurd rfl hNone.1
        | _ => exact ih _ hNone.2
  have hRead := readSign_digits (digitsOf_ne_nil number.natAbs) (decide (number < 0)) []
  have hRow := @readDigits_append [] trivial (digitsOf number.natAbs)
  rw [List.append_nil] at hRead hRow
  rw [hMarks]
  unfold readInt
  rw [hSeparated false _ hPlain, plain_eq hPlain]
  unfold intMarks
  rw [hRead]
  dsimp only
  rw [hRow, List.isEmpty_eq_false_iff.mpr (digitsOf_ne_nil _), valueOf_digitsOf]
  have hLength : ¬ (digitsOf number.natAbs).length > maxIntDigits := by omega
  rw [decide_eq_false hLength]
  unfold signed
  show some (if decide (number < 0) = true then -(number.natAbs : ℤ) else number.natAbs) = _
  by_cases hNegative : number < 0
  · rw [decide_eq_true hNegative, if_pos rfl]
    congr 1
    omega
  · rw [decide_eq_false hNegative, if_neg Bool.false_ne_true]
    congr 1
    omega

end Numerals
end Tracecat
