import Mathlib.Data.List.Basic
import Mathlib.Data.Nat.Digits.Lemmas

/-!
# Positional numerals

Numbers written with the characters of an alphabet, the most significant digit
first.  A numeral may be padded with zeros; reading it back gives the number.
-/

namespace Tracecat
namespace Radix

variable (alphabet : List Char) (zero : Char)

def digitChar (digit : Nat) : Char :=
  alphabet.getD digit zero

def charDigit (char : Char) : Option Nat :=
  if char ∈ alphabet then some (alphabet.idxOf char) else none

/-- The numeral of a number; zero is written with one digit. -/
def encode (num : Nat) : List Char :=
  if num = 0 then [digitChar alphabet zero 0]
  else ((Nat.digits alphabet.length num).map (digitChar alphabet zero)).reverse

def readDigit (num : Nat) (char : Char) : Option Nat :=
  (charDigit alphabet char).map fun digit => num * alphabet.length + digit

/-- The number of a numeral; `none` when a character is not of the alphabet. -/
def decode (text : List Char) : Option Nat :=
  text.foldlM (readDigit alphabet) 0

/-- The numeral with zeros in front, up to a length. -/
def zfill (width : Nat) (text : List Char) : List Char :=
  List.replicate (width - text.length) (digitChar alphabet zero 0) ++ text

variable {alphabet zero}

theorem charDigit_digitChar (hNodup : alphabet.Nodup) {digit : Nat}
    (hDigit : digit < alphabet.length) :
    charDigit alphabet (digitChar alphabet zero digit) = some digit := by
  have hChar : digitChar alphabet zero digit = alphabet[digit] := by
    simp [digitChar, hDigit]
  unfold charDigit
  rw [hChar, if_pos (List.getElem_mem hDigit), hNodup.idxOf_getElem digit hDigit]

theorem decode_digits (hNodup : alphabet.Nodup) {digits : List Nat}
    (hDigits : ∀ digit ∈ digits, digit < alphabet.length) :
    decode alphabet (digits.map (digitChar alphabet zero)).reverse =
      some (Nat.ofDigits alphabet.length digits) := by
  induction digits with
  | nil => rfl
  | cons digit digits ih =>
      have hRest := ih fun other hOther => hDigits other (List.mem_cons_of_mem _ hOther)
      have hDigit := @charDigit_digitChar alphabet zero hNodup digit (hDigits digit List.mem_cons_self)
      unfold decode at hRest ⊢
      rw [List.map_cons, List.reverse_cons, List.foldlM_append, hRest]
      show (readDigit alphabet _ _ >>= fun num => some num) = _
      unfold readDigit
      rw [hDigit, Nat.ofDigits_cons, Nat.add_comm, Nat.mul_comm]
      rfl

theorem decode_encode (hNodup : alphabet.Nodup) (hBase : 1 < alphabet.length) (num : Nat) :
    decode alphabet (encode alphabet zero num) = some num := by
  by_cases hNum : num = 0
  · subst hNum
    exact @decode_digits alphabet zero hNodup [0] fun digit hDigit => by
      rw [List.mem_singleton.mp hDigit]
      omega
  · unfold encode
    rw [if_neg hNum, decode_digits hNodup fun digit hDigit => Nat.digits_lt_base hBase hDigit,
      Nat.ofDigits_digits]

theorem decode_zfill (hNodup : alphabet.Nodup) (hBase : 1 < alphabet.length) (width : Nat)
    (text : List Char) : decode alphabet (zfill alphabet zero width text) = decode alphabet text := by
  have hZero : readDigit alphabet 0 (digitChar alphabet zero 0) = some 0 := by
    unfold readDigit
    rw [charDigit_digitChar hNodup (by omega)]
    simp
  unfold zfill decode
  induction width - text.length with
  | zero => rfl
  | succ count ih =>
      rw [List.replicate_succ, List.cons_append, List.foldlM_cons, hZero]
      exact ih

theorem length_encode_le (hBase : 1 < alphabet.length) {num width : Nat} (hWidth : 0 < width)
    (hNum : num < alphabet.length ^ width) : (encode alphabet zero num).length ≤ width := by
  unfold encode
  split
  · exact hWidth
  · rw [List.length_reverse, List.length_map]
    exact (Nat.digits_length_le_iff hBase num).mpr hNum

theorem length_zfill {width : Nat} {text : List Char} (hText : text.length ≤ width) :
    (zfill alphabet zero width text).length = width := by
  rw [zfill, List.length_append, List.length_replicate]
  omega

theorem digitChar_mem {digit : Nat} (hDigit : digit < alphabet.length) :
    digitChar alphabet zero digit ∈ alphabet := by
  have hChar : digitChar alphabet zero digit = alphabet[digit] := by
    simp [digitChar, hDigit]
  rw [hChar]
  exact List.getElem_mem hDigit

/-- A padded numeral is written in the alphabet. -/
theorem mem_of_mem_zfill_encode (hBase : 1 < alphabet.length) {num width : Nat} {char : Char}
    (hChar : char ∈ zfill alphabet zero width (encode alphabet zero num)) : char ∈ alphabet := by
  have hZero : digitChar alphabet zero 0 ∈ alphabet := digitChar_mem (by omega)
  rcases List.mem_append.mp hChar with hPad | hText
  · rw [(List.mem_replicate.mp hPad).2]
    exact hZero
  · unfold encode at hText
    split at hText
    · rw [List.mem_singleton.mp hText]
      exact hZero
    · obtain ⟨digit, hDigit, rfl⟩ := List.mem_map.mp (List.mem_reverse.mp hText)
      exact digitChar_mem (Nat.digits_lt_base hBase hDigit)

end Radix
end Tracecat
