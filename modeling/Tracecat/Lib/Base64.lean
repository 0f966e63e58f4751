import Tracecat.Lib.ByteStrings

/-!
# Base 64

The URL-safe alphabet, written with padding and read leniently: characters that
are not in an alphabet are skipped, and the first complete padding ends the text.
-/

namespace Tracecat
namespace Base64

/-- `=`. -/
def pad : UInt8 := 61

/-- The character of six bits in the URL-safe alphabet. -/
def urlsafeChar (sextet : Nat) : UInt8 :=
  if sextet < 26 then .ofNat (65 + sextet)
  else if sextet < 52 then .ofNat (71 + sextet)
  else if sextet < 62 then .ofNat (sextet - 4)
  else if sextet = 62 then 45
  else 95

/-- The six bits of a character, in the standard alphabet or the URL-safe one. -/
def sextet? (char : UInt8) : Option Nat :=
  let code := char.toNat
  if 65 ≤ code ∧ code ≤ 90 then some (code - 65)
  else if 97 ≤ code ∧ code ≤ 122 then some (code - 71)
  else if 48 ≤ code ∧ code ≤ 57 then some (code + 4)
  else if code = 43 ∨ code = 45 then some 62
  else if code = 47 ∨ code = 95 then some 63
  else none

/-- `base64.urlsafe_b64encode`. -/
def encode : Bytes → Bytes
  | [] => []
  | [a] =>
      [urlsafeChar (a.toNat / 4), urlsafeChar (a.toNat % 4 * 16), pad, pad]
  | [a, b] =>
      [urlsafeChar (a.toNat / 4), urlsafeChar (a.toNat % 4 * 16 + b.toNat / 16),
        urlsafeChar (b.toNat % 16 * 4), pad]
  | a :: b :: c :: rest =>
      urlsafeChar (a.toNat / 4) :: urlsafeChar (a.toNat % 4 * 16 + b.toNat / 16) ::
        urlsafeChar (b.toNat % 16 * 4 + c.toNat / 64) :: urlsafeChar (c.toNat % 64) :: encode rest

/-- The loop of `binascii.a2b_base64`, at a position in a group of four, with the bits left over
from the last character and the number of paddings. -/
def decodeFrom : Nat → Nat → Nat → Bytes → Option Bytes
  | quad, _, _, [] => if quad = 0 then some [] else none
  | quad, left, pads, char :: rest =>
      if char = pad then
        if 2 ≤ quad then
          if 4 ≤ quad + (pads + 1) then some [] else decodeFrom quad left (pads + 1) rest
        else decodeFrom quad left pads rest
      else
        match sextet? char with
        | none => decodeFrom quad left pads rest
        | some sextet =>
            match quad with
            | 0 => decodeFrom 1 sextet 0 rest
            | 1 => (decodeFrom 2 (sextet % 16) 0 rest).map (.ofNat (left * 4 + sextet / 16) :: ·)
            | 2 => (decodeFrom 3 (sextet % 4) 0 rest).map (.ofNat (left * 16 + sextet / 4) :: ·)
            | _ => (decodeFrom 0 0 0 rest).map (.ofNat (left * 64 + sextet) :: ·)

/-- `base64.urlsafe_b64decode`. -/
def decode (text : Bytes) : Option Bytes :=
  decodeFrom 0 0 0 text

/-! ## What is written is read back -/

theorem sextet?_urlsafeChar {sextet : Nat} (hSextet : sextet < 64) :
    sextet? (urlsafeChar sextet) = some sextet ∧ urlsafeChar sextet ≠ pad := by
  have hAll : ∀ sextet : Fin 64, sextet? (urlsafeChar sextet) = some sextet.val ∧
      urlsafeChar sextet ≠ pad := by decide
  exact hAll ⟨sextet, hSextet⟩

section Steps

variable {sextet left pads : Nat} (hSextet : sextet < 64) (rest : Bytes)

include hSextet

/-- The first character of a group, and then the others. -/
theorem decodeFrom_first :
    decodeFrom 0 left pads (urlsafeChar sextet :: rest) = decodeFrom 1 sextet 0 rest := by
  obtain ⟨hRead, hPad⟩ := sextet?_urlsafeChar hSextet
  rw [decodeFrom, if_neg hPad, hRead]
  rfl

theorem decodeFrom_second :
    decodeFrom 1 left pads (urlsafeChar sextet :: rest) =
      (decodeFrom 2 (sextet % 16) 0 rest).map (.ofNat (left * 4 + sextet / 16) :: ·) := by
  obtain ⟨hRead, hPad⟩ := sextet?_urlsafeChar hSextet
  rw [decodeFrom, if_neg hPad, hRead]
  rfl

theorem decodeFrom_third :
    decodeFrom 2 left pads (urlsafeChar sextet :: rest) =
      (decodeFrom 3 (sextet % 4) 0 rest).map (.ofNat (left * 16 + sextet / 4) :: ·) := by
  obtain ⟨hRead, hPad⟩ := sextet?_urlsafeChar hSextet
  rw [decodeFrom, if_neg hPad, hRead]
  rfl

theorem decodeFrom_fourth :
    decodeFrom 3 left pads (urlsafeChar sextet :: rest) =
      (decodeFrom 0 0 0 rest).map (.ofNat (left * 64 + sextet) :: ·) := by
  obtain ⟨hRead, hPad⟩ := sextet?_urlsafeChar hSextet
  rw [decodeFrom, if_neg hPad, hRead]
  rfl

end Steps

theorem ofNat_eq {byte : UInt8} {code : Nat} (hCode : code = byte.toNat) : UInt8.ofNat code = byte := by
  rw [hCode, UInt8.ofNat_toNat]

theorem decodeFrom_pads (left : Nat) :
    decodeFrom 2 left 0 [pad, pad] = some [] ∧ decodeFrom 3 left 0 [pad] = some [] :=
  ⟨rfl, rfl⟩

theorem decode_encode (data : Bytes) : decode (encode data) = some data := by
  unfold decode
  fun_induction encode data with
  | case1 => rfl
  | case2 a =>
      have hA := a.toNat_lt
      rw [decodeFrom_first (by omega), decodeFrom_second (by omega)]
      have hFirst : UInt8.ofNat (a.toNat / 4 * 4 + a.toNat % 4 * 16 / 16) = a := ofNat_eq (by omega)
      rw [(decodeFrom_pads _).1, Option.map_some, hFirst]
  | case3 a b =>
      have hA := a.toNat_lt
      have hB := b.toNat_lt
      rw [decodeFrom_first (by omega), decodeFrom_second (by omega), decodeFrom_third (by omega)]
      have hFirst : UInt8.ofNat (a.toNat / 4 * 4 + (a.toNat % 4 * 16 + b.toNat / 16) / 16) = a :=
        ofNat_eq (by omega)
      have hSecond : UInt8.ofNat ((a.toNat % 4 * 16 + b.toNat / 16) % 16 * 16 + b.toNat % 16 * 4 / 4) =
          b := ofNat_eq (by omega)
      rw [(decodeFrom_pads _).2, Option.map_some, Option.map_some, hFirst, hSecond]
  | case4 a b c rest ih =>
      have hA := a.toNat_lt
      have hB := b.toNat_lt
      have hC := c.toNat_lt
      rw [decodeFrom_first (by omega), decodeFrom_second (by omega), decodeFrom_third (by omega),
        decodeFrom_fourth (by omega)]
      have hFirst : UInt8.ofNat (a.toNat / 4 * 4 + (a.toNat % 4 * 16 + b.toNat / 16) / 16) = a :=
        ofNat_eq (by omega)
      have hSecond : UInt8.ofNat ((a.toNat % 4 * 16 + b.toNat / 16) % 16 * 16 +
          (b.toNat % 16 * 4 + c.toNat / 64) / 4) = b := ofNat_eq (by omega)
      have hThird : UInt8.ofNat ((b.toNat % 16 * 4 + c.toNat / 64) % 4 * 64 + c.toNat % 64) = c :=
        ofNat_eq (by omega)
      rw [ih, hFirst, hSecond, hThird]
      rfl

end Base64
end Tracecat
