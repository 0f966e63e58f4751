import Mathlib.Algebra.Group.Nat.Defs
import Mathlib.Data.List.Basic

/-!
# Byte strings

Texts as UTF-8, and lists of byte strings with the length of each in front of
it, which can be told apart.
-/

namespace Tracecat

abbrev Bytes : Type := List UInt8

namespace Bytes

/-! ## Texts -/

/-- `text.encode("utf-8")`. -/
def ofText (text : String) : Bytes :=
  text.toByteArray.data.toList

/-- `data.decode("utf-8")`; `none` when the bytes are not the UTF-8 of a text. -/
def text? (data : Bytes) : Option String :=
  String.fromUTF8? data.toByteArray

theorem toByteArray_ofText (text : String) : (ofText text).toByteArray = text.toByteArray := by
  apply ByteArray.ext
  unfold ofText
  rw [List.data_toByteArray, Array.toArray_toList]

@[simp] theorem text?_ofText (text : String) : text? (ofText text) = some text := by
  unfold text? String.fromUTF8?
  rw [toByteArray_ofText, dif_pos text.isValidUTF8]
  rfl

theorem text?_eq_some_iff {data : Bytes} {text : String} :
    text? data = some text ↔ data = ofText text := by
  constructor
  · intro hText
    unfold text? String.fromUTF8? at hText
    split at hText
    · obtain rfl := Option.some.inj hText
      unfold ofText
      change data = data.toByteArray.data.toList
      rw [List.data_toByteArray]
    · cases hText
  · rintro rfl
    exact text?_ofText text

theorem ofText_inj {first second : String} : ofText first = ofText second ↔ first = second := by
  constructor
  · intro hSame
    have hTexts := congrArg text? hSame
    rw [text?_ofText, text?_ofText] at hTexts
    exact Option.some.inj hTexts
  · exact congrArg ofText

@[simp] theorem text?_nil : text? [] = some "" :=
  text?_eq_some_iff.mpr rfl

/-! ## Lengths -/

/-- `length.to_bytes(4, "big")`; `none` when it does not fit. -/
def lengthBytes (length : Nat) : Option Bytes :=
  if length < 2 ^ 32 then
    some [.ofNat (length / 2 ^ 24), .ofNat (length / 2 ^ 16), .ofNat (length / 2 ^ 8), .ofNat length]
  else none

theorem length_of_lengthBytes {length : Nat} {data : Bytes} (hBytes : lengthBytes length = some data) :
    data.length = 4 := by
  unfold lengthBytes at hBytes
  split at hBytes
  · obtain rfl := Option.some.inj hBytes
    rfl
  · cases hBytes

theorem lengthBytes_inj {first second : Nat} {data : Bytes} (hFirst : lengthBytes first = some data)
    (hSecond : lengthBytes second = some data) : first = second := by
  unfold lengthBytes at hFirst hSecond
  split at hFirst
  · split at hSecond
    · rw [← Option.some.inj hFirst] at hSecond
      have hDigits := Option.some.inj hSecond
      simp only [List.cons.injEq, and_true, ← UInt8.toNat_inj, UInt8.toNat_ofNat'] at hDigits
      omega
    · cases hSecond
  · cases hFirst

/-! ## Frames -/

/-- The parts with the length of each in front of it; `none` when a length does not fit. -/
def frame : List Bytes → Option Bytes
  | [] => some []
  | part :: parts => do
      let length ← lengthBytes part.length
      let rest ← frame parts
      return length ++ part ++ rest

theorem frame_cons_eq_some {part : Bytes} {parts : List Bytes} {data : Bytes} :
    frame (part :: parts) = some data ↔
      ∃ length rest, lengthBytes part.length = some length ∧ frame parts = some rest ∧
        data = length ++ part ++ rest := by
  simp only [frame, Option.bind_eq_bind, Option.bind_eq_some_iff, Option.pure_def,
    Option.some.injEq]
  constructor
  · rintro ⟨length, hLength, rest, hRest, rfl⟩
    exact ⟨length, rest, hLength, hRest, rfl⟩
  · rintro ⟨length, rest, hLength, hRest, rfl⟩
    exact ⟨length, hLength, rest, hRest, rfl⟩

theorem frame_inj {first second : List Bytes} {data : Bytes} (hFirst : frame first = some data)
    (hSecond : frame second = some data) : first = second := by
  induction first generalizing second data with
  | nil =>
      obtain rfl := Option.some.inj hFirst
      cases second with
      | nil => rfl
      | cons part parts =>
          obtain ⟨length, rest, hLength, -, hNone⟩ := frame_cons_eq_some.mp hSecond
          have hFour := length_of_lengthBytes hLength
          have hSize := congrArg List.length hNone
          simp only [List.length_append, List.length_nil] at hSize
          omega
  | cons part parts ih =>
      obtain ⟨length, rest, hLength, hRest, rfl⟩ := frame_cons_eq_some.mp hFirst
      cases second with
      | nil =>
          have hNone := Option.some.inj hSecond
          have hFour := length_of_lengthBytes hLength
          have hSize := congrArg List.length hNone
          simp only [List.length_append, List.length_nil] at hSize
          omega
      | cons other others =>
          obtain ⟨length', rest', hLength', hRest', hSame⟩ := frame_cons_eq_some.mp hSecond
          -- the lengths take four bytes each, so they agree, and then the parts do
          rw [List.append_assoc, List.append_assoc] at hSame
          have hFour := (length_of_lengthBytes hLength).trans (length_of_lengthBytes hLength').symm
          obtain ⟨rfl, hAfter⟩ := List.append_inj hSame hFour
          have hParts : part.length = other.length := lengthBytes_inj hLength hLength'
          obtain ⟨rfl, rfl⟩ := List.append_inj hAfter hParts
          rw [ih hRest hRest']

end Bytes
end Tracecat
