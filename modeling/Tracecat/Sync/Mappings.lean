import Tracecat.Lib.Numerals
import Tracecat.Lib.Radix
import Tracecat.Workflow.Folders

/-!
# Workflow identifiers

`WorkflowUUID` (`identifiers/workflow.py`, `identifiers/common.py`,
`base62.py`): a UUID with a short text, and the texts that one is read from.
-/

namespace Tracecat
namespace Sync

/-- A `WorkflowUUID`, by its integer. -/
abbrev WorkflowUUID : Type := Fin (2 ^ 128)

/-- `_BASE62_CHARS`. -/
def base62Chars : List Char :=
  "0123456789abcdefghijklmnopqrstuvwxyzABCDEFGHIJKLMNOPQRSTUVWXYZ".toList

def hexChars : List Char :=
  "0123456789abcdef".toList

/-- `UUID(int=num)`. -/
def uuidOfInt (num : Nat) : Option WorkflowUUID :=
  if hNum : num < 2 ^ 128 then some ⟨num, hNum⟩ else none

/-- `text.replace(pattern, "")`; `skip` characters of a found pattern are left
to drop. -/
def removeAll (pattern : List Char) (skip : Nat) : List Char → List Char
  | [] => []
  | char :: text =>
      match skip with
      | skip + 1 => removeAll pattern skip text
      | 0 =>
          if pattern.isPrefixOf (char :: text) then removeAll pattern (pattern.length - 1) text
          else char :: removeAll pattern 0 text

/-- `text.strip("\x7b\x7d")`. -/
def stripBraces (text : List Char) : List Char :=
  let isBrace (char : Char) : Bool := char.toNat = 0x7b || char.toNat = 0x7d
  ((text.dropWhile isBrace).reverse.dropWhile isBrace).reverse

/-- A character as `int` reads it: digits and white space beyond ASCII count as those of ASCII. -/
def toAscii (char : Char) : Char :=
  if char.toNat < 127 then char
  else if Folders.isSpace char then ' '
  else
    match Numerals.decimalZeros.find? fun first => first ≤ char.toNat && char.toNat < first + 10 with
    | some first => Char.ofNat (48 + (char.toNat - first))
    | none => '?'

/-- The white space of ASCII that `int` skips. -/
def isBlank (char : Char) : Bool :=
  char = ' ' || (9 ≤ char.toNat && char.toNat ≤ 13)

/-- The text after a plus sign. -/
def dropSign : List Char → List Char
  | '+' :: text => text
  | text => text

/-- The text after the prefix of the base; an underscore may follow the prefix. -/
def dropBase : List Char → List Char
  | '0' :: 'x' :: '_' :: text | '0' :: 'X' :: '_' :: text => text
  | '0' :: 'x' :: text | '0' :: 'X' :: text => text
  | text => text

/-- `int(text, 16)`, of a text without a minus sign. -/
def intOfHex (text : List Char) : Option Nat :=
  let text := Folders.rstrip isBlank ((text.map toAscii).dropWhile isBlank)
  -- an underscore stands between two digits
  let groups := (dropBase (dropSign text)).splitOn '_'
  if groups.any List.isEmpty then none
  else Radix.decode hexChars (groups.flatten.map Char.toLower)

/-- `UUID(text)`: a number of 32 characters, once the URN, the braces and the hyphens are gone. -/
def uuidOfText (text : List Char) : Option WorkflowUUID :=
  let bare := removeAll "uuid:".toList 0 (removeAll "urn:".toList 0 text)
  let hex := (stripBraces bare).filter (· ≠ '-')
  if hex.length ≠ 32 then none else (intOfHex hex).bind uuidOfInt

theorem dropWhile_of_none {p : Char → Bool} {text : List Char}
    (hNone : ∀ char ∈ text, p char = false) : text.dropWhile p = text := by
  cases text with
  | nil => rfl
  | cons char text =>
      exact List.dropWhile_cons_of_neg (by simp [hNone char List.mem_cons_self])

theorem dropSign_of_notMem {text : List Char} (hSign : '+' ∉ text) : dropSign text = text := by
  unfold dropSign
  split
  · exact absurd List.mem_cons_self hSign
  · rfl

theorem dropBase_of_notMem {text : List Char} (hLower : 'x' ∉ text) (hUpper : 'X' ∉ text) :
    dropBase text = text := by
  unfold dropBase
  split <;> simp_all

theorem intOfHex_of_digits {text : List Char} (hDigits : ∀ char ∈ text, char ∈ hexChars)
    (hText : text ≠ []) : intOfHex text = Radix.decode hexChars text := by
  have hAll : hexChars.all fun char =>
      toAscii char = char ∧ isBlank char = false ∧ char.toLower = char := by
    rfl
  have hEach : ∀ char ∈ hexChars,
      toAscii char = char ∧ isBlank char = false ∧ char.toLower = char := by
    simpa using hAll
  have hPlain : ∀ char, char ∉ hexChars → char ∉ text := fun char hChar hMem =>
    hChar (hDigits char hMem)
  have hAscii : text.map toAscii = text :=
    (List.map_congr_left fun char hChar => (hEach char (hDigits char hChar)).1).trans
      (List.map_id' text)
  have hLower : text.map Char.toLower = text :=
    (List.map_congr_left fun char hChar => (hEach char (hDigits char hChar)).2.2).trans
      (List.map_id' text)
  have hBlank : ∀ char ∈ text, isBlank char = false := fun char hChar =>
    (hEach char (hDigits char hChar)).2.1
  have hStrip : Folders.rstrip isBlank (text.dropWhile isBlank) = text := by
    rw [dropWhile_of_none hBlank, Folders.rstrip, dropWhile_of_none fun char hChar =>
      hBlank char (List.mem_reverse.mp hChar), List.reverse_reverse]
  have hGroups : text.splitOn '_' = [text] := by
    refine List.splitOnP_eq_singleton fun char hChar => beq_eq_false_iff_ne.mpr ?_
    rintro rfl
    exact hPlain '_' (by decide) hChar
  unfold intOfHex
  dsimp only
  -- no sign, no prefix and no underscore is among the digits
  rw [hAscii, hStrip, dropSign_of_notMem (hPlain '+' (by decide)),
    dropBase_of_notMem (hPlain 'x' (by decide)) (hPlain 'X' (by decide)), hGroups]
  simp [hText, hLower]

theorem removeAll_of_notMem {pattern text : List Char} {char : Char} (hPattern : char ∈ pattern)
    (hText : char ∉ text) : removeAll pattern 0 text = text := by
  induction text with
  | nil => rfl
  | cons first text ih =>
      obtain ⟨-, hRest⟩ := not_or.mp (List.mem_cons.not.mp hText)
      have hFound : ¬ pattern.isPrefixOf (first :: text) = true := fun hPrefix =>
        hText ((List.isPrefixOf_iff_prefix.mp hPrefix).subset hPattern)
      unfold removeAll
      dsimp only
      rw [if_neg hFound, ih hRest]

theorem stripBraces_of_notMem {text : List Char} (hOpen : Char.ofNat 0x7b ∉ text)
    (hClose : Char.ofNat 0x7d ∉ text) : stripBraces text = text := by
  have hBrace : ∀ char ∈ text, (char.toNat = 0x7b || char.toNat = 0x7d : Bool) = false := by
    intro char hChar
    rw [← Bool.not_eq_true, Bool.or_eq_true, decide_eq_true_eq, decide_eq_true_eq]
    rw [← Char.ofNat_toNat char] at hChar
    rintro (hCode | hCode)
    · exact hOpen (hCode ▸ hChar)
    · exact hClose (hCode ▸ hChar)
  unfold stripBraces
  dsimp only
  rw [dropWhile_of_none hBrace, dropWhile_of_none fun char hChar =>
    hBrace char (List.mem_reverse.mp hChar), List.reverse_reverse]

namespace WorkflowUUID

/-- `short`. -/
def short (id : WorkflowUUID) : String :=
  String.ofList ("wf_".toList ++
    Radix.zfill base62Chars '0' 22 (Radix.encode base62Chars '0' id.val))

/-- `hex`. -/
def hex (id : WorkflowUUID) : List Char :=
  Radix.zfill hexChars '0' 32 (Radix.encode hexChars '0' id.val)

/-- `str`: the digits in groups. -/
def str (id : WorkflowUUID) : String :=
  String.ofList (id.hex.take 8 ++ '-' :: ((id.hex.drop 8).take 4 ++ '-' :: ((id.hex.drop 12).take 4 ++
    '-' :: ((id.hex.drop 16).take 4 ++ '-' :: id.hex.drop 20))))

/-- `from_short`, without the prefix. -/
def fromShort (suffix : List Char) : Option WorkflowUUID :=
  (Radix.decode base62Chars suffix).bind uuidOfInt

/-- `WorkflowUUID.new` of a text; `none` is the `ValueError`. -/
def new (id : String) : Option WorkflowUUID :=
  let text := id.toList
  if "wf_".toList.isPrefixOf text then fromShort (text.drop 3)
  else if "wf-".toList.isPrefixOf text then uuidOfText (text.drop 3)
  else uuidOfText text

@[simp] theorem new_short (id : WorkflowUUID) : new id.short = some id := by
  have hNodup : base62Chars.Nodup := by decide
  have hBase : 1 < base62Chars.length := by decide
  unfold new short
  rw [String.toList_ofList, if_pos (by simp)]
  show fromShort (Radix.zfill base62Chars '0' 22 (Radix.encode base62Chars '0' id.val)) = _
  unfold fromShort
  rw [Radix.decode_zfill hNodup hBase, Radix.decode_encode hNodup hBase]
  show uuidOfInt id.val = some id
  unfold uuidOfInt
  rw [dif_pos id.isLt]

theorem length_hex (id : WorkflowUUID) : id.hex.length = 32 := by
  have hBase : 1 < hexChars.length := by decide
  exact Radix.length_zfill (Radix.length_encode_le hBase (by decide) id.isLt)

theorem mem_hexChars {id : WorkflowUUID} {char : Char} (hChar : char ∈ id.hex) :
    char ∈ hexChars :=
  Radix.mem_of_mem_zfill_encode (by decide) hChar

theorem filter_str (id : WorkflowUUID) : id.str.toList.filter (· ≠ '-') = id.hex := by
  have hDigits : ∀ text : List Char, (∀ char ∈ text, char ∈ id.hex) →
      text.filter (· ≠ '-') = text := by
    intro text hText
    refine List.filter_eq_self.mpr fun char hChar => decide_eq_true ?_
    rintro rfl
    exact absurd (mem_hexChars (hText _ hChar)) (by decide)
  have hTake (from_ count : Nat) : ((id.hex.drop from_).take count).filter (· ≠ '-') =
      (id.hex.drop from_).take count :=
    hDigits _ fun char hChar => List.mem_of_mem_drop (List.mem_of_mem_take hChar)
  have hHead : (id.hex.take 8).filter (· ≠ '-') = id.hex.take 8 := hTake 0 8
  have hLast : (id.hex.drop 20).filter (· ≠ '-') = id.hex.drop 20 :=
    hDigits _ fun char hChar => List.mem_of_mem_drop hChar
  have hJoin (from_ count : Nat) :
      (id.hex.drop from_).take count ++ id.hex.drop (from_ + count) = id.hex.drop from_ := by
    rw [← List.drop_drop, List.take_append_drop]
  have hSkip (text : List Char) : ('-' :: text).filter (· ≠ '-') = text.filter (· ≠ '-') :=
    List.filter_cons_of_neg (by decide)
  rw [str, String.toList_ofList]
  simp only [List.filter_append, hSkip, hHead, hTake, hLast]
  rw [hJoin 16 4, hJoin 12 4, hJoin 8 4, List.take_append_drop]

theorem mem_str {id : WorkflowUUID} {char : Char} (hChar : char ∈ id.str.toList) :
    char ∈ '-' :: hexChars := by
  by_cases hHyphen : char = '-'
  · exact hHyphen ▸ List.mem_cons_self
  · refine List.mem_cons_of_mem _ (@mem_hexChars id char ?_)
    rw [← filter_str]
    exact List.mem_filter.mpr ⟨hChar, decide_eq_true hHyphen⟩

@[simp] theorem new_str (id : WorkflowUUID) : new id.str = some id := by
  have hNodup : hexChars.Nodup := by decide
  have hBase : 1 < hexChars.length := by decide
  have hPlain : ∀ char, char ∉ '-' :: hexChars → char ∉ id.str.toList :=
    fun char hChar hMem => hChar (mem_str hMem)
  have hDigits : intOfHex id.hex = Radix.decode hexChars id.hex :=
    intOfHex_of_digits (fun char hChar => @mem_hexChars id char hChar)
      (List.ne_nil_of_length_pos (by rw [length_hex]; decide))
  unfold new
  dsimp only
  rw [if_neg fun hShort => hPlain 'w' (by decide) ((List.isPrefixOf_iff_prefix.mp hShort).subset (by decide)),
    if_neg fun hLegacy => hPlain 'w' (by decide) ((List.isPrefixOf_iff_prefix.mp hLegacy).subset (by decide))]
  unfold uuidOfText
  rw [removeAll_of_notMem (by decide : ':' ∈ "urn:".toList) (hPlain ':' (by decide)),
    removeAll_of_notMem (by decide : ':' ∈ "uuid:".toList) (hPlain ':' (by decide))]
  dsimp only
  rw [stripBraces_of_notMem (hPlain _ (by decide)) (hPlain _ (by decide)), filter_str,
    length_hex, if_neg (by decide), hDigits, hex, Radix.decode_zfill hNodup hBase,
    Radix.decode_encode hNodup hBase]
  show uuidOfInt id.val = some id
  unfold uuidOfInt
  rw [dif_pos id.isLt]

theorem short_injective : Function.Injective short := by
  intro first second hShort
  have hNew := congrArg new hShort
  rw [new_short, new_short] at hNew
  exact Option.some.inj hNew

end WorkflowUUID

end Sync
end Tracecat
