import Mathlib.Data.List.Basic
import Mathlib.Tactic.IntervalCases
import Tracecat.Lib.Paths
import Tracecat.Dsl.Schemas

/-!
# Titles and slugs

An imported action keeps the title of its statement and gets its ref back as the
slug of that title.  `slugify` is modelled on texts of letters, digits and
spaces, as titles of refs are: transliteration, entities and the quoting rules
have nothing to do there.
-/

namespace Tracecat

/-- A character of `SLUG_PATTERN`. -/
def isRefChar (char : Char) : Bool :=
  char.isLower || char.isDigit || char = '_'

/-- `SLUG_PATTERN` matches the text. -/
def matchesSlugPattern (text : String) : Bool :=
  text ≠ "" && text.toList.all isRefChar

/-- `str.capitalize`. -/
def capitalize (text : String) : String :=
  match text.toList with
  | [] => ""
  | first :: rest => String.ofList (first.toUpper :: rest.map Char.toLower)

/-- `.replace("_", " ")`, character by character. -/
def titleChar (char : Char) : Char :=
  if char = '_' then ' ' else char

/-- `ActionStatement.title`. -/
def titleOfRef (ref : Ref) : String :=
  String.ofList ((capitalize ref).toList.map titleChar)

/-- `slugify(text, separator="_")`. -/
def slugify (text : String) : String :=
  let parts := (text.toList.map Char.toLower).splitOnP fun char => !char.isAlphanum
  String.ofList (['_'].intercalate (parts.filter fun part => part ≠ []))

/-- The parts of a ref between its underscores. -/
def refParts (ref : Ref) : List (List Char) :=
  ref.toList.splitOn '_'

/-- No underscore of the ref stands at an end or next to another. -/
def CanonicalRef (ref : Ref) : Prop :=
  ∀ part ∈ refParts ref, part ≠ []

instance (ref : Ref) : Decidable (CanonicalRef ref) :=
  inferInstanceAs (Decidable (∀ part ∈ refParts ref, part ≠ []))

/-! ## Characters of refs -/

theorem forall_refChar {P : Char → Prop}
    (hAll : ∀ code < 128, isRefChar (Char.ofNat code) → P (Char.ofNat code)) {char : Char}
    (hChar : isRefChar char) : P char := by
  have hCode : char.toNat < 128 := by
    have hLower : char.isLower =
        (decide ('a'.val ≤ char.val) && decide (char.val ≤ 'z'.val)) := rfl
    unfold isRefChar at hChar
    simp only [hLower, Char.isDigit, Bool.or_eq_true, Bool.and_eq_true,
      decide_eq_true_eq] at hChar
    rcases hChar with (⟨-, hHigh⟩ | ⟨-, hHigh⟩) | rfl
    · exact lt_of_le_of_lt (UInt32.le_iff_toNat_le.mp hHigh) (by decide)
    · exact lt_of_le_of_lt (UInt32.le_iff_toNat_le.mp hHigh) (by decide)
    · decide
  have hOf := hAll char.toNat hCode
  rw [Char.ofNat_toNat] at hOf
  exact hOf hChar

theorem toLower_titleChar {char : Char} (hChar : isRefChar char) :
    (titleChar char.toLower).toLower = titleChar char :=
  forall_refChar (P := fun char => (titleChar char.toLower).toLower = titleChar char)
    (by decide) hChar

theorem toLower_titleChar_toUpper {char : Char} (hChar : isRefChar char) :
    (titleChar char.toUpper).toLower = titleChar char :=
  forall_refChar (P := fun char => (titleChar char.toUpper).toLower = titleChar char)
    (by decide) hChar

theorem titleChar_splits {char : Char} (hChar : isRefChar char) :
    (!(titleChar char).isAlphanum) = (char == '_') :=
  forall_refChar (P := fun char => (!(titleChar char).isAlphanum) = (char == '_'))
    (by decide) hChar

/-! ## The slug of the title of a ref -/

theorem refChars {ref : Ref} (hPattern : matchesSlugPattern ref) :
    ∀ char ∈ ref.toList, isRefChar char := by
  unfold matchesSlugPattern at hPattern
  rw [Bool.and_eq_true, List.all_eq_true] at hPattern
  exact hPattern.2

/-- Up to case, the title is the ref with spaces for underscores. -/
theorem lower_titleOfRef {ref : Ref} (hPattern : matchesSlugPattern ref) :
    (titleOfRef ref).toList.map Char.toLower = ref.toList.map titleChar := by
  have hChars := refChars hPattern
  unfold titleOfRef capitalize
  cases hList : ref.toList with
  | nil => rfl
  | cons first rest =>
      rw [hList] at hChars
      simp only [String.toList_ofList, List.map_cons, List.map_map, List.cons.injEq]
      constructor
      · exact toLower_titleChar_toUpper (hChars first List.mem_cons_self)
      · apply List.map_congr_left
        intro char hChar
        exact toLower_titleChar (hChars char (List.mem_cons_of_mem _ hChar))

/-- Splitting the title at its separators gives the parts of the ref. -/
theorem splitOnP_map_titleChar {chars : List Char} (hChars : ∀ char ∈ chars, isRefChar char) :
    (chars.map titleChar).splitOnP (fun char => !char.isAlphanum) = chars.splitOn '_' := by
  induction chars with
  | nil => rfl
  | cons char chars ih =>
      have hChar := hChars char List.mem_cons_self
      rw [List.map_cons, List.splitOnP_cons_eq_if_modifyHead, List.splitOn_cons_eq_if_modifyHead,
        titleChar_splits hChar, ih fun other hOther => hChars other (List.mem_cons_of_mem _ hOther)]
      by_cases hSplit : char = '_'
      · simp [hSplit]
      · simp [hSplit, titleChar]

theorem slugify_titleOfRef {ref : Ref} (hPattern : matchesSlugPattern ref) :
    slugify (titleOfRef ref) =
      String.ofList (['_'].intercalate ((refParts ref).filter fun part => part ≠ [])) := by
  unfold slugify refParts
  rw [lower_titleOfRef hPattern, splitOnP_map_titleChar (refChars hPattern)]

theorem slugify_of_canonical {ref : Ref} (hPattern : matchesSlugPattern ref)
    (hCanonical : CanonicalRef ref) : slugify (titleOfRef ref) = ref := by
  have hParts : ((refParts ref).filter fun part => part ≠ []) = refParts ref :=
    List.filter_eq_self.mpr fun part hPart => by simpa using hCanonical part hPart
  rw [slugify_titleOfRef hPattern, hParts, refParts, List.intercalate_splitOn, String.ofList_toList]

theorem canonical_slugify {ref : Ref} (hPattern : matchesSlugPattern ref)
    (hSlug : matchesSlugPattern (slugify (titleOfRef ref))) :
    CanonicalRef (slugify (titleOfRef ref)) := by
  rw [slugify_titleOfRef hPattern] at hSlug ⊢
  generalize hParts : ((refParts ref).filter fun part => part ≠ []) = parts at hSlug ⊢
  have hNe : parts ≠ [] := by
    rintro rfl
    simp [matchesSlugPattern] at hSlug
  have hPlain : ∀ part ∈ parts, part ≠ [] ∧ '_' ∉ part := by
    intro part hPart
    rw [← hParts, List.mem_filter] at hPart
    constructor
    · simpa using hPart.2
    · exact Paths.not_mem_of_mem_splitOn hPart.1
  unfold CanonicalRef refParts
  rw [String.toList_ofList, List.splitOn_intercalate '_' (fun part hPart => (hPlain part hPart).2) hNe]
  exact fun part hPart => (hPlain part hPart).1

end Tracecat
