import Tracecat.Lib.Decimals
import Tracecat.Storage.Keys
import Tracecat.Workflow.Folders

/-!
# Stream identifiers as text

`StreamID` (`dsl/schemas.py`) is a string, `scatter_1:2/scatter_2:0`, and `_stream_within`
(`dsl/scheduler.py`) compares strings.  The operations on the string, and what they say of the
tree of streams.
-/

namespace Tracecat

/-- `int | SkipToken`. -/
inductive SegmentIndex
  | int (value : ℤ)
  | skip
  deriving DecidableEq, Repr

def SegmentIndex.ofIndex : StreamIndex → SegmentIndex
  | .item index => .int index
  | .skip => .skip

/-- The `ValueError`s of `StreamID`. -/
inductive StreamTextError
  /-- `str` of an integer with more digits than the limit -/
  | tooManyDigits
  /-- "not enough values to unpack (expected at least 2, got 1)" -/
  | notEnoughValues
  /-- "Invalid stream ID: ..." -/
  | invalidStreamId (stream : String)
  /-- `int(index)` -/
  | invalidLiteral (index : String)
  deriving DecidableEq, Repr

namespace StreamText

/-- `f"{index}"`. -/
def indexText : SegmentIndex → Except StreamTextError String
  | .int value =>
      if (Numerals.digitsOf value.natAbs).length ≤ Numerals.maxIntDigits then .ok (toString value)
      else .error .tooManyDigits
  | .skip => .ok "skip"

/-- `StreamID.new`. -/
def new (scope : String) (index : SegmentIndex) (baseStreamId : Option String) :
    Except StreamTextError String := do
  let text ← indexText index
  let newStream := scope ++ ":" ++ text
  match baseStreamId with
  | none => return newStream
  | some baseStreamId => return baseStreamId ++ "/" ++ newStream

/-- `StreamID.skip`. -/
def skip (scope : String) (baseStreamId : Option String) : Except StreamTextError String :=
  new scope .skip baseStreamId

/-- `StreamID.streams`. -/
def streams (stream : String) : List String :=
  (stream.toList.splitOn '/').map String.ofList

section Leaf

variable (unicodeDigit : Char → Option (Fin 10))

/-- `int(text)`, where `unicodeDigit` is the digit of a character that is not in ASCII. -/
def readInt (text : String) : Except StreamTextError ℤ :=
  match Numerals.readInt ((Folders.strip text.toList).map (Numerals.mark unicodeDigit)) with
  | some value => .ok value
  | none => .error (.invalidLiteral text)

/-- `StreamID.leaf`; `split` always returns a last segment. -/
def leaf (stream : String) : Except StreamTextError (String × SegmentIndex) :=
  match (((streams stream).getLast?.getD "").toList.splitOn ':').map String.ofList with
  | [scope, index] =>
      if index = "skip" then .ok (scope, .skip)
      else (readInt unicodeDigit index).map fun value => (scope, .int value)
  | _ :: _ :: _ => .error (.invalidStreamId stream)
  | _ => .error .notEnoughValues

end Leaf

/-- `_stream_within`. -/
def streamWithin (streamId baseStreamId : String) : Bool :=
  streamId = baseStreamId || (baseStreamId ++ "/").toList.isPrefixOf streamId.toList

/-! ## One segment -/

/-- What stands before the last segment. -/
def front : Option String → List Char
  | none => []
  | some base => base.toList ++ ['/']

theorem new_eq_ok {scope text : String} {index : SegmentIndex} {base : Option String} :
    new scope index base = .ok text ↔ ∃ number, indexText index = .ok number ∧
      text.toList = front base ++ (scope.toList ++ ':' :: number.toList) := by
  unfold new
  cases hIndex : indexText index with
  | error error =>
      constructor
      · intro hOk
        cases hOk
      · rintro ⟨number, hOk, -⟩
        cases hOk
  | ok number =>
      have hText (other : String)
          (hOther : other.toList = front base ++ (scope.toList ++ ':' :: number.toList)) :
          (.ok other : Except StreamTextError String) = .ok text ↔
            ∃ written, (.ok number : Except StreamTextError String) = .ok written ∧
              text.toList = front base ++ (scope.toList ++ ':' :: written.toList) := by
        constructor
        · intro hOk
          cases hOk
          exact ⟨number, rfl, hOther⟩
        · rintro ⟨written, hOk, hSame⟩
          cases hOk
          rw [String.toList_injective (hOther.trans hSame.symm)]
      cases base with
      | none => exact hText _ (by simp [front])
      | some base => exact hText _ (by simp [front])

theorem not_mem_indexText {index : SegmentIndex} {number : String}
    (hText : indexText index = .ok number) {char : Char} (hChar : char = '/' ∨ char = ':') :
    char ∉ number.toList := by
  cases index with
  | skip =>
      cases hText
      rcases hChar with rfl | rfl <;> decide
  | int value =>
      unfold indexText at hText
      dsimp only at hText
      split at hText
      · cases hText
        rw [Numerals.toList_toString_int]
        intro hMem
        obtain ⟨it, hIt, rfl⟩ := List.mem_map.mp hMem
        cases Numerals.written_intMarks hIt with
        | digit value =>
            revert hChar
            fin_cases value <;> decide
        | point | plus | minus | exponent =>
            revert hChar
            decide
      · cases hText

theorem indexText_ne_skip {value : ℤ} : toString value ≠ "skip" := by
  intro hEq
  have hMem : 's' ∈ (toString value).toList := by
    rw [hEq]
    decide
  rw [Numerals.toList_toString_int] at hMem
  obtain ⟨it, hIt, hChar⟩ := List.mem_map.mp hMem
  cases Numerals.written_intMarks hIt with
  | digit value =>
      revert hChar
      fin_cases value <;> decide
  | point | plus | minus | exponent =>
      revert hChar
      decide

theorem indexText_injective {first second : SegmentIndex} {text : String}
    (hFirst : indexText first = .ok text) (hSecond : indexText second = .ok text) :
    first = second := by
  have hInt {value : ℤ} (hText : indexText (.int value) = .ok text) :
      toString value = text ∧ (Numerals.digitsOf value.natAbs).length ≤ Numerals.maxIntDigits := by
    unfold indexText at hText
    dsimp only at hText
    split at hText
    · next hDigits => exact ⟨Except.ok.inj hText, hDigits⟩
    · cases hText
  cases first with
  | skip =>
      cases second with
      | skip => rfl
      | int value => exact absurd ((hInt hSecond).1.trans (Except.ok.inj hFirst).symm) indexText_ne_skip
  | int value =>
      obtain ⟨hText, hDigits⟩ := hInt hFirst
      cases second with
      | skip => exact absurd (hText.trans (Except.ok.inj hSecond).symm) indexText_ne_skip
      | int other =>
          obtain ⟨hOther, hOtherDigits⟩ := hInt hSecond
          have hRead := Numerals.readInt_toString (fun _ => none) hDigits
          rw [hText, ← hOther, Numerals.readInt_toString _ hOtherDigits] at hRead
          rw [Option.some.inj hRead]

/-! ## The last segment is read back -/

section Segment

variable {scope scope' text : String} {index index' : SegmentIndex} {base base' : Option String}

theorem front_append_inj (hScope : IsSlug scope) (hScope' : IsSlug scope')
    (hEq : front base ++ scope.toList = front base' ++ scope'.toList) :
    base = base' ∧ scope = scope' := by
  have hReversed : scope.toList.reverse ++ (front base).reverse =
      scope'.toList.reverse ++ (front base').reverse := by
    rw [← List.reverse_append, ← List.reverse_append, hEq]
  have hPlain {slug : String} (hSlug : IsSlug slug) :
      ∀ char ∈ slug.toList.reverse, ¬ char = '/' := by
    rintro char hChar rfl
    exact hSlug.slash_not_mem (List.mem_reverse.mp hChar)
  have hSlash {slug : String} (hSlug : IsSlug slug) {before after : List Char} :
      slug.toList.reverse ++ [] ≠ before ++ '/' :: after := by
    intro hSame
    refine hPlain hSlug '/' ?_ rfl
    rw [List.append_nil] at hSame
    rw [hSame]
    exact List.mem_append_right _ List.mem_cons_self
  cases base with
  | none =>
      cases base' with
      | none => exact ⟨rfl, String.toList_injective hEq⟩
      | some base' =>
          simp only [front, List.reverse_append, List.reverse_nil, List.reverse_singleton,
            List.singleton_append] at hReversed
          exact absurd hReversed (hSlash hScope)
  | some base =>
      cases base' with
      | none =>
          simp only [front, List.reverse_append, List.reverse_nil, List.reverse_singleton,
            List.singleton_append] at hReversed
          exact absurd hReversed.symm (hSlash hScope')
      | some base' =>
          simp only [front, List.reverse_append, List.reverse_singleton,
            List.singleton_append] at hReversed
          obtain ⟨hScopes, -, hBases⟩ := Paths.append_cons_inj (· = '/')
            (hPlain hScope) (hPlain hScope') rfl rfl hReversed
          rw [String.toList_injective (List.reverse_injective hScopes),
            String.toList_injective (List.reverse_injective hBases)]
          exact ⟨rfl, rfl⟩

/-- A base, a slug and an index make a stream of their own. -/
theorem new_injective (hScope : IsSlug scope) (hScope' : IsSlug scope')
    (hNew : new scope index base = .ok text) (hNew' : new scope' index' base' = .ok text) :
    base = base' ∧ scope = scope' ∧ index = index' := by
  obtain ⟨number, hNumber, hText⟩ := new_eq_ok.mp hNew
  obtain ⟨number', hNumber', hText'⟩ := new_eq_ok.mp hNew'
  rw [hText, ← List.append_assoc, ← List.append_assoc] at hText'
  -- the last colon ends the scope
  have hReversed : number.toList.reverse ++ ':' :: (front base ++ scope.toList).reverse =
      number'.toList.reverse ++ ':' :: (front base' ++ scope'.toList).reverse := by
    have hLists := congrArg List.reverse hText'
    simpa using hLists
  have hPlain {index : SegmentIndex} {number : String} (hOk : indexText index = .ok number) :
      ∀ char ∈ number.toList.reverse, ¬ char = ':' := by
    rintro char hChar rfl
    exact not_mem_indexText hOk (Or.inr rfl) (List.mem_reverse.mp hChar)
  obtain ⟨hNumbers, -, hFronts⟩ := Paths.append_cons_inj (· = ':')
    (hPlain hNumber) (hPlain hNumber') rfl rfl hReversed
  obtain ⟨hBases, hScopes⟩ := front_append_inj hScope hScope' (List.reverse_injective hFronts)
  rw [← String.toList_injective (List.reverse_injective hNumbers)] at hNumber'
  exact ⟨hBases, hScopes, indexText_injective hNumber hNumber'⟩

theorem getLast?_streams {segment : List Char} (hPlain : '/' ∉ segment)
    (hText : text.toList = front base ++ segment) :
    (streams text).getLast? = some (String.ofList segment) := by
  unfold streams
  rw [hText, List.getLast?_map]
  cases base with
  | none =>
      show ((segment.splitOn '/').getLast?).map String.ofList = _
      rw [List.splitOn_eq_singleton hPlain]
      rfl
  | some base =>
      simp only [front, List.append_assoc, List.singleton_append]
      rw [List.splitOn_append_cons_self, List.splitOn_eq_singleton hPlain,
        List.getLast?_concat]
      rfl

/-- `leaf` returns what the stream was built with, when the scope holds no separator. -/
theorem leaf_new (unicodeDigit : Char → Option (Fin 10))
    (hPlain : ∀ char, char = '/' ∨ char = ':' → char ∉ scope.toList)
    (hNew : new scope index base = .ok text) :
    leaf unicodeDigit text = .ok (scope, index) := by
  obtain ⟨number, hNumber, hText⟩ := new_eq_ok.mp hNew
  have hSegment : '/' ∉ scope.toList ++ ':' :: number.toList := by
    rw [List.mem_append, List.mem_cons, not_or, not_or]
    exact ⟨hPlain _ (Or.inl rfl), by decide, not_mem_indexText hNumber (Or.inl rfl)⟩
  have hSplit : (scope.toList ++ ':' :: number.toList).splitOn ':' =
      [scope.toList, number.toList] := by
    rw [List.splitOn_append_cons_self, List.splitOn_eq_singleton (hPlain _ (Or.inr rfl)),
      List.splitOn_eq_singleton (not_mem_indexText hNumber (Or.inr rfl))]
    rfl
  unfold leaf
  rw [getLast?_streams hSegment hText, Option.getD_some, String.toList_ofList, hSplit,
    List.map_cons, List.map_cons, List.map_nil, String.ofList_toList, String.ofList_toList]
  dsimp only
  cases index with
  | skip =>
      cases hNumber
      exact if_pos rfl
  | int value =>
      unfold indexText at hNumber
      dsimp only at hNumber
      split at hNumber
      · next hDigits =>
          have hVisible : ∀ char ∈ (toString value).toList, Folders.isSpace char = false := by
            rw [Numerals.toList_toString_int]
            intro char hChar
            obtain ⟨it, hIt, rfl⟩ := List.mem_map.mp hChar
            cases Numerals.written_intMarks hIt with
            | digit digit => fin_cases digit <;> rfl
            | point | plus | minus | exponent => rfl
          cases hNumber
          rw [if_neg indexText_ne_skip, readInt, Folders.strip_of_visible hVisible,
            Numerals.readInt_toString _ hDigits]
          rfl
      · cases hNumber

end Segment

/-! ## Streams within a stream -/

theorem streamWithin_join {segments base : List String} (hSegments : segments ≠ [])
    (hBase : base ≠ []) (hPlain : ∀ segment ∈ segments, '/' ∉ segment.toList)
    (hPlain' : ∀ segment ∈ base, '/' ∉ segment.toList) :
    streamWithin (Paths.join segments) (Paths.join base) = true ↔ base <+: segments := by
  unfold streamWithin
  rw [Bool.or_eq_true, decide_eq_true_eq, List.isPrefixOf_iff_prefix]
  constructor
  · rintro (hSame | ⟨rest, hRest⟩)
    · rw [Paths.join_injective hSegments hBase hPlain hPlain' hSame]
    · -- cut at the slashes, the base is the beginning of the segments
      have hSplit : segments.map String.toList = base.map String.toList ++ rest.splitOn '/' := by
        rw [← Paths.splitOn_join hSegments hPlain, ← hRest, String.toList_append,
          ← Paths.splitOn_join hBase hPlain']
        show ((_ ++ ['/']) ++ rest).splitOn '/' = _
        rw [List.append_assoc, List.singleton_append, List.splitOn_append_cons_self]
      have hPrefix : base.map String.toList <+: segments.map String.toList := ⟨_, hSplit.symm⟩
      exact (List.prefix_map_iff_of_injective fun _ _ hEq => String.toList_injective hEq).mp hPrefix
  · rintro ⟨rest, rfl⟩
    by_cases hRest : rest = []
    · rw [hRest, List.append_nil]
      exact Or.inl rfl
    · right
      rw [Paths.join_append hBase hRest]
      exact ⟨(Paths.join rest).toList, String.toList_append.symm⟩

end StreamText
end Tracecat
