import Mathlib.Data.List.Basic

/-!
# Paths of segments

Texts that join segments with a slash.  A path of segments without slashes has
one reading, so its segments can be compared one by one.
-/

namespace Tracecat
namespace Paths

def join (segments : List String) : String :=
  "/".intercalate segments

theorem join_singleton (segment : String) : join [segment] = segment :=
  String.intercalate_singleton

theorem join_append {first second : List String} (hFirst : first ≠ []) (hSecond : second ≠ []) :
    join (first ++ second) = join first ++ "/" ++ join second :=
  String.intercalate_append_of_ne_nil hFirst hSecond

theorem join_cons {segment : String} {rest : List String} (hRest : rest ≠ []) :
    join (segment :: rest) = segment ++ "/" ++ join rest :=
  String.intercalate_cons_of_ne_nil hRest

theorem splitOn_join {segments : List String} (hNe : segments ≠ [])
    (hPlain : ∀ segment ∈ segments, '/' ∉ segment.toList) :
    (join segments).toList.splitOn '/' = segments.map String.toList := by
  rw [join, String.toList_intercalate]
  apply List.splitOn_intercalate
  · intro chars hChars
    obtain ⟨segment, hSegment, rfl⟩ := List.mem_map.mp hChars
    exact hPlain segment hSegment
  · simpa using hNe

/-- Segments without slashes are read back from the path. -/
theorem join_injective {first second : List String} (hFirst : first ≠ []) (hSecond : second ≠ [])
    (hPlain : ∀ segment ∈ first, '/' ∉ segment.toList)
    (hPlain' : ∀ segment ∈ second, '/' ∉ segment.toList)
    (hJoin : join first = join second) : first = second := by
  have hLists : first.map String.toList = second.map String.toList := by
    rw [← splitOn_join hFirst hPlain, hJoin, splitOn_join hSecond hPlain']
  exact List.map_injective_iff.mpr (fun _ _ hEq => String.toList_injective hEq) hLists

theorem not_mem_of_mem_splitOn {α : Type} [DecidableEq α] {separator : α} {items part : List α}
    (hPart : part ∈ items.splitOn separator) : separator ∉ part := by
  induction items generalizing part with
  | nil =>
      rw [List.splitOn_nil, List.mem_singleton] at hPart
      simp [hPart]
  | cons item items ih =>
      rw [List.splitOn_cons_eq_if_modifyHead] at hPart
      cases hSplit : items.splitOn separator with
      | nil => exact absurd hSplit (List.splitOn_ne_nil separator items)
      | cons first rest =>
          rw [hSplit] at hPart ih
          by_cases hItem : item = separator
          · rw [if_pos (by simpa using hItem)] at hPart
            rcases List.mem_cons.mp hPart with rfl | hPart
            · exact List.not_mem_nil
            · exact ih hPart
          · rw [if_neg (by simpa using hItem), List.modifyHead_cons] at hPart
            rcases List.mem_cons.mp hPart with rfl | hPart
            · rw [List.mem_cons, not_or]
              exact ⟨Ne.symm hItem, ih List.mem_cons_self⟩
            · exact ih (List.mem_cons_of_mem _ hPart)

theorem append_cons_inj {α : Type} (Stop : α → Prop) {first second rest rest' : List α} {a b : α}
    (hFirst : ∀ item ∈ first, ¬ Stop item) (hSecond : ∀ item ∈ second, ¬ Stop item)
    (hStop : Stop a) (hStop' : Stop b) (hEq : first ++ a :: rest = second ++ b :: rest') :
    first = second ∧ a = b ∧ rest = rest' := by
  induction first generalizing second with
  | nil =>
      cases second with
      | nil =>
          obtain ⟨rfl, rfl⟩ := List.cons.inj hEq
          exact ⟨rfl, rfl, rfl⟩
      | cons head tail =>
          obtain ⟨rfl, -⟩ := List.cons.inj hEq
          exact absurd hStop (hSecond a List.mem_cons_self)
  | cons head tail ih =>
      cases second with
      | nil =>
          obtain ⟨rfl, -⟩ := List.cons.inj hEq
          exact absurd hStop' (hFirst head List.mem_cons_self)
      | cons head' tail' =>
          obtain ⟨rfl, hTails⟩ := List.cons.inj hEq
          obtain ⟨rfl, hRest⟩ := ih (fun item hItem => hFirst item (List.mem_cons_of_mem _ hItem))
            (fun item hItem => hSecond item (List.mem_cons_of_mem _ hItem)) hTails
          exact ⟨rfl, hRest⟩

theorem not_mem_toString {char : Char} (hChar : char.isDigit = false) (number : Nat) :
    char ∉ (toString number).toList := by
  intro hMem
  have hDigits : char ∈ Nat.toDigits 10 number := by
    simpa [toString] using hMem
  have hDigit := Nat.isDigit_of_mem_toDigits (by decide) (by decide) hDigits
  rw [hChar] at hDigit
  cases hDigit

theorem toString_injective {first second : Nat} (hEq : toString first = toString second) :
    first = second := by
  have hDigits : Nat.toDigits 10 first = Nat.toDigits 10 second := by
    have hLists := congrArg String.toList hEq
    simpa [toString] using hLists
  rw [← Nat.ofDigitChars_ten_toDigits (n := first), hDigits, Nat.ofDigitChars_ten_toDigits]

end Paths
end Tracecat
