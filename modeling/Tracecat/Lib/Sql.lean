import Mathlib.Data.List.Infix
import Mathlib.Data.List.Sort
import Mathlib.Order.Lex
import Tracecat.Lib.Dict

/-!
# Queries

The part of SQL that a selection uses: truth values with `UNKNOWN`, comparisons
that a `NULL` makes unknown, `WHERE`, `ORDER BY` on a key and `DISTINCT ON`.
A list of rows stands for a table.
-/

namespace Tracecat
namespace Sql

/-- A truth value; `none` is `UNKNOWN`. -/
abbrev Truth : Type := Option Bool

namespace Truth

/-- `a OR b`. -/
def or : Truth → Truth → Truth
  | some true, _ => some true
  | _, some true => some true
  | some false, some false => some false
  | _, _ => none

/-- What `WHERE` keeps. -/
def holds (truth : Truth) : Bool :=
  truth = some true

@[simp] theorem holds_or (first second : Truth) :
    (first.or second).holds = (first.holds || second.holds) := by
  rcases first with _ | _ | _ <;> rcases second with _ | _ | _ <;> rfl

end Truth

section Compare

variable {α : Type} (eq : α → α → Bool)

/-- `a = b`. -/
def equal (first second : Option α) : Truth :=
  match first, second with
  | some first, some second => some (eq first second)
  | _, _ => none

/-- `a IN (...)`, with values that are not null. -/
def isIn (value : Option α) (values : List α) : Truth :=
  values.foldr (fun other truth => (equal eq value (some other)).or truth) (some false)

theorem holds_equal (first second : Option α) :
    (equal eq first second).holds = true ↔
      ∃ a b, first = some a ∧ second = some b ∧ eq a b = true := by
  cases first <;> cases second <;> simp [equal, Truth.holds]

theorem holds_isIn (value : Option α) (values : List α) :
    (isIn eq value values).holds = true ↔
      ∃ a, value = some a ∧ ∃ b ∈ values, eq a b = true := by
  unfold isIn
  induction values with
  | nil => simp [Truth.holds]
  | cons other values ih =>
      rw [List.foldr_cons, Truth.holds_or, Bool.or_eq_true, ih, holds_equal]
      cases value <;> simp

end Compare

/-- `CASE WHEN condition THEN value ELSE default END`. -/
def caseWhen {α : Type} (condition : Truth) (value default : α) : α :=
  if condition.holds then value else default

/-- `EXISTS (SELECT ... WHERE condition)`. -/
def exists? {α : Type} (rows : List α) (condition : α → Truth) : Truth :=
  some (rows.any fun row => (condition row).holds)

theorem holds_exists? {α : Type} (rows : List α) (condition : α → Truth) :
    (exists? rows condition).holds = true ↔ ∃ row ∈ rows, (condition row).holds = true := by
  simp [exists?, Truth.holds]

/-- `WHERE c AND d AND ...`. -/
def where? {α : Type} (conditions : α → List Truth) (rows : List α) : List α :=
  rows.filter fun row => (conditions row).all Truth.holds

/-! ## Order -/

section Order

variable {α κ : Type} [LinearOrder κ] (key : α → κ)

/-- `ORDER BY key`. -/
def orderBy (rows : List α) : List α :=
  rows.insertionSort fun first second => key first ≤ key second

variable {key}

theorem orderBy_perm (rows : List α) : (orderBy key rows).Perm rows :=
  List.perm_insertionSort _ rows

variable (key) in
@[simp] theorem mem_orderBy {rows : List α} {row : α} : row ∈ orderBy key rows ↔ row ∈ rows :=
  (orderBy_perm rows).mem_iff

theorem pairwise_orderBy (rows : List α) :
    (orderBy key rows).Pairwise fun first second => key first ≤ key second := by
  have hTotal : Std.Total fun first second : α => key first ≤ key second :=
    ⟨fun first second => le_total (key first) (key second)⟩
  have hTrans : IsTrans α fun first second => key first ≤ key second :=
    ⟨fun _ _ _ => le_trans⟩
  exact List.pairwise_insertionSort _ rows

variable (key) in
theorem eq_of_pairwise {first second : List α} (hPerm : first.Perm second)
    (hKey : ∀ a ∈ first, ∀ b ∈ first, key a = key b → a = b)
    (hFirst : first.Pairwise fun a b => key a ≤ key b)
    (hSecond : second.Pairwise fun a b => key a ≤ key b) : first = second := by
  apply hPerm.eq_of_pairwise
  · intro a b hA hB hAB hBA
    exact hKey a hA b (hPerm.mem_iff.mpr hB) (le_antisymm hAB hBA)
  · exact hFirst
  · exact hSecond

theorem filter_orderBy {rows : List α} (select : α → Bool)
    (hKey : ∀ a ∈ rows, ∀ b ∈ rows, key a = key b → a = b) :
    (orderBy key rows).filter select = orderBy key (rows.filter select) := by
  have hPerm : ((orderBy key rows).filter select).Perm (orderBy key (rows.filter select)) :=
    ((orderBy_perm rows).filter select).trans (orderBy_perm _).symm
  apply eq_of_pairwise key hPerm
  · intro a hA b hB
    exact hKey a ((mem_orderBy key).mp (List.mem_of_mem_filter hA))
      b ((mem_orderBy key).mp (List.mem_of_mem_filter hB))
  · exact (pairwise_orderBy rows).filter select
  · exact pairwise_orderBy _

theorem orderBy_reverse {κ' : Type} [LinearOrder κ'] {other : α → κ'} {rows : List α}
    (hKey : ∀ a ∈ rows, ∀ b ∈ rows, key a = key b → a = b)
    (hOther : ∀ a ∈ rows, ∀ b ∈ rows, other a ≤ other b ↔ key b ≤ key a) :
    (orderBy other rows).reverse = orderBy key rows := by
  have hPerm : (orderBy other rows).reverse.Perm (orderBy key rows) :=
    ((List.reverse_perm _).trans (orderBy_perm rows)).trans (orderBy_perm rows).symm
  have hMem {a : α} (hA : a ∈ (orderBy other rows).reverse) : a ∈ rows :=
    (mem_orderBy other).mp (List.mem_reverse.mp hA)
  apply eq_of_pairwise key hPerm
  · intro a hA b hB
    exact hKey a (hMem hA) b (hMem hB)
  · rw [List.pairwise_reverse]
    apply (pairwise_orderBy rows).imp_of_mem
    intro a b hA hB hLe
    exact (hOther a ((mem_orderBy other).mp hA) b ((mem_orderBy other).mp hB)).mp hLe
  · exact pairwise_orderBy rows

end Order

/-! ## One row for each key -/

section Distinct

variable {α κ : Type} [DecidableEq κ] (key : α → κ)

/-- The rows whose key has not been seen, the first of each key. -/
def distinctFrom : List κ → List α → List α
  | _, [] => []
  | seen, row :: rows =>
      if key row ∈ seen then distinctFrom seen rows
      else row :: distinctFrom (key row :: seen) rows

/-- `DISTINCT ON (key)`: the first row of each key. -/
def distinctOn (rows : List α) : List α :=
  distinctFrom key [] rows

def byKey {β : Type} (value : α → β) (rows : List α) : Dict κ β :=
  rows.foldl (fun dict row => dict.insert (key row) (value row)) ∅

variable {key}

theorem key_notMem_of_mem_distinctFrom {seen : List κ} {rows : List α} {row : α}
    (hRow : row ∈ distinctFrom key seen rows) : key row ∉ seen := by
  induction rows generalizing seen with
  | nil => cases hRow
  | cons first rows ih =>
      unfold distinctFrom at hRow
      by_cases hSeen : key first ∈ seen
      · rw [if_pos hSeen] at hRow
        exact ih hRow
      · rw [if_neg hSeen] at hRow
        rcases List.mem_cons.mp hRow with rfl | hRow
        · exact hSeen
        · exact fun hMem => ih hRow (List.mem_cons_of_mem _ hMem)

theorem nodup_distinctFrom (seen : List κ) (rows : List α) :
    ((distinctFrom key seen rows).map key).Nodup := by
  induction rows generalizing seen with
  | nil => exact List.nodup_nil
  | cons first rows ih =>
      unfold distinctFrom
      by_cases hSeen : key first ∈ seen
      · rw [if_pos hSeen]
        exact ih seen
      · rw [if_neg hSeen, List.map_cons, List.nodup_cons]
        refine ⟨fun hMem => ?_, ih _⟩
        obtain ⟨row, hRow, hKey⟩ := List.mem_map.mp hMem
        exact key_notMem_of_mem_distinctFrom hRow (hKey ▸ List.mem_cons_self)

theorem find?_distinctFrom {seen : List κ} {rows : List α} {k : κ} (hKey : k ∉ seen) :
    (distinctFrom key seen rows).find? (fun row => key row = k) =
      rows.find? fun row => key row = k := by
  induction rows generalizing seen with
  | nil => rfl
  | cons first rows ih =>
      unfold distinctFrom
      by_cases hFirst : key first = k
      · rw [if_neg (hFirst ▸ hKey), List.find?_cons_of_pos (by simpa using hFirst),
          List.find?_cons_of_pos (by simpa using hFirst)]
      · rw [List.find?_cons_of_neg (by simpa using hFirst)]
        by_cases hSeen : key first ∈ seen
        · rw [if_pos hSeen]
          exact ih hKey
        · rw [if_neg hSeen, List.find?_cons_of_neg (by simpa using hFirst)]
          refine ih ?_
          rw [List.mem_cons, not_or]
          exact ⟨Ne.symm hFirst, hKey⟩

theorem lookup_byKey_distinctOn {β : Type} (value : α → β) (rows : List α) (k : κ) :
    (byKey key value (distinctOn key rows)).lookup k =
      (rows.find? fun row => key row = k).map value := by
  rw [← find?_distinctFrom (List.not_mem_nil (a := k))]
  have hNodup : ((distinctFrom key [] rows).map key).Nodup := nodup_distinctFrom [] rows
  unfold byKey distinctOn
  cases hFound : (distinctFrom key [] rows).find? fun row => key row = k with
  | none =>
      have hNone := List.find?_eq_none.mp hFound
      apply Dict.lookup_foldl_insert_of_not_mem
      intro hMem
      obtain ⟨row, hRow, hKey⟩ := List.mem_map.mp hMem
      exact hNone row hRow (by simpa using hKey)
  | some row =>
      have hRow := List.mem_of_find?_eq_some hFound
      have hKey : key row = k := by simpa using List.find?_some hFound
      rw [← hKey]
      exact Dict.lookup_foldl_insert_of_mem key value _ ∅ hNodup hRow

theorem mem_distinctOn_id {rows : List κ} {row : κ} : row ∈ distinctOn id rows ↔ row ∈ rows := by
  have hFind : (distinctFrom id [] rows).find? (fun other => id other = row) =
      rows.find? fun other => id other = row := find?_distinctFrom List.not_mem_nil
  have hMem (rows : List κ) : row ∈ rows ↔ (rows.find? fun other => id other = row).isSome := by
    rw [List.find?_isSome]
    simp
  unfold distinctOn
  rw [hMem, hFind, ← hMem]

end Distinct

section Like

/-- What an element of a pattern matches: a character, any character or any
text. -/
inductive LikeToken
  | literal (char : Char)
  | one
  | any
  deriving DecidableEq, Repr

/-- The elements of a pattern of `LIKE ... ESCAPE escape`, read after an escape
character or not. -/
def likeTokens (escape : Char) : Bool → List Char → List LikeToken
  | _, [] => []
  | true, char :: pattern => .literal char :: likeTokens escape false pattern
  | false, char :: pattern =>
      if char = escape then likeTokens escape true pattern
      else if char = '%' then .any :: likeTokens escape false pattern
      else if char = '_' then .one :: likeTokens escape false pattern
      else .literal char :: likeTokens escape false pattern

/-- The elements match the text from end to end. -/
def matchTokens : List LikeToken → List Char → Bool
  | [], text => text.isEmpty
  | .any :: tokens, text => text.tails.any fun rest => matchTokens tokens rest
  | .one :: tokens, _ :: text => matchTokens tokens text
  | .literal char :: tokens, first :: text => first = char && matchTokens tokens text
  | .one :: _, [] => false
  | .literal _ :: _, [] => false

/-- `text LIKE pattern ESCAPE escape`. -/
def like (escape : Char) (pattern text : List Char) : Bool :=
  matchTokens (likeTokens escape false pattern) text

/-- The characters of a literal, with the escape character before each that has
a meaning in a pattern. -/
def escapeLike (escape : Char) (literal : List Char) : List Char :=
  literal.flatMap fun char =>
    if char = escape ∨ char = '%' ∨ char = '_' then [escape, char] else [char]

/-- `column.startswith(literal, autoescape=True)`: the escape character is a
slash. -/
def startsWith (literal text : List Char) : Bool :=
  like '/' (escapeLike '/' literal ++ ['%']) text

theorem likeTokens_escapeLike (escape : Char) (literal pattern : List Char) :
    likeTokens escape false (escapeLike escape literal ++ pattern) =
      literal.map .literal ++ likeTokens escape false pattern := by
  unfold escapeLike
  induction literal with
  | nil => rfl
  | cons char literal ih =>
      rw [List.flatMap_cons, List.map_cons, List.cons_append, ← ih]
      by_cases hMeant : char = escape ∨ char = '%' ∨ char = '_'
      · simp [hMeant, likeTokens]
      · rw [if_neg hMeant]
        rw [not_or, not_or] at hMeant
        simp [hMeant, likeTokens]

theorem matchTokens_literal_append (literal : List Char) (tokens : List LikeToken)
    (text : List Char) :
    matchTokens (literal.map .literal ++ tokens) text = true ↔
      ∃ rest, text = literal ++ rest ∧ matchTokens tokens rest = true := by
  induction literal generalizing text with
  | nil => simp
  | cons char literal ih =>
      rw [List.map_cons, List.cons_append]
      cases text with
      | nil => simp [matchTokens]
      | cons first text =>
          rw [matchTokens, Bool.and_eq_true, ih, decide_eq_true_eq]
          constructor
          · rintro ⟨rfl, rest, rfl, hRest⟩
            exact ⟨rest, rfl, hRest⟩
          · rintro ⟨rest, hText, hRest⟩
            obtain ⟨rfl, rfl⟩ := List.cons.inj hText
            exact ⟨rfl, rest, rfl, hRest⟩

theorem startsWith_iff (literal text : List Char) :
    startsWith literal text = true ↔ literal <+: text := by
  have hAny : ∀ rest, matchTokens (likeTokens '/' false ['%']) rest = true := by
    intro rest
    show (rest.tails.any fun rest => matchTokens [] rest) = true
    rw [List.any_eq_true]
    exact ⟨[], (List.mem_tails [] rest).mpr List.nil_suffix, rfl⟩
  unfold startsWith like
  rw [likeTokens_escapeLike, matchTokens_literal_append]
  constructor
  · rintro ⟨rest, rfl, -⟩
    exact List.prefix_append _ _
  · rintro ⟨rest, rfl⟩
    exact ⟨rest, rfl, hAny rest⟩

/-- What follows `%` may match the rest of the text after any beginning. -/
theorem matchTokens_any {tokens : List LikeToken} {text : List Char}
    (hMatch : matchTokens tokens text = true) (before : List Char) :
    matchTokens (.any :: tokens) (before ++ text) = true := by
  rw [matchTokens, List.any_eq_true]
  exact ⟨text, (List.mem_tails text _).mpr (List.suffix_append before text), hMatch⟩

/-- A beginning without the escape character matches itself: `%` and `_` match
themselves too. -/
theorem matchTokens_self {escape : Char} {literal pattern text : List Char}
    (hPlain : escape ∉ literal)
    (hMatch : matchTokens (likeTokens escape false pattern) text = true) :
    matchTokens (likeTokens escape false (literal ++ pattern)) (literal ++ text) = true := by
  induction literal with
  | nil => exact hMatch
  | cons char literal ih =>
      obtain ⟨hChar, hRest⟩ := not_or.mp (List.mem_cons.not.mp hPlain)
      have hTail := ih hRest
      rw [List.cons_append, List.cons_append, likeTokens, if_neg (Ne.symm hChar)]
      split
      · exact matchTokens_any hTail [char]
      · split
        · exact hTail
        · rw [matchTokens, hTail, decide_eq_true rfl]
          rfl

theorem count_literal_le {tokens : List LikeToken} {text : List Char} (char : Char)
    (hMatch : matchTokens tokens text = true) : tokens.count (.literal char) ≤ text.count char := by
  induction tokens generalizing text with
  | nil => exact Nat.zero_le _
  | cons token tokens ih =>
      cases token with
      | any =>
          obtain ⟨rest, hRest, hTokens⟩ := List.any_eq_true.mp hMatch
          rw [List.count_cons_of_ne (by simp)]
          exact (ih hTokens).trans
            (((List.mem_tails rest text).mp hRest).sublist.count_le char)
      | one =>
          cases text with
          | nil => cases hMatch
          | cons first text =>
              rw [List.count_cons_of_ne (by simp)]
              exact (ih hMatch).trans ((List.sublist_cons_self first text).count_le char)
      | literal other =>
          cases text with
          | nil => cases hMatch
          | cons first text =>
              rw [matchTokens, Bool.and_eq_true, decide_eq_true_eq] at hMatch
              obtain ⟨rfl, hRest⟩ := hMatch
              rw [List.count_cons, List.count_cons]
              have hLe := ih hRest
              by_cases hFirst : first = char
              · simpa [hFirst] using hLe
              · simpa [hFirst] using hLe

/-- A character without a meaning in patterns is taken literally wherever it stands. -/
theorem count_likeTokens {escape char : Char} (hEscape : char ≠ escape) (hAny : char ≠ '%')
    (hOne : char ≠ '_') (escaped : Bool) (pattern : List Char) :
    (likeTokens escape escaped pattern).count (.literal char) = pattern.count char := by
  induction pattern generalizing escaped with
  | nil => cases escaped <;> rfl
  | cons first pattern ih =>
      cases escaped with
      | true =>
          rw [likeTokens, List.count_cons, List.count_cons, ih]
          by_cases hFirst : first = char <;> simp [hFirst]
      | false =>
          rw [likeTokens]
          split
          · rename_i hMeant
            rw [ih, List.count_cons_of_ne (hMeant ▸ hEscape.symm)]
          · split
            · rename_i hMeant
              rw [List.count_cons_of_ne (by simp), ih,
                List.count_cons_of_ne (hMeant ▸ hAny.symm)]
            · split
              · rename_i hMeant
                rw [List.count_cons_of_ne (by simp), ih,
                  List.count_cons_of_ne (hMeant ▸ hOne.symm)]
              · rw [List.count_cons, List.count_cons, ih]
                by_cases hFirst : first = char <;> simp [hFirst]

end Like

/-! ## Outer joins -/

/-- `rows LEFT OUTER JOIN table ON condition`. -/
def outerJoin {α β : Type} (rows : List α) (table : List β) (condition : α → β → Bool) :
    List (α × Option β) :=
  rows.flatMap fun row =>
    match table.filter (condition row) with
    | [] => [(row, none)]
    | partners => partners.map fun partner => (row, some partner)

theorem mem_outerJoin {α β : Type} {rows : List α} {table : List β} {condition : α → β → Bool}
    {row : α} : (∃ partner, (row, partner) ∈ outerJoin rows table condition) ↔ row ∈ rows := by
  simp only [outerJoin, List.mem_flatMap]
  constructor
  · rintro ⟨partner, other, hOther, hMem⟩
    split at hMem
    · cases List.mem_singleton.mp hMem
      exact hOther
    · obtain ⟨_, -, hEq⟩ := List.mem_map.mp hMem
      cases hEq
      exact hOther
  · intro hRow
    cases hPartners : table.filter (condition row) with
    | nil => exact ⟨none, row, hRow, by rw [hPartners]; exact List.mem_singleton_self _⟩
    | cons partner partners =>
        refine ⟨some partner, row, hRow, ?_⟩
        rw [hPartners]
        exact List.mem_map_of_mem List.mem_cons_self

end Sql
end Tracecat
