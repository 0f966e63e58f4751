import Mathlib.Data.List.Sort
import Mathlib.Data.String.Basic
import Mathlib.Tactic.NormNum
import Tracecat.Lib.Leaves

/-!
# The text of JSON documents

A document as one line of text in which only printable ASCII occurs: escaped strings,
`", "` between the parts of a container, `": "` after a key, and entries in the order
of their keys.  No two documents whose entries are in that order have one text.
-/

namespace Tracecat
namespace JsonText

variable {α : Type}

/-! ## Strings -/

def hexDigits : List Char :=
  ['0', '1', '2', '3', '4', '5', '6', '7', '8', '9', 'a', 'b', 'c', 'd', 'e', 'f']

def hexDigit (digit : Nat) : Char := hexDigits.getD digit '0'

def unicodeEscape (unit : Nat) : List Char :=
  ['\\', 'u', hexDigit (unit / 4096 % 16), hexDigit (unit / 256 % 16), hexDigit (unit / 16 % 16),
    hexDigit (unit % 16)]

/-- A character inside a string; beyond the basic plane it is two code units. -/
def escapeChar (char : Char) : List Char :=
  if char = '"' then ['\\', '"']
  else if char = '\\' then ['\\', '\\']
  else if char = '\n' then ['\\', 'n']
  else if char = '\r' then ['\\', 'r']
  else if char = '\t' then ['\\', 't']
  else if char = '\x0c' then ['\\', 'f']
  else if char = '\x08' then ['\\', 'b']
  else if ' ' ≤ char ∧ char ≤ '~' then [char]
  else if char.toNat < 65536 then unicodeEscape char.toNat
  else
    unicodeEscape (55296 + (char.toNat - 65536) / 1024) ++
      unicodeEscape (56320 + (char.toNat - 65536) % 1024)

def quote (text : String) : List Char :=
  '"' :: (text.toList.flatMap escapeChar ++ ['"'])

/-! ### Reading a character -/

def hexNumber (a b c d : Char) : Nat :=
  ((hexDigits.idxOf a * 16 + hexDigits.idxOf b) * 16 + hexDigits.idxOf c) * 16 + hexDigits.idxOf d

/-- The second unit of a pair. -/
def readLow (high : Nat) : List Char → Option (Nat × List Char)
  | '\\' :: 'u' :: a :: b :: c :: d :: rest =>
      some (65536 + (high - 55296) * 1024 + (hexNumber a b c d - 56320), rest)
  | _ => none

/-- The code point at the head of the inside of a string. -/
def readChar : List Char → Option (Nat × List Char)
  | '\\' :: 'u' :: a :: b :: c :: d :: rest =>
      if 55296 ≤ hexNumber a b c d ∧ hexNumber a b c d < 56320 then
        readLow (hexNumber a b c d) rest
      else some (hexNumber a b c d, rest)
  | '\\' :: 'n' :: rest => some ('\n'.toNat, rest)
  | '\\' :: 'r' :: rest => some ('\r'.toNat, rest)
  | '\\' :: 't' :: rest => some ('\t'.toNat, rest)
  | '\\' :: 'f' :: rest => some ('\x0c'.toNat, rest)
  | '\\' :: 'b' :: rest => some ('\x08'.toNat, rest)
  | '\\' :: char :: rest => some (char.toNat, rest)
  | char :: rest => some (char.toNat, rest)
  | [] => none

theorem idxOf_hexDigit {digit : Nat} (hDigit : digit < 16) :
    hexDigits.idxOf (hexDigit digit) = digit := by
  have hAll : ∀ place : Fin 16, hexDigits.idxOf (hexDigit place.val) = place.val := by decide
  exact hAll ⟨digit, hDigit⟩

theorem hexNumber_unit {unit : Nat} (hUnit : unit < 65536) :
    hexNumber (hexDigit (unit / 4096 % 16)) (hexDigit (unit / 256 % 16))
      (hexDigit (unit / 16 % 16)) (hexDigit (unit % 16)) = unit := by
  unfold hexNumber
  rw [idxOf_hexDigit (by omega), idxOf_hexDigit (by omega), idxOf_hexDigit (by omega),
    idxOf_hexDigit (by omega)]
  omega

/-- No character lies between the code units that come in pairs. -/
theorem toNat_cases (char : Char) : char.toNat < 55296 ∨ 57343 < char.toNat ∧ char.toNat < 1114112 :=
  char.valid

theorem readChar_unit {unit : Nat} (hUnit : unit < 65536) (rest : List Char) :
    readChar (unicodeEscape unit ++ rest) =
      if 55296 ≤ unit ∧ unit < 56320 then readLow unit rest else some (unit, rest) := by
  unfold unicodeEscape
  simp only [List.cons_append, List.nil_append]
  rw [readChar, hexNumber_unit hUnit]

theorem readLow_unit {high low : Nat} (hLow : low < 65536) (rest : List Char) :
    readLow high (unicodeEscape low ++ rest) =
      some (65536 + (high - 55296) * 1024 + (low - 56320), rest) := by
  unfold unicodeEscape
  simp only [List.cons_append, List.nil_append]
  rw [readLow, hexNumber_unit hLow]

theorem readChar_escapeChar (char : Char) (rest : List Char) :
    readChar (escapeChar char ++ rest) = some (char.toNat, rest) := by
  unfold escapeChar
  split
  · rename_i hChar; rw [hChar]; rfl
  split
  · rename_i hChar; rw [hChar]; rfl
  split
  · rename_i hChar; rw [hChar]; rfl
  split
  · rename_i hChar; rw [hChar]; rfl
  split
  · rename_i hChar; rw [hChar]; rfl
  split
  · rename_i hChar; rw [hChar]; rfl
  split
  · rename_i hChar; rw [hChar]; rfl
  rename_i hBackslash _ _ _ _ _
  split
  · rw [List.singleton_append]
    -- a character that stands for itself is no backslash
    unfold readChar
    split <;> simp_all
  have hValid := toNat_cases char
  split
  · rename_i hBasic
    rw [readChar_unit hBasic, if_neg (by omega)]
  · rename_i hBeyond
    have hCode : 65536 + (55296 + (char.toNat - 65536) / 1024 - 55296) * 1024 +
        (56320 + (char.toNat - 65536) % 1024 - 56320) = char.toNat := by omega
    rw [List.append_assoc, readChar_unit (by omega), if_pos (by omega), readLow_unit (by omega),
      hCode]

/-- No escaped character begins with the quote that ends a string. -/
theorem escapeChar_lead (char : Char) :
    ∃ first rest, escapeChar char = first :: rest ∧ first ≠ '"' := by
  unfold escapeChar
  split
  · exact ⟨_, _, rfl, by decide⟩
  rename_i hQuote
  split
  · exact ⟨_, _, rfl, by decide⟩
  split
  · exact ⟨_, _, rfl, by decide⟩
  split
  · exact ⟨_, _, rfl, by decide⟩
  split
  · exact ⟨_, _, rfl, by decide⟩
  split
  · exact ⟨_, _, rfl, by decide⟩
  split
  · exact ⟨_, _, rfl, by decide⟩
  split
  · exact ⟨_, _, rfl, hQuote⟩
  split
  · exact ⟨_, _, rfl, by decide⟩
  · exact ⟨_, _, rfl, by decide⟩

theorem flatMap_escapeChar_inj {first second : List Char} {r s : List Char}
    (hSame : first.flatMap escapeChar ++ '"' :: r = second.flatMap escapeChar ++ '"' :: s) :
    first = second ∧ r = s := by
  induction first generalizing second with
  | nil =>
      cases second with
      | nil => exact ⟨rfl, (List.cons.inj hSame).2⟩
      | cons char second =>
          obtain ⟨lead, rest, hLead, hNe⟩ := escapeChar_lead char
          rw [List.flatMap_cons, hLead] at hSame
          exact absurd (List.cons.inj hSame).1.symm hNe
  | cons char first ih =>
      cases second with
      | nil =>
          obtain ⟨lead, rest, hLead, hNe⟩ := escapeChar_lead char
          rw [List.flatMap_cons, hLead] at hSame
          exact absurd (List.cons.inj hSame).1 hNe
      | cons other second =>
          rw [List.flatMap_cons, List.flatMap_cons, List.append_assoc, List.append_assoc] at hSame
          have hRead := congrArg readChar hSame
          rw [readChar_escapeChar, readChar_escapeChar] at hRead
          obtain ⟨hCode, hRest⟩ := Prod.mk.inj (Option.some.inj hRead)
          obtain ⟨rfl, hEnd⟩ := ih hRest
          exact ⟨by rw [Char.toNat_inj.mp hCode], hEnd⟩

/-- A string is told from what follows it. -/
theorem quote_append_inj {first second : String} {r s : List Char}
    (hSame : quote first ++ r = quote second ++ s) : first = second ∧ r = s := by
  simp only [quote, List.cons_append, List.append_assoc, List.nil_append] at hSame
  have hInside := (List.cons.inj hSame).2
  obtain ⟨hText, hRest⟩ := flatMap_escapeChar_inj hInside
  exact ⟨String.toList_inj.mp hText, hRest⟩

/-! ## Documents -/

/-- What may follow a document. -/
def Stops (rest : List Char) : Prop :=
  ∀ char ∈ rest.head?, char = ',' ∨ char = ']' ∨ char = '}'

/-- The texts of atoms: none begins like a container or like what follows a document, and
each is told from what follows it. -/
structure AtomText (α : Type) where
  text : α → List Char
  lead : ∀ value, ∃ char rest, text value = char :: rest ∧
    char ∉ ['[', '{', ',', ']', '}']
  framed : ∀ value other r s, Stops r → Stops s → text value ++ r = text other ++ s →
    value = other ∧ r = s

variable (atoms : AtomText α)

mutual

def render : JsonTree α → List Char
  | .node (.atom value) => atoms.text value
  | .node (.list items) => '[' :: (renderItems items ++ [']'])
  | .node (.dict entries) => '{' :: (renderEntries entries ++ ['}'])

def renderItems : List (JsonTree α) → List Char
  | [] => []
  | item :: items => render item ++ moreItems items

def moreItems : List (JsonTree α) → List Char
  | [] => []
  | item :: items => ',' :: ' ' :: (render item ++ moreItems items)

def renderEntries : List (String × JsonTree α) → List Char
  | [] => []
  | (key, value) :: entries => quote key ++ ':' :: ' ' :: (render value ++ moreEntries entries)

def moreEntries : List (String × JsonTree α) → List Char
  | [] => []
  | (key, value) :: entries =>
      ',' :: ' ' :: (quote key ++ ':' :: ' ' :: (render value ++ moreEntries entries))

end

variable {atoms}

theorem render_lead (tree : JsonTree α) :
    ∃ char rest, render atoms tree = char :: rest ∧ char ∉ [',', ']', '}'] := by
  match tree with
  | .node (.atom value) =>
      obtain ⟨char, rest, hText, hChar⟩ := atoms.lead value
      refine ⟨char, rest, by rw [render, hText], fun hMem => hChar ?_⟩
      exact List.mem_cons_of_mem _ (List.mem_cons_of_mem _ hMem)
  | .node (.list items) => exact ⟨_, _, by rw [render], by decide⟩
  | .node (.dict entries) => exact ⟨_, _, by rw [render], by decide⟩

theorem stops_moreItems (items : List (JsonTree α)) (rest : List Char) :
    Stops (moreItems atoms items ++ ']' :: rest) := by
  cases items with
  | nil =>
      rw [moreItems]
      rintro char ⟨⟩
      exact Or.inr (Or.inl rfl)
  | cons item items =>
      rw [moreItems]
      rintro char ⟨⟩
      exact Or.inl rfl

theorem stops_moreEntries (entries : List (String × JsonTree α)) (rest : List Char) :
    Stops (moreEntries atoms entries ++ '}' :: rest) := by
  cases entries with
  | nil =>
      rw [moreEntries]
      rintro char ⟨⟩
      exact Or.inr (Or.inr rfl)
  | cons entry entries =>
      rw [moreEntries]
      rintro char ⟨⟩
      exact Or.inl rfl

theorem atom_ne_container {value : α} {first : Char} {r s : List Char}
    (hFirst : first ∈ ['[', '{']) (hSame : atoms.text value ++ r = first :: s) : False := by
  obtain ⟨char, rest, hText, hChar⟩ := atoms.lead value
  rw [hText] at hSame
  obtain ⟨rfl, -⟩ := List.cons.inj hSame
  simp only [List.mem_cons, List.not_mem_nil, or_false] at hFirst hChar
  tauto

mutual

/-- A document is told from what follows it. -/
theorem render_inj : ∀ (tree other : JsonTree α) (r s : List Char), Stops r → Stops s →
    render atoms tree ++ r = render atoms other ++ s → tree = other ∧ r = s
  | .node (.atom value), .node (.atom other), r, s, hR, hS, hSame => by
      rw [render, render] at hSame
      obtain ⟨rfl, hRest⟩ := atoms.framed value other r s hR hS hSame
      exact ⟨rfl, hRest⟩
  | .node (.atom value), .node (.list others), r, s, _, _, hSame => by
      rw [render, render] at hSame
      exact (atom_ne_container (by decide) hSame).elim
  | .node (.atom value), .node (.dict others), r, s, _, _, hSame => by
      rw [render, render] at hSame
      exact (atom_ne_container (by decide) hSame).elim
  | .node (.list items), .node (.atom other), r, s, _, _, hSame => by
      rw [render, render] at hSame
      exact (atom_ne_container (by decide) hSame.symm).elim
  | .node (.dict entries), .node (.atom other), r, s, _, _, hSame => by
      rw [render, render] at hSame
      exact (atom_ne_container (by decide) hSame.symm).elim
  | .node (.list items), .node (.dict others), r, s, _, _, hSame => by
      rw [render, render] at hSame
      exact absurd (List.cons.inj hSame).1 (by decide)
  | .node (.dict entries), .node (.list others), r, s, _, _, hSame => by
      rw [render, render] at hSame
      exact absurd (List.cons.inj hSame).1 (by decide)
  | .node (.list items), .node (.list others), r, s, _, _, hSame => by
      rw [render, render, List.cons_append, List.cons_append, List.append_assoc,
        List.append_assoc] at hSame
      obtain ⟨rfl, hRest⟩ := renderItems_inj items others r s (List.cons.inj hSame).2
      exact ⟨rfl, hRest⟩
  | .node (.dict entries), .node (.dict others), r, s, _, _, hSame => by
      rw [render, render, List.cons_append, List.cons_append, List.append_assoc,
        List.append_assoc] at hSame
      obtain ⟨rfl, hRest⟩ := renderEntries_inj entries others r s (List.cons.inj hSame).2
      exact ⟨rfl, hRest⟩

theorem renderItems_inj : ∀ (items others : List (JsonTree α)) (r s : List Char),
    renderItems atoms items ++ ']' :: r = renderItems atoms others ++ ']' :: s →
    items = others ∧ r = s
  | [], [], r, s, hSame => ⟨rfl, (List.cons.inj hSame).2⟩
  | [], other :: others, r, s, hSame => by
      obtain ⟨char, rest, hText, hChar⟩ := @render_lead α atoms other
      rw [renderItems, renderItems, hText] at hSame
      exact absurd (by rw [← (List.cons.inj hSame).1]; decide) hChar
  | item :: items, [], r, s, hSame => by
      obtain ⟨char, rest, hText, hChar⟩ := @render_lead α atoms item
      rw [renderItems, renderItems, hText] at hSame
      exact absurd (by rw [(List.cons.inj hSame).1]; decide) hChar
  | item :: items, other :: others, r, s, hSame => by
      rw [renderItems, renderItems, List.append_assoc, List.append_assoc] at hSame
      obtain ⟨rfl, hMore⟩ := render_inj item other _ _ (stops_moreItems items r)
        (stops_moreItems others s) hSame
      obtain ⟨rfl, hRest⟩ := moreItems_inj items others r s hMore
      exact ⟨rfl, hRest⟩

theorem moreItems_inj : ∀ (items others : List (JsonTree α)) (r s : List Char),
    moreItems atoms items ++ ']' :: r = moreItems atoms others ++ ']' :: s → items = others ∧ r = s
  | [], [], r, s, hSame => ⟨rfl, (List.cons.inj hSame).2⟩
  | [], other :: others, r, s, hSame => by
      rw [moreItems, moreItems] at hSame
      exact absurd (List.cons.inj hSame).1 (by decide)
  | item :: items, [], r, s, hSame => by
      rw [moreItems, moreItems] at hSame
      exact absurd (List.cons.inj hSame).1 (by decide)
  | item :: items, other :: others, r, s, hSame => by
      simp only [moreItems, List.cons_append, List.append_assoc] at hSame
      have hTail := (List.cons.inj (List.cons.inj hSame).2).2
      obtain ⟨rfl, hMore⟩ := render_inj item other _ _ (stops_moreItems items r)
        (stops_moreItems others s) hTail
      obtain ⟨rfl, hRest⟩ := moreItems_inj items others r s hMore
      exact ⟨rfl, hRest⟩

theorem renderEntries_inj : ∀ (entries others : List (String × JsonTree α)) (r s : List Char),
    renderEntries atoms entries ++ '}' :: r = renderEntries atoms others ++ '}' :: s →
    entries = others ∧ r = s
  | [], [], r, s, hSame => ⟨rfl, (List.cons.inj hSame).2⟩
  | [], (key, other) :: others, r, s, hSame => by
      rw [renderEntries, renderEntries] at hSame
      exact absurd (List.cons.inj hSame).1 (by decide)
  | (key, value) :: entries, [], r, s, hSame => by
      rw [renderEntries, renderEntries] at hSame
      exact absurd (List.cons.inj hSame).1 (by decide)
  | (key, value) :: entries, (name, other) :: others, r, s, hSame => by
      simp only [renderEntries, List.cons_append, List.append_assoc] at hSame
      obtain ⟨rfl, hColon⟩ := quote_append_inj hSame
      have hTail := (List.cons.inj (List.cons.inj hColon).2).2
      obtain ⟨rfl, hMore⟩ := render_inj value other _ _ (stops_moreEntries entries r)
        (stops_moreEntries others s) hTail
      obtain ⟨rfl, hRest⟩ := moreEntries_inj entries others r s hMore
      exact ⟨rfl, hRest⟩

theorem moreEntries_inj : ∀ (entries others : List (String × JsonTree α)) (r s : List Char),
    moreEntries atoms entries ++ '}' :: r = moreEntries atoms others ++ '}' :: s →
    entries = others ∧ r = s
  | [], [], r, s, hSame => ⟨rfl, (List.cons.inj hSame).2⟩
  | [], (key, other) :: others, r, s, hSame => by
      rw [moreEntries, moreEntries] at hSame
      exact absurd (List.cons.inj hSame).1 (by decide)
  | (key, value) :: entries, [], r, s, hSame => by
      rw [moreEntries, moreEntries] at hSame
      exact absurd (List.cons.inj hSame).1 (by decide)
  | (key, value) :: entries, (name, other) :: others, r, s, hSame => by
      simp only [moreEntries, List.cons_append, List.append_assoc] at hSame
      have hEntry := (List.cons.inj (List.cons.inj hSame).2).2
      obtain ⟨rfl, hColon⟩ := quote_append_inj hEntry
      have hTail := (List.cons.inj (List.cons.inj hColon).2).2
      obtain ⟨rfl, hMore⟩ := render_inj value other _ _ (stops_moreEntries entries r)
        (stops_moreEntries others s) hTail
      obtain ⟨rfl, hRest⟩ := moreEntries_inj entries others r s hMore
      exact ⟨rfl, hRest⟩

end

/-! ## The order of keys -/

mutual

def sortKeys : JsonTree α → JsonTree α
  | .node (.atom value) => .node (.atom value)
  | .node (.list items) => .node (.list (sortItems items))
  | .node (.dict entries) =>
      .node (.dict ((sortEntries entries).insertionSort fun entry other => entry.1 ≤ other.1))

def sortItems : List (JsonTree α) → List (JsonTree α)
  | [] => []
  | item :: items => sortKeys item :: sortItems items

def sortEntries : List (String × JsonTree α) → List (String × JsonTree α)
  | [] => []
  | (key, value) :: entries => (key, sortKeys value) :: sortEntries entries

end

def dumps (atoms : AtomText α) (tree : JsonTree α) : String :=
  String.ofList (render atoms (sortKeys tree))

theorem dumps_inj {tree other : JsonTree α} :
    dumps atoms tree = dumps atoms other ↔ sortKeys tree = sortKeys other := by
  constructor
  · intro hSame
    have hText := String.ofList_injective hSame
    have hStops : Stops [] := by rintro char ⟨⟩
    exact (render_inj _ _ [] [] hStops hStops (by rw [List.append_nil, List.append_nil, hText])).1
  · intro hSame
    rw [dumps, dumps, hSame]

theorem sortEntries_eq_map (entries : List (String × JsonTree α)) :
    sortEntries entries = entries.map fun entry => (entry.1, sortKeys entry.2) := by
  induction entries with
  | nil => rfl
  | cons entry entries ih => rw [sortEntries, ih, List.map_cons]

section Equal

variable {atomEqual : α → α → Bool} (hRefl : ∀ value, atomEqual value value = true)

include hRefl

-- items and entries use the hypothesis through the tree only
set_option linter.unusedSectionVars false in
mutual

/-- Documents that are the same up to the order of entries are equal. -/
theorem equal_of_sortKeys : ∀ tree other : JsonTree α, JsonTree.DistinctKeys other →
    sortKeys tree = sortKeys other → JsonTree.equal atomEqual tree other = true
  | .node (.atom value), .node (.atom other), _, hSame => by
      rw [sortKeys, sortKeys] at hSame
      cases hSame
      rw [JsonTree.equal]
      exact hRefl value
  | .node (.list items), .node (.list others), hDistinct, hSame => by
      rw [sortKeys, sortKeys] at hSame
      rw [JsonTree.equal]
      exact equalItems_of_sortItems items others hDistinct
        (JsonNode.list.inj (JsonTree.node.inj hSame))
  | .node (.dict entries), .node (.dict others), hDistinct, hSame => by
      rw [sortKeys, sortKeys] at hSame
      have hPerm : (sortEntries entries).Perm (sortEntries others) := by
        have hSorted := JsonNode.dict.inj (JsonTree.node.inj hSame)
        exact (List.perm_insertionSort _ _).symm.trans
          (hSorted ▸ List.perm_insertionSort _ (sortEntries others))
      have hLength : entries.length = others.length := by
        have hLengths := hPerm.length_eq
        rwa [sortEntries_eq_map, sortEntries_eq_map, List.length_map, List.length_map] at hLengths
      rw [JsonTree.equal, Bool.and_eq_true, beq_iff_eq]
      refine ⟨hLength, equalEntries_of_sortEntries entries others hDistinct.1 hDistinct.2 ?_⟩
      exact fun entry hEntry => hPerm.subset hEntry
  | .node (.atom _), .node (.list _), _, hSame => by
      rw [sortKeys, sortKeys] at hSame
      cases hSame
  | .node (.atom _), .node (.dict _), _, hSame => by
      rw [sortKeys, sortKeys] at hSame
      cases hSame
  | .node (.list _), .node (.atom _), _, hSame => by
      rw [sortKeys, sortKeys] at hSame
      cases hSame
  | .node (.list _), .node (.dict _), _, hSame => by
      rw [sortKeys, sortKeys] at hSame
      cases hSame
  | .node (.dict _), .node (.atom _), _, hSame => by
      rw [sortKeys, sortKeys] at hSame
      cases hSame
  | .node (.dict _), .node (.list _), _, hSame => by
      rw [sortKeys, sortKeys] at hSame
      cases hSame

theorem equalItems_of_sortItems : ∀ items others : List (JsonTree α),
    JsonTree.DistinctItemKeys others → sortItems items = sortItems others →
    JsonTree.equalItems atomEqual items others = true
  | [], [], _, _ => rfl
  | [], _ :: _, _, hSame => by
      rw [sortItems, sortItems] at hSame
      cases hSame
  | _ :: _, [], _, hSame => by
      rw [sortItems, sortItems] at hSame
      cases hSame
  | item :: items, other :: others, hDistinct, hSame => by
      rw [sortItems, sortItems] at hSame
      obtain ⟨hItem, hItems⟩ := List.cons.inj hSame
      rw [JsonTree.equalItems, Bool.and_eq_true]
      exact ⟨equal_of_sortKeys item other hDistinct.1 hItem,
        equalItems_of_sortItems items others hDistinct.2 hItems⟩

theorem equalEntries_of_sortEntries : ∀ entries others : List (String × JsonTree α),
    (others.map Prod.fst).Nodup → JsonTree.DistinctEntryKeys others →
    (∀ entry ∈ sortEntries entries, entry ∈ sortEntries others) →
    JsonTree.equalEntries atomEqual entries others = true
  | [], _, _, _, _ => rfl
  | (key, value) :: entries, others, hNodup, hDistinct, hSubset => by
      rw [sortEntries] at hSubset
      obtain ⟨hHere, hRest⟩ := List.forall_mem_cons.mp hSubset
      rw [sortEntries_eq_map] at hHere
      obtain ⟨⟨name, other⟩, hOther, hSame⟩ := List.mem_map.mp hHere
      obtain ⟨rfl, hValue⟩ := Prod.mk.inj hSame
      have hTree : JsonTree.DistinctKeys other :=
        JsonTree.distinctKeys_of_mem hDistinct hOther
      rw [JsonTree.equalEntries, Bool.and_eq_true, (Assoc.lookup_eq_some_iff hNodup).mpr hOther]
      exact ⟨equal_of_sortKeys value other hTree hValue.symm,
        equalEntries_of_sortEntries entries others hNodup hDistinct hRest⟩

end

end Equal

end JsonText
end Tracecat
