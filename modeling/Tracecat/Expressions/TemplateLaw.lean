import Tracecat.Expressions.TemplateScan

/-!
# What templates stand for

A string as an alternation of literals and templates, and a nested object whose
strings are such: the value that substitution is to give, with every literal
kept and every template replaced.
-/

namespace Tracecat
namespace Templating

open Folders (strip)

variable {ω σ κ : Type}

/-! ## Strings -/

/-- A string: literals, each before the text of a template, and a literal at the end. -/
structure Alternation where
  parts : List (TokenText × TokenText)
  last : TokenText
  literals : ∀ part ∈ parts, ¬ opening <:+: part.1
  lastLiteral : ¬ opening <:+: last
  inners : ∀ part ∈ parts, Inner part.2

def textOf (parts : List (TokenText × TokenText)) (last : TokenText) : TokenText :=
  parts.foldr (fun part rest => part.1 ++ (template part.2 ++ rest)) last

def Alternation.text (line : Alternation) : TokenText :=
  textOf line.parts line.last

/-- A text that ends as a template does, if it comes after one. -/
def EndsAsTemplate (text : TokenText) : Prop :=
  text = ['}'] ∨ closing <:+ text

instance (text : TokenText) : Decidable (EndsAsTemplate text) :=
  inferInstanceAs (Decidable (_ ∨ _))

/-- The string is not a template and a text that ends as one does. -/
def Alternation.Clean (line : Alternation) : Prop :=
  ∀ inner, line.parts = [([], inner)] → ¬ EndsAsTemplate line.last

inductive TemplatedKey (ω : Type)
  | text (line : Alternation)
  | other (value : PyValue ω) (noText : ∀ text, value ≠ .str text)

/-- A value that is neither a text nor a list nor a dict. -/
def Atomic : PyValue ω → Prop
  | .str _ | .list _ | .dict _ => False
  | _ => True

/-- A nested object whose strings are alternations. -/
inductive Templated (ω : Type)
  | text (line : Alternation)
  | list (items : List (Templated ω))
  | dict (entries : List (TemplatedKey ω × Templated ω))
  | other (value : PyValue ω) (atomic : Atomic value)

def TemplatedKey.source : TemplatedKey ω → PyValue ω
  | .text line => .str line.text
  | .other value _ => value

def TemplatedKey.Clean : TemplatedKey ω → Prop
  | .text line => line.Clean
  | .other _ _ => True

namespace Templated

mutual

def source : Templated ω → PyValue ω
  | .text line => .str line.text
  | .list items => .list (sources items)
  | .dict entries => .dict (entrySources entries)
  | .other value _ => value

def sources : List (Templated ω) → List (PyValue ω)
  | [] => []
  | item :: items => source item :: sources items

def entrySources : List (TemplatedKey ω × Templated ω) → List (PyValue ω × PyValue ω)
  | [] => []
  | (key, value) :: entries => (key.source, source value) :: entrySources entries

end

mutual

def Clean : Templated ω → Prop
  | .text line => line.Clean
  | .list items => CleanItems items
  | .dict entries => CleanEntries entries
  | .other _ _ => True

def CleanItems : List (Templated ω) → Prop
  | [] => True
  | item :: items => Clean item ∧ CleanItems items

def CleanEntries : List (TemplatedKey ω × Templated ω) → Prop
  | [] => True
  | (key, value) :: entries => key.Clean ∧ Clean value ∧ CleanEntries entries

end

/-- Values that are the keys of one dict: each has a hash, and no two are the same key. -/
def DistinctKeys (rt : Runtime ω σ κ) (keys : List (PyValue ω)) : Prop :=
  (∀ key ∈ keys, key.hashKey rt ≠ none) ∧
    keys.Pairwise fun key other => key.hashKey rt ≠ other.hashKey rt

mutual

/-- In the value of an object, every dict that stands for one of the object has keys of a
dict. -/
def KeysApart (rt : Runtime ω σ κ) : Templated ω → PyValue ω → Prop
  | .list items, .list values => ItemsApart rt items values
  | .dict entries, .dict results =>
      DistinctKeys rt (results.map Prod.fst) ∧ EntriesApart rt entries results
  | _, _ => True

def ItemsApart (rt : Runtime ω σ κ) : List (Templated ω) → List (PyValue ω) → Prop
  | item :: items, value :: values => KeysApart rt item value ∧ ItemsApart rt items values
  | _, _ => True

def EntriesApart (rt : Runtime ω σ κ) :
    List (TemplatedKey ω × Templated ω) → List (PyValue ω × PyValue ω) → Prop
  | (_, value) :: entries, result :: results =>
      KeysApart rt value result.2 ∧ EntriesApart rt entries results
  | _, _ => True

end

end Templated

/-! ## Values -/

section Values

variable [DecidableEq κ] (evaluation : Evaluation ω σ κ)

/-- Every literal as it is and `str` of every template's value, in order. -/
def rendered : List (TokenText × TokenText) → TokenText → PyM σ TokenText
  | [], last => pure last
  | (literal, inner) :: parts, last => do
      let value ← evaluation.result (strip inner)
      let text ← evaluation.str value
      let rest ← rendered parts last
      return literal ++ (text ++ rest)

/-- The value of a string: that of its template, when it is one and nothing else. -/
def valueOfLine (line : Alternation) : PyM σ (PyValue ω) :=
  match line.parts, line.last with
  | [([], inner)], [] => evaluation.result (strip inner)
  | parts, last => .str <$> rendered evaluation parts last

def valueOfKey : TemplatedKey ω → PyM σ (PyValue ω)
  | .text line => valueOfLine evaluation line
  | .other value _ => pure value

mutual

/-- The value of an object: that of every string, at every depth, in the same shape. -/
def valueOf : Templated ω → PyM σ (PyValue ω)
  | .text line => valueOfLine evaluation line
  | .list items => .list <$> valuesOf items
  | .dict entries => .dict <$> entryValues entries
  | .other value _ => pure value

def valuesOf : List (Templated ω) → PyM σ (List (PyValue ω))
  | [] => pure []
  | item :: items => do
      let value ← valueOf item
      let values ← valuesOf items
      return value :: values

def entryValues : List (TemplatedKey ω × Templated ω) → PyM σ (List (PyValue ω × PyValue ω))
  | [] => pure []
  | (key, value) :: entries => do
      let newKey ← valueOfKey evaluation key
      let newValue ← valueOf value
      let rest ← entryValues entries
      return (newKey, newValue) :: rest

end

end Values

/-! ## The segments of an alternation -/

theorem template_cons (inner : TokenText) : ∃ more, template inner = '$' :: more :=
  ⟨_, rfl⟩

theorem segments_textOf {parts : List (TokenText × TokenText)} {last : TokenText}
    (hLiterals : ∀ part ∈ parts, ¬ opening <:+: part.1) (hLast : ¬ opening <:+: last)
    (hInners : ∀ part ∈ parts, Inner part.2) :
    segments 0 (textOf parts last) =
      parts.foldr (fun part rest => part.1.map .char ++ .template (found part.2) :: rest)
        (last.map .char) := by
  induction parts with
  | nil =>
      have hEnd := @segments_literal last [] hLast (Or.inl rfl)
      rw [List.append_nil] at hEnd
      rw [textOf, List.foldr_nil, List.foldr_nil, hEnd, segments, List.append_nil]
  | cons part parts ih =>
      obtain ⟨more, hMore⟩ := template_cons part.2
      have hDollar : ∃ after, template part.2 ++ textOf parts last = '$' :: after :=
        ⟨more ++ textOf parts last, by rw [hMore]; rfl⟩
      change segments 0 (part.1 ++ (template part.2 ++ textOf parts last)) = _
      rw [segments_literal (hLiterals part List.mem_cons_self) (Or.inr hDollar),
        segments_template (hInners part List.mem_cons_self),
        ih (fun other hOther => hLiterals other (List.mem_cons_of_mem _ hOther))
          (fun other hOther => hInners other (List.mem_cons_of_mem _ hOther)),
        List.foldr_cons]

theorem filterMap_chars (text : TokenText) :
    (text.map Segment.char).filterMap Segment.found? = [] := by
  rw [List.filterMap_map]
  exact List.filterMap_eq_nil_iff.mpr fun _ _ => rfl

theorem finditer_textOf {parts : List (TokenText × TokenText)} {last : TokenText}
    (hLiterals : ∀ part ∈ parts, ¬ opening <:+: part.1) (hLast : ¬ opening <:+: last)
    (hInners : ∀ part ∈ parts, Inner part.2) :
    finditer (textOf parts last) = parts.map fun part => found part.2 := by
  unfold finditer
  rw [segments_textOf hLiterals hLast hInners]
  clear hLiterals hLast hInners
  induction parts with
  | nil => exact filterMap_chars last
  | cons part parts ih =>
      rw [List.foldr_cons, List.filterMap_append, filterMap_chars, List.nil_append, List.map_cons,
        ← ih]
      rfl

end Templating
end Tracecat
