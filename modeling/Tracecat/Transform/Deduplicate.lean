import Tracecat.Lib.Grouping
import Tracecat.Lib.JsonText
import Tracecat.Lib.Paths
import Tracecat.Mcp.JsonPatch

/-!
# Deduplication

`deduplicate` of `tracecat_registry/core/transform.py`.  The digest store is the one of
`deduplicate/internal_router.py`: a digest is created if none is alive, and lives as long
as the call asks for.  A digest is taken of `json.dumps(value, sort_keys=True)`.
-/

namespace Tracecat

/-! ## `json.dumps` -/

namespace Transform

open JsonPatch (JsonAtom)
open JsonText (AtomText Stops)

abbrev Value (ν : Type) : Type := JsonTree (JsonAtom ν)

/-- The characters of `repr` of an `int` and of a finite `float`. -/
def numberChars : List Char :=
  ['0', '1', '2', '3', '4', '5', '6', '7', '8', '9', '+', '-', '.', 'e']

/-- The numbers of the language: their exact values, and `repr`, which tells them apart.
An integer and a float may have one value. -/
structure NumberFormat (ν : Type) where
  exact : ν → ℚ
  repr : ν → List Char
  repr_injective : Function.Injective repr
  repr_ne_nil : ∀ number, repr number ≠ []
  repr_chars : ∀ number, ∀ char ∈ repr number, char ∈ numberChars

variable {ν : Type} (numbers : NumberFormat ν)

def atomText : JsonAtom ν → List Char
  | .null => ['n', 'u', 'l', 'l']
  | .bool true => ['t', 'r', 'u', 'e']
  | .bool false => ['f', 'a', 'l', 's', 'e']
  | .number number => numbers.repr number
  | .string text => JsonText.quote text

variable {numbers}

theorem number_cons (number : ν) :
    ∃ char rest, numbers.repr number = char :: rest ∧ char ∈ numberChars := by
  obtain ⟨char, rest, hText⟩ := List.exists_cons_of_ne_nil (numbers.repr_ne_nil number)
  exact ⟨char, rest, hText, numbers.repr_chars number char (hText ▸ List.mem_cons_self)⟩

/-- No number begins like a word or a string. -/
theorem number_lead {number : ν} {first : Char} {r s : List Char} (hFirst : first ∉ numberChars)
    (hSame : numbers.repr number ++ r = first :: s) : False := by
  obtain ⟨char, rest, hText, hChar⟩ := @number_cons ν numbers number
  rw [hText] at hSame
  exact hFirst ((List.cons.inj hSame).1 ▸ hChar)

theorem takeWhile_number (number : ν) {rest : List Char} (hStops : Stops rest) :
    (numbers.repr number ++ rest).takeWhile (· ∈ numberChars) = numbers.repr number := by
  have hAll : ∀ char ∈ numbers.repr number, decide (char ∈ numberChars) = true := fun char hChar =>
    decide_eq_true (numbers.repr_chars number char hChar)
  rw [List.takeWhile_append_of_pos hAll]
  cases rest with
  | nil => rw [List.takeWhile_nil, List.append_nil]
  | cons char rest =>
      have hChar : decide (char ∈ numberChars) = false := by
        rcases hStops char rfl with rfl | rfl | rfl <;> decide
      rw [List.takeWhile_cons, hChar, if_neg Bool.false_ne_true, List.append_nil]

theorem number_framed {number other : ν} {r s : List Char} (hR : Stops r) (hS : Stops s)
    (hSame : numbers.repr number ++ r = numbers.repr other ++ s) : number = other ∧ r = s := by
  have hText := congrArg (List.takeWhile (· ∈ numberChars)) hSame
  rw [takeWhile_number number hR, takeWhile_number other hS] at hText
  rw [hText] at hSame
  exact ⟨numbers.repr_injective hText, List.append_cancel_left hSame⟩

theorem atomText_framed {value other : JsonAtom ν} {r s : List Char} (hR : Stops r) (hS : Stops s)
    (hSame : atomText numbers value ++ r = atomText numbers other ++ s) :
    value = other ∧ r = s := by
  cases value with
  | null =>
      cases other with
      | null => exact ⟨rfl, by simpa [atomText] using hSame⟩
      | bool flag => cases flag <;> simp [atomText] at hSame
      | number number => exact (number_lead (by decide) hSame.symm).elim
      | string text => exact absurd (List.cons.inj hSame).1 (by decide)
  | bool flag =>
      cases other with
      | null => cases flag <;> simp [atomText] at hSame
      | bool other => cases flag <;> cases other <;> simp_all [atomText]
      | number number => cases flag <;> exact (number_lead (by decide) hSame.symm).elim
      | string text => cases flag <;> exact absurd (List.cons.inj hSame).1 (by decide)
  | number number =>
      cases other with
      | null => exact (number_lead (by decide) hSame).elim
      | bool flag => cases flag <;> exact (number_lead (by decide) hSame).elim
      | number other =>
          obtain ⟨rfl, hRest⟩ := number_framed hR hS hSame
          exact ⟨rfl, hRest⟩
      | string text => exact (number_lead (by decide) hSame).elim
  | string text =>
      cases other with
      | null => exact absurd (List.cons.inj hSame).1 (by decide)
      | bool flag => cases flag <;> exact absurd (List.cons.inj hSame).1 (by decide)
      | number number => exact (number_lead (by decide) hSame.symm).elim
      | string other =>
          obtain ⟨rfl, hRest⟩ := JsonText.quote_append_inj hSame
          exact ⟨rfl, hRest⟩

theorem atomText_lead (value : JsonAtom ν) :
    ∃ char rest, atomText numbers value = char :: rest ∧ char ∉ ['[', '{', ',', ']', '}'] := by
  cases value with
  | null => exact ⟨_, _, rfl, by decide⟩
  | bool flag => cases flag <;> exact ⟨_, _, rfl, by decide⟩
  | number number =>
      obtain ⟨char, rest, hText, hChar⟩ := @number_cons ν numbers number
      refine ⟨char, rest, hText, fun hMem => ?_⟩
      simp only [List.mem_cons, List.not_mem_nil, or_false] at hMem
      rcases hMem with rfl | rfl | rfl | rfl | rfl <;> exact absurd hChar (by decide)
  | string text => exact ⟨_, _, rfl, by decide⟩

variable (numbers)

def atomTexts : AtomText (JsonAtom ν) where
  text := atomText numbers
  lead := atomText_lead
  framed := fun _ _ _ _ hR hS hSame => atomText_framed hR hS hSame

/-- `json.dumps(value, sort_keys=True)`. -/
def dumps (value : Value ν) : String := JsonText.dumps (atomTexts numbers) value

end Transform

/-! ## Items -/

/-- `item.update(other)`. -/
def JsonObject.merge {α : Type} (item other : JsonObject α) : JsonObject α where
  entries := Assoc.update item.entries other.entries
  distinct := by
    refine ⟨Assoc.nodup_update _ item.distinct.1, ?_⟩
    have hValues := JsonTree.distinctEntryKeys_iff.mp item.distinct.2
    have hOthers := JsonTree.distinctEntryKeys_iff.mp other.distinct.2
    refine JsonTree.distinctEntryKeys_iff.mpr fun entry hEntry => ?_
    rcases Assoc.mem_update hEntry with hMem | hMem
    · exact hOthers entry hMem
    · exact hValues entry hMem

namespace Transform

open JsonPatch (JsonAtom pyEqual)

variable {ν : Type} (numbers : NumberFormat ν)

abbrev Item (ν : Type) : Type := JsonObject (JsonAtom ν)

/-- A key path: it begins with a field of the item, and goes on in the value of the field.
What it finds is part of that value.  Paths that begin otherwise, such as `*` and `.id`,
are left out. -/
structure KeyPath (ν : Type) where
  key : String
  field : String
  rest : Value ν → Option (Value ν)
  distinct : ∀ value found, value.DistinctKeys → rest value = some found → found.DistinctKeys

inductive DeduplicateError
  | unresolved (expr : String)
  deriving DecidableEq, Repr

/-- `eval_jsonpath("$." + key, item, strict=True)`. -/
def KeyPath.eval? (path : KeyPath ν) (item : Item ν) : Option (Value ν) :=
  (item.entries.lookup path.field).bind path.rest

/-- The value as a part of a dictionary key: a container as its text. -/
def hashable (value : Value ν) : JsonAtom ν :=
  match value with
  | .node (.atom atom) => atom
  | .node (.list _) | .node (.dict _) => .string (dumps numbers value)

/-- `get_nested_values`. -/
def getNestedValues (keys : List (KeyPath ν)) (item : Item ν) :
    Except DeduplicateError (List (JsonAtom ν)) :=
  keys.mapM fun path =>
    match path.eval? item with
    | some value => .ok (hashable numbers value)
    | none => .error (.unresolved ("$." ++ path.key))

/-- `==` of tuples. -/
def tupleEqual : List (JsonAtom ν) → List (JsonAtom ν) → Bool
  | [], [] => true
  | value :: values, other :: others =>
      pyEqual numbers.exact value other && tupleEqual values others
  | _, _ => false

abbrev Seen (ν : Type) : Type := List (List (JsonAtom ν) × Item ν)

def seenOf (keys : List (KeyPath ν)) (items : List (Item ν)) :
    Except DeduplicateError (Seen ν) :=
  items.foldlM (fun seen item => do
    let key ← getNestedValues numbers keys item
    return Grouping.add (tupleEqual numbers) JsonObject.merge (key, item) seen) []

/-- `deduplicate` with `persist=False`. -/
def deduplicate (keys : List (KeyPath ν)) (items : List (Item ν)) :
    Except DeduplicateError (List (Item ν)) :=
  if items.isEmpty then .ok []
  else (seenOf numbers keys items).map fun seen => seen.map Prod.snd

/-! ## Persistent deduplication -/

/-- `json.dumps(key, sort_keys=True)` of a tuple. -/
def tupleText (key : List (JsonAtom ν)) : String :=
  dumps numbers (.node (.list (key.map fun value => .node (.atom value))))

variable {δ : Type} [DecidableEq δ] (sha256 : String → δ)

/-- `_compute_digests`. -/
def computeDigests (seen : Seen ν) : List δ :=
  seen.map fun group => sha256 (tupleText numbers group.1)

/-- The digests and the times up to which they live. -/
abbrev DigestStore (δ : Type) : Type := List (δ × ℚ)

def DigestStore.alive (store : DigestStore δ) (now : ℚ) (digest : δ) : Bool :=
  store.any fun entry => decide (entry.1 = digest) && decide (now < entry.2)

/-- `create_digests`: which digests are new.  A request with more than 1000 digests, or with
a time outside one second to thirty days, is refused before; that check is left out. -/
def createDigests (now : ℚ) (expireSeconds : Nat) :
    List δ → DigestStore δ → List Bool × DigestStore δ
  | [], store => ([], store)
  | digest :: digests, store =>
      if store.alive now digest then
        let (created, after) := createDigests now expireSeconds digests store
        (false :: created, after)
      else
        let (created, after) :=
          createDigests now expireSeconds digests (store ++ [(digest, now + expireSeconds)])
        (true :: created, after)

/-- A call with `persist=True`. -/
structure Call (ν : Type) where
  now : ℚ
  expireSeconds : Nat
  keys : List (KeyPath ν)
  items : List (Item ν)

/-- `_deduplicate_persistent`. -/
def deduplicatePersistent (seen : Seen ν) (now : ℚ) (expireSeconds : Nat) (store : DigestStore δ) :
    List (Item ν) × DigestStore δ :=
  let (created, after) :=
    createDigests now expireSeconds (computeDigests numbers sha256 seen) store
  (((seen.map Prod.snd).zip created).filterMap fun entry =>
    if entry.2 then some entry.1 else none, after)

/-- `deduplicate` with `persist=True`. -/
def deduplicateCall (call : Call ν) (store : DigestStore δ) :
    Except DeduplicateError (List (Item ν)) × DigestStore δ :=
  if call.items.isEmpty then (.ok [], store)
  else
    match seenOf numbers call.keys call.items with
    | .error error => (.error error, store)
    | .ok seen =>
        let (results, after) :=
          deduplicatePersistent numbers sha256 seen call.now call.expireSeconds store
        (.ok results, after)

/-- The results of calls, one after another. -/
def runCalls : List (Call ν) → DigestStore δ → List (Except DeduplicateError (List (Item ν)))
  | [], _ => []
  | call :: calls, store =>
      let (result, after) := deduplicateCall numbers sha256 call store
      result :: runCalls calls after

end Transform
end Tracecat
