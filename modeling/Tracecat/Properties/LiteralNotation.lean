import Mathlib.Data.Finset.Max
import Mathlib.Data.List.TakeWhile
import Tracecat.Expressions.Literals
import Tracecat.Properties.TemplateText

/-!
# What literals denote

JSON values and the literals that are read as them, and literals and the values
that they stand for when the escapes of their strings are resolved.
-/

namespace Tracecat
namespace Literals

/-! ## Escapes -/

/-- The text between quotes, with every backslash and the character after it replaced by
the character that they stand for. -/
def resolve (escape : Char → Char) : TokenText → TokenText
  | [] => []
  | [char] => [char]
  | char :: next :: text =>
      if char = '\\' then escape next :: resolve escape text
      else char :: resolve escape (next :: text)

theorem resolve_plain (escape : Char → Char) {body : TokenText} (hPlain : '\\' ∉ body) :
    resolve escape body = body := by
  fun_induction resolve escape body with
  | case1 => rfl
  | case2 => rfl
  | case3 next text => exact absurd List.mem_cons_self hPlain
  | case4 char next text _ ih =>
      rw [ih fun hMem => hPlain (List.mem_cons_of_mem _ hMem)]

theorem length_resolve_le (escape : Char → Char) (body : TokenText) :
    (resolve escape body).length ≤ body.length := by
  fun_induction resolve escape body with
  | case1 => exact le_refl _
  | case2 => exact le_refl _
  | case3 next text ih =>
      simp only [List.length_cons]
      omega
  | case4 char next text _ ih =>
      simp only [List.length_cons] at ih ⊢
      omega

theorem length_resolve_lt (escape : Char → Char) {quote : Char} {body : TokenText}
    (hBody : isBody quote body = true) (hEscaped : '\\' ∈ body) :
    (resolve escape body).length < body.length := by
  fun_induction resolve escape body with
  | case1 => cases hEscaped
  | case2 char =>
      -- a backslash does not come last
      rw [List.mem_singleton] at hEscaped
      subst hEscaped
      simp [isBody] at hBody
  | case3 next text ih =>
      have hLe := length_resolve_le escape text
      simp only [List.length_cons]
      omega
  | case4 char next text hChar ih =>
      rw [isBody, if_neg hChar, Bool.and_eq_true] at hBody
      have hRest := (List.mem_cons.mp hEscaped).resolve_left (Ne.symm hChar)
      have hLt := ih hBody.2 hRest
      simp only [List.length_cons] at hLt ⊢
      omega

theorem StringToken.resolve_eq_iff (escape : Char → Char) (token : StringToken) :
    resolve escape token.body = token.body ↔ '\\' ∉ token.body := by
  constructor
  · intro hSame hEscaped
    have hLt := length_resolve_lt escape token.closed hEscaped
    rw [hSame] at hLt
    exact lt_irrefl _ hLt
  · exact resolve_plain escape

/-- Keys that are as a whole the same once they are resolved have no escapes: the longest
one that has escapes is what a longer one resolves to. -/
theorem plain_of_keys {escape : Char → Char} {tokens : List StringToken}
    (hKeys : ∀ key, key ∈ tokens.map StringToken.body ↔
      key ∈ tokens.map fun token => resolve escape token.body) :
    ∀ token ∈ tokens, '\\' ∉ token.body := by
  by_contra hSome
  push Not at hSome
  obtain ⟨found, hFound, hEscaped⟩ := hSome
  let escaped := ((tokens.map StringToken.body).filter fun body => '\\' ∈ body).toFinset
  have hMem : ∀ body, body ∈ escaped ↔ body ∈ tokens.map StringToken.body ∧ '\\' ∈ body := by
    intro body
    simp [escaped]
  have hNonempty : escaped.Nonempty :=
    ⟨found.body, (hMem _).mpr ⟨List.mem_map_of_mem hFound, hEscaped⟩⟩
  obtain ⟨longest, hLongest, hMost⟩ := escaped.exists_max_image List.length hNonempty
  obtain ⟨hKey, hBackslash⟩ := (hMem longest).mp hLongest
  obtain ⟨token, hToken, hResolve⟩ := List.mem_map.mp ((hKeys longest).mp hKey)
  have hTokenEscaped : '\\' ∈ token.body := by
    by_contra hPlain
    rw [resolve_plain escape hPlain] at hResolve
    exact hPlain (hResolve ▸ hBackslash)
  have hLt := length_resolve_lt escape token.closed hTokenEscaped
  have hLe := hMost token.body ((hMem _).mpr ⟨List.mem_map_of_mem hToken, hTokenEscaped⟩)
  rw [hResolve] at hLt
  omega

/-! ## Literals without escapes -/

mutual

/-- No string has an escape; the values that a later pair of a dict replaces are not
looked at. -/
def Literal.Plain : Literal → Prop
  | .str token => '\\' ∉ token.body
  | .bool _ => True
  | .none => True
  | .number _ => True
  | .negative _ => True
  | .list items => PlainItems items
  | .dict pairs => PlainPairs pairs

def PlainItems : List Literal → Prop
  | [] => True
  | item :: items => item.Plain ∧ PlainItems items

def PlainPairs : List (StringToken × Literal) → Prop
  | [] => True
  | (key, value) :: pairs =>
      '\\' ∉ key.body ∧ (key.body ∈ pairs.map (fun pair => pair.1.body) ∨ value.Plain) ∧
        PlainPairs pairs

end

theorem plainPairs_iff {pairs : List (StringToken × Literal)} :
    PlainPairs pairs ↔ (∀ pair ∈ pairs, '\\' ∉ pair.1.body) ∧
      Assoc.ForLast (fun pair => pair.1.body) (fun pair => pair.2.Plain) pairs := by
  induction pairs with
  | nil =>
      have hNil : ∀ pair ∈ ([] : List (StringToken × Literal)), '\\' ∉ pair.1.body :=
        fun _ hNone => absurd hNone List.not_mem_nil
      exact ⟨fun _ => ⟨hNil, trivial⟩, fun _ => trivial⟩
  | cons pair pairs ih =>
      show ('\\' ∉ pair.1.body ∧ _ ∧ PlainPairs pairs) ↔ _
      rw [ih, List.forall_mem_cons, Assoc.ForLast]
      tauto

variable {ω σ κ : Type} {rt : Runtime ω σ κ} (arithmetic : Arithmetic rt)
  (escape : Char → Char)

theorem pairValues_eq_map (string : TokenText → TokenText) (pairs : List (StringToken × Literal)) :
    pairValues arithmetic string pairs =
      pairs.map fun pair => (string pair.1.body, pair.2.value arithmetic string) := by
  induction pairs with
  | nil => rfl
  | cons pair pairs ih =>
      rw [List.map_cons, ← ih]
      rfl

theorem dictOf_injective {pairs others : List (TokenText × PyValue ω)}
    (hSame : dictOf pairs = dictOf others) : Assoc.ofPairs pairs = Assoc.ofPairs others := by
  apply List.map_injective_iff.mpr _ (PyValue.dict.inj hSame)
  intro first second hEntries
  obtain ⟨hKey, hValue⟩ := Prod.mk.inj hEntries
  exact Prod.ext (PyValue.str.inj hKey) hValue

theorem dict_eq_iff {pairs : List (StringToken × Literal)}
    (hValues : ∀ pair ∈ pairs, pair.2.value arithmetic id =
      pair.2.value arithmetic (resolve escape) ↔ pair.2.Plain) :
    dictOf (pairValues arithmetic id pairs) =
      dictOf (pairValues arithmetic (resolve escape) pairs) ↔ PlainPairs pairs := by
  have hLast : (∀ pair ∈ pairs, '\\' ∉ pair.1.body) →
      (Assoc.ofPairs (pairValues arithmetic id pairs) =
        Assoc.ofPairs (pairValues arithmetic (resolve escape) pairs) ↔
          Assoc.ForLast (fun pair => pair.1.body) (fun pair => pair.2.Plain) pairs) := by
    intro hPlain
    have hResolved : pairValues arithmetic (resolve escape) pairs =
        pairs.map fun pair => (pair.1.body, pair.2.value arithmetic (resolve escape)) := by
      rw [pairValues_eq_map]
      apply List.map_congr_left
      intro pair hPair
      rw [resolve_plain escape (hPlain pair hPair)]
    rw [hResolved, pairValues_eq_map]
    refine Iff.trans Assoc.ofPairs_map_eq_iff ⟨?_, ?_⟩
    · exact fun hSame => hSame.imp fun pair hPair => (hValues pair hPair).mp
    · exact fun hSame => hSame.imp fun pair hPair => (hValues pair hPair).mpr
  rw [plainPairs_iff]
  constructor
  · intro hSame
    have hEntries := dictOf_injective hSame
    have hPlain : ∀ token ∈ pairs.map Prod.fst, '\\' ∉ token.body := by
      apply @plain_of_keys escape
      intro key
      have hKeys : ∀ string : TokenText → TokenText,
          key ∈ (Assoc.ofPairs (pairValues arithmetic string pairs)).map Prod.fst ↔
            key ∈ (pairs.map Prod.fst).map fun token => string token.body := by
        intro string
        rw [Assoc.mem_keys_ofPairs, pairValues_eq_map, List.map_map, List.map_map]
        rfl
      have hRaw := hKeys id
      rw [hEntries, hKeys] at hRaw
      exact hRaw.symm
    have hKeys : ∀ pair ∈ pairs, '\\' ∉ pair.1.body := fun pair hPair =>
      hPlain pair.1 (List.mem_map_of_mem hPair)
    exact ⟨hKeys, (hLast hKeys).mp hEntries⟩
  · rintro ⟨hPlain, hRows⟩
    unfold dictOf
    rw [(hLast hPlain).mpr hRows]

mutual

/-- The strings of a literal read the same with their escapes resolved if and only if there
are none that count. -/
theorem value_eq_iff : ∀ literal : Literal,
    literal.value arithmetic id = literal.value arithmetic (resolve escape) ↔ literal.Plain
  | .str token => by
      refine Iff.trans ⟨fun hSame => ?_, fun hSame => ?_⟩ (token.resolve_eq_iff escape)
      · exact (PyValue.str.inj hSame).symm
      · exact congrArg PyValue.str hSame.symm
  | .bool _ => ⟨fun _ => trivial, fun _ => rfl⟩
  | .none => ⟨fun _ => trivial, fun _ => rfl⟩
  | .number _ => ⟨fun _ => trivial, fun _ => rfl⟩
  | .negative _ => ⟨fun _ => trivial, fun _ => rfl⟩
  | .list items => by
      refine Iff.trans ⟨PyValue.list.inj, congrArg PyValue.list⟩ (itemValues_eq_iff items)
  | .dict pairs => dict_eq_iff arithmetic escape (pairValues_eq_iff pairs)

theorem itemValues_eq_iff : ∀ items : List Literal,
    itemValues arithmetic id items = itemValues arithmetic (resolve escape) items ↔
      PlainItems items
  | [] => ⟨fun _ => trivial, fun _ => rfl⟩
  | item :: items => by
      refine Iff.trans ⟨List.cons.inj, ?_⟩ (and_congr (value_eq_iff item) (itemValues_eq_iff items))
      rintro ⟨hItem, hItems⟩
      unfold itemValues
      rw [hItem, hItems]

theorem pairValues_eq_iff : ∀ pairs : List (StringToken × Literal), ∀ pair ∈ pairs,
    pair.2.value arithmetic id = pair.2.value arithmetic (resolve escape) ↔ pair.2.Plain
  | [], _, hNone => absurd hNone List.not_mem_nil
  | (_, value) :: pairs, pair, hPair => by
      rcases List.mem_cons.mp hPair with rfl | hRest
      · exact value_eq_iff value
      · exact pairValues_eq_iff pairs pair hRest

end

/-! ## JSON values -/

/-- A value built from texts, integers, booleans, `None`, lists and dicts with texts as keys. -/
inductive JsonLike
  | null
  | bool (value : Bool)
  | int (value : Int)
  | str (value : String)
  | arr (items : List JsonLike)
  | obj (entries : List (String × JsonLike))

mutual

def ofJson : JsonLike → PyValue ω
  | .null => .none
  | .bool value => .bool value
  | .int value => .int value
  | .str value => .str value.toList
  | .arr items => .list (ofItems items)
  | .obj entries => .dict (ofEntries entries)

def ofItems : List JsonLike → List (PyValue ω)
  | [] => []
  | item :: items => ofJson item :: ofItems items

def ofEntries : List (String × JsonLike) → List (PyValue ω × PyValue ω)
  | [] => []
  | (key, value) :: entries => (.str key.toList, ofJson value) :: ofEntries entries

end

mutual

/-- The keys of each dict are distinct. -/
def DistinctKeys : JsonLike → Prop
  | .arr items => ItemKeys items
  | .obj entries => (entries.map Prod.fst).Nodup ∧ EntryKeys entries
  | _ => True

def ItemKeys : List JsonLike → Prop
  | [] => True
  | item :: items => DistinctKeys item ∧ ItemKeys items

def EntryKeys : List (String × JsonLike) → Prop
  | [] => True
  | (_, value) :: entries => DistinctKeys value ∧ EntryKeys entries

end

/-- The text may stand between quotes of one kind. -/
def Quotable (text : TokenText) : Prop :=
  ∃ quote : Quote, isBody quote.char text = true

mutual

/-- No list and no dict is empty, and every string may stand between quotes. -/
def Writable : JsonLike → Prop
  | .str value => Quotable value.toList
  | .arr items => items ≠ [] ∧ WritableItems items
  | .obj entries => entries ≠ [] ∧ WritableEntries entries
  | _ => True

def WritableItems : List JsonLike → Prop
  | [] => True
  | item :: items => Writable item ∧ WritableItems items

def WritableEntries : List (String × JsonLike) → Prop
  | [] => True
  | (key, value) :: entries =>
      Quotable key.toList ∧ Writable value ∧ WritableEntries entries

end

/-! ### Integers -/

theorem isDecimal_of_isDigit {char : Char} (hDigit : char.isDigit = true) :
    isDecimal char = true := by
  unfold Char.isDigit at hDigit
  rw [Bool.and_eq_true, decide_eq_true_iff, decide_eq_true_iff] at hDigit
  have hLow : 48 ≤ char.toNat := hDigit.1
  have hHigh : char.toNat ≤ 57 := hDigit.2
  unfold isDecimal
  rw [List.any_eq_true]
  refine ⟨0x30, List.mem_cons_self, ?_⟩
  rw [Bool.and_eq_true, decide_eq_true_iff, decide_eq_true_iff]
  omega

theorem isNumeral_of_digits {text : TokenText} (hDigits : text.all Char.isDigit = true)
    (hText : text ≠ []) : isNumeral text = true := by
  have hDecimals : ∀ char ∈ text, isDecimal char = true := fun char hChar =>
    isDecimal_of_isDigit (List.all_eq_true.mp hDigits char hChar)
  unfold isNumeral
  rw [List.takeWhile_eq_self_iff.mpr hDecimals, List.dropWhile_eq_nil_iff.mpr hDecimals]
  cases text with
  | nil => exact absurd rfl hText
  | cons char text => rfl

theorem all_isDigit_toDigits (value : Nat) : (Nat.toDigits 10 value).all Char.isDigit = true :=
  List.all_eq_true.mpr fun _ hChar => Nat.isDigit_of_mem_toDigits (by decide) (by decide) hChar

def numeralOf (value : Nat) : Numeral where
  text := Nat.toDigits 10 value
  numeral := isNumeral_of_digits (all_isDigit_toDigits value) Nat.toDigits_ne_nil

theorem exists_int (value : Int) : ∃ literal : Literal, literal.Full ∧
    literal.value arithmetic id = (.int value : PyValue ω) := by
  cases value with
  | ofNat value =>
      refine ⟨.number (numeralOf value), trivial, ?_⟩
      show (arithmetic.number (numeralOf value)).toPy = _
      rw [arithmetic.number_digits _ (all_isDigit_toDigits value)]
      show PyValue.int (Nat.ofDigitChars 10 (Nat.toDigits 10 value) 0 : Nat) = _
      rw [Nat.ofDigitChars_ten_toDigits]
      rfl
  | negSucc value =>
      refine ⟨.negative (numeralOf (value + 1)), trivial, ?_⟩
      show (arithmetic.negated (numeralOf (value + 1))).toPy = _
      rw [arithmetic.negated_digits _ (all_isDigit_toDigits (value + 1))]
      show PyValue.int (-(Nat.ofDigitChars 10 (Nat.toDigits 10 (value + 1)) 0 : Nat)) = _
      rw [Nat.ofDigitChars_ten_toDigits]
      rfl

/-! ### Writing -/

def entryPairs (entries : List (String × JsonLike)) : List (TokenText × PyValue ω) :=
  entries.map fun entry => (entry.1.toList, ofJson entry.2)

theorem ofEntries_eq_map (entries : List (String × JsonLike)) :
    (ofEntries entries : List (PyValue ω × PyValue ω)) =
      (entryPairs entries).map (Prod.map .str id) := by
  induction entries with
  | nil => rfl
  | cons entry entries ih =>
      show (.str entry.1.toList, ofJson entry.2) :: ofEntries entries = _
      rw [ih]
      rfl

theorem dictOf_entries {entries : List (String × JsonLike)}
    (hKeys : (entries.map Prod.fst).Nodup) :
    dictOf (entryPairs entries) = (ofJson (.obj entries) : PyValue ω) := by
  have hNodup : ((entryPairs entries : List (TokenText × PyValue ω)).map Prod.fst).Nodup := by
    have hMap : (entryPairs entries : List (TokenText × PyValue ω)).map Prod.fst =
        (entries.map Prod.fst).map String.toList := by
      rw [entryPairs, List.map_map, List.map_map]
      rfl
    rw [hMap]
    exact hKeys.map fun _ _ hSame => String.toList_injective hSame
  show PyValue.dict ((Assoc.ofPairs (entryPairs entries)).map (Prod.map .str id)) =
    .dict (ofEntries entries)
  rw [Assoc.ofPairs_eq_self hNodup, ofEntries_eq_map]

/-- What a literal is read as, if it is read at all. -/
def Written (value : PyValue ω) (literal : Literal) : Prop :=
  literal.Full ∧ literal.value arithmetic id = value

mutual

theorem exists_written : ∀ value : JsonLike, DistinctKeys value → Writable value →
    ∃ literal, Written arithmetic (ofJson value) literal
  | .null, _, _ => ⟨.none, trivial, rfl⟩
  | .bool value, _, _ => ⟨.bool value, trivial, rfl⟩
  | .int value, _, _ => exists_int arithmetic value
  | .str value, _, hWritable => by
      obtain ⟨quote, hBody⟩ := hWritable
      exact ⟨.str ⟨quote, value.toList, hBody⟩, trivial, rfl⟩
  | .arr items, hKeys, hWritable => by
      obtain ⟨literals, hFull, hValues⟩ := exists_written_items items hKeys hWritable.2
      refine ⟨.list literals, ⟨?_, hFull⟩, congrArg PyValue.list hValues⟩
      rintro rfl
      cases items with
      | nil => exact hWritable.1 rfl
      | cons item items => cases hValues
  | .obj entries, hKeys, hWritable => by
      obtain ⟨pairs, hFull, hValues⟩ := exists_written_entries entries hKeys.2 hWritable.2
      refine ⟨.dict pairs, ⟨?_, hFull⟩, ?_⟩
      · rintro rfl
        cases entries with
        | nil => exact hWritable.1 rfl
        | cons entry entries => cases hValues
      · show dictOf (pairValues arithmetic id pairs) = _
        rw [hValues]
        exact dictOf_entries hKeys.1

theorem exists_written_items : ∀ items : List JsonLike, ItemKeys items → WritableItems items →
    ∃ literals, FullItems literals ∧ itemValues arithmetic id literals = ofItems items
  | [], _, _ => ⟨[], trivial, rfl⟩
  | item :: items, hKeys, hWritable => by
      obtain ⟨literal, hFull, hValue⟩ := exists_written item hKeys.1 hWritable.1
      obtain ⟨literals, hFulls, hValues⟩ := exists_written_items items hKeys.2 hWritable.2
      refine ⟨literal :: literals, ⟨hFull, hFulls⟩, ?_⟩
      unfold itemValues ofItems
      rw [hValue, hValues]

theorem exists_written_entries : ∀ entries : List (String × JsonLike), EntryKeys entries →
    WritableEntries entries → ∃ pairs, FullPairs pairs ∧
      pairValues arithmetic id pairs = entryPairs entries
  | [], _, _ => ⟨[], trivial, rfl⟩
  | (key, value) :: entries, hKeys, hWritable => by
      obtain ⟨⟨quote, hBody⟩, hValue, hEntries⟩ := hWritable
      obtain ⟨literal, hFull, hRead⟩ := exists_written value hKeys.1 hValue
      obtain ⟨pairs, hFulls, hReads⟩ := exists_written_entries entries hKeys.2 hEntries
      refine ⟨(⟨quote, key.toList, hBody⟩, literal) :: pairs, ⟨hFull, hFulls⟩, ?_⟩
      unfold pairValues
      rw [hRead, hReads]
      rfl

end

/-! ### Reading -/

theorem Number.toPy_ne (number : Number ω) : (∀ text, number.toPy ≠ .str text) ∧
    (∀ items, number.toPy ≠ .list items) ∧ ∀ entries, number.toPy ≠ .dict entries := by
  cases number with
  | int value => simp [toPy]
  | float it => simp [toPy]

theorem str_of_value {literal : Literal} {text : TokenText}
    (hValue : literal.value arithmetic id = .str text) :
    ∃ token, literal = .str token ∧ token.body = text := by
  cases literal with
  | str token => exact ⟨token, rfl, PyValue.str.inj hValue⟩
  | number numeral => exact absurd hValue ((arithmetic.number numeral).toPy_ne.1 text)
  | negative numeral => exact absurd hValue ((arithmetic.negated numeral).toPy_ne.1 text)
  | _ => cases hValue

theorem list_of_value {literal : Literal} {values : List (PyValue ω)}
    (hValue : literal.value arithmetic id = .list values) :
    ∃ items, literal = .list items ∧ itemValues arithmetic id items = values := by
  cases literal with
  | list items => exact ⟨items, rfl, PyValue.list.inj hValue⟩
  | number numeral => exact absurd hValue ((arithmetic.number numeral).toPy_ne.2.1 values)
  | negative numeral => exact absurd hValue ((arithmetic.negated numeral).toPy_ne.2.1 values)
  | _ => cases hValue

theorem dict_of_value {literal : Literal} {entries : List (PyValue ω × PyValue ω)}
    (hValue : literal.value arithmetic id = .dict entries) :
    ∃ pairs, literal = .dict pairs ∧
      (Assoc.ofPairs (pairValues arithmetic id pairs)).map (Prod.map .str id) = entries := by
  cases literal with
  | dict pairs => exact ⟨pairs, rfl, PyValue.dict.inj hValue⟩
  | number numeral => exact absurd hValue ((arithmetic.number numeral).toPy_ne.2.2 entries)
  | negative numeral => exact absurd hValue ((arithmetic.negated numeral).toPy_ne.2.2 entries)
  | _ => cases hValue

theorem full_of_mem {pairs : List (StringToken × Literal)} (hFull : FullPairs pairs) :
    ∀ pair ∈ pairs, pair.2.Full := by
  induction pairs with
  | nil => exact fun _ hNone => absurd hNone List.not_mem_nil
  | cons pair pairs ih => exact List.forall_mem_cons.mpr ⟨hFull.1, ih hFull.2⟩

theorem pair_of_entry {pairs : List (StringToken × Literal)} (hFull : FullPairs pairs)
    {entry : PyValue ω × PyValue ω} (hEntry : entry ∈
      (Assoc.ofPairs (pairValues arithmetic id pairs)).map (Prod.map .str id)) :
    ∃ (token : StringToken) (literal : Literal), entry.1 = .str token.body ∧
      Written arithmetic entry.2 literal := by
  obtain ⟨found, hFound, rfl⟩ := List.mem_map.mp hEntry
  rcases Assoc.mem_update hFound with hPairs | hNone
  · rw [pairValues_eq_map] at hPairs
    obtain ⟨pair, hPair, rfl⟩ := List.mem_map.mp hPairs
    exact ⟨pair.1, pair.2, rfl, full_of_mem hFull pair hPair, rfl⟩
  · cases hNone

mutual

theorem writable_of_written : ∀ (value : JsonLike) {literal : Literal},
    Written arithmetic (ofJson value) literal → Writable value
  | .null, _, _ => trivial
  | .bool _, _, _ => trivial
  | .int _, _, _ => trivial
  | .str value, _, hWritten => by
      obtain ⟨token, -, hBody⟩ := str_of_value arithmetic hWritten.2
      exact ⟨token.quote, hBody ▸ token.closed⟩
  | .arr items, _, hWritten => by
      obtain ⟨hFull, hValue⟩ := hWritten
      obtain ⟨literals, rfl, hValues⟩ := list_of_value arithmetic hValue
      refine ⟨?_, writable_of_written_items items hFull.2 hValues⟩
      rintro rfl
      cases literals with
      | nil => exact hFull.1 rfl
      | cons literal literals => cases hValues
  | .obj entries, _, hWritten => by
      obtain ⟨hFull, hValue⟩ := hWritten
      obtain ⟨pairs, rfl, hEntries⟩ := dict_of_value arithmetic hValue
      refine ⟨?_, writable_of_written_entries entries ?_⟩
      · rintro rfl
        cases pairs with
        | nil => exact hFull.1 rfl
        | cons pair pairs =>
            have hKey : (pair.1.body : TokenText) ∈
                (Assoc.ofPairs (pairValues arithmetic id (pair :: pairs))).map Prod.fst := by
              rw [Assoc.mem_keys_ofPairs, pairValues_eq_map]
              exact List.mem_cons_self
            rw [List.map_eq_nil_iff.mp hEntries] at hKey
            cases hKey
      · intro entry hEntry
        have hMem : (.str entry.1.toList, ofJson entry.2) ∈ (ofEntries entries :
            List (PyValue ω × PyValue ω)) := by
          rw [ofEntries_eq_map, entryPairs, List.map_map]
          exact List.mem_map_of_mem hEntry
        obtain ⟨token, literal, hKey, hLiteral⟩ :=
          pair_of_entry arithmetic hFull.2 (hEntries ▸ hMem)
        exact ⟨⟨token.quote, (PyValue.str.inj hKey) ▸ token.closed⟩, literal, hLiteral⟩

theorem writable_of_written_items : ∀ (items : List JsonLike) {literals : List Literal},
    FullItems literals → itemValues arithmetic id literals = ofItems items → WritableItems items
  | [], _, _, _ => trivial
  | item :: items, literals, hFull, hValues => by
      cases literals with
      | nil => cases hValues
      | cons literal literals =>
          obtain ⟨hValue, hRest⟩ := List.cons.inj hValues
          exact ⟨writable_of_written item ⟨hFull.1, hValue⟩,
            writable_of_written_items items hFull.2 hRest⟩

theorem writable_of_written_entries : ∀ (entries : List (String × JsonLike)),
    (∀ entry ∈ entries, Quotable entry.1.toList ∧
      ∃ literal, Written arithmetic (ofJson entry.2) literal) → WritableEntries entries
  | [], _ => trivial
  | (_, value) :: entries, hEntries => by
      rw [List.forall_mem_cons] at hEntries
      obtain ⟨⟨hKey, literal, hLiteral⟩, hRest⟩ := hEntries
      exact ⟨hKey, writable_of_written value hLiteral, writable_of_written_entries entries hRest⟩

end

/-! ## The law -/

theorem accepts_flatten (literal : Literal) : Accepts literal.tokens.flatten literal := by
  unfold Accepts
  generalize literal.tokens = tokens
  induction tokens with
  | nil => exact .last rfl
  | cons token tokens ih => exact @Spaced.token [] token tokens.flatten tokens rfl ih

/-- In a world, the tree evaluates to the value whatever the operand holds, and it leaves
the world as it is. -/
def Evaluates [DecidableEq κ] (rt : Runtime ω σ κ) (world : σ) (tree : ParseTree)
    (value : PyValue ω) : Prop :=
  ∀ (operand : PyValue ω) (strict : Bool),
    let run := (ExprEvaluator.mk rt operand strict).evaluate tree world
    run.result = .ok value ∧ run.world = world

variable [DecidableEq κ]

theorem evaluates_iff {world : σ} {literal : Literal} {value : PyValue ω} :
    Evaluates rt world literal.tree value ↔ Written arithmetic value literal := by
  constructor
  · intro hEvaluates
    obtain ⟨hResult, -⟩ := hEvaluates .none false
    by_cases hFull : literal.Full
    · obtain ⟨visits, hStep⟩ :=
        @bigStep_value ω σ κ _ ⟨rt, .none, false⟩ world arithmetic literal [] hFull
      rw [ExprEvaluator.evaluate_eq hStep] at hResult
      exact ⟨hFull, Except.ok.inj hResult⟩
    · obtain ⟨raised, visits, hStep⟩ :=
        @bigStep_raises ω σ κ _ ⟨rt, .none, false⟩ world arithmetic literal [] hFull
      rw [ExprEvaluator.evaluate_eq hStep] at hResult
      cases hResult
  · rintro ⟨hFull, rfl⟩ operand strict
    obtain ⟨visits, hStep⟩ :=
      @bigStep_value ω σ κ _ ⟨rt, operand, strict⟩ world arithmetic literal [] hFull
    rw [ExprEvaluator.evaluate_eq hStep]
    exact ⟨rfl, rfl⟩

/-- The language on numerals: one float, and the negation of integers. -/
def literalRuntime : Runtime Unit Unit Unit :=
  { Templating.numeralRuntime with
    number _ := pure (.object ())
    neg
      | .int value => pure (.int (-value))
      | value => pure value }

def literalArithmetic : Arithmetic literalRuntime where
  number numeral :=
    if numeral.text.all Char.isDigit then .int (Nat.ofDigitChars 10 numeral.text 0) else .float ()
  negated numeral :=
    if numeral.text.all Char.isDigit then .int (-(Nat.ofDigitChars 10 numeral.text 0 : Nat))
    else .float ()
  number_digits numeral hDigits := by rw [if_pos hDigits]
  number_eq numeral hOther := by
    rw [if_neg (by rw [hOther]; exact Bool.false_ne_true)]
    rfl
  negated_digits numeral hDigits := by rw [if_pos hDigits]
  neg_eq numeral := by
    by_cases hDigits : numeral.text.all Char.isDigit = true
    · rw [if_pos hDigits, if_pos hDigits]
      rfl
    · rw [if_neg hDigits, if_neg hDigits]
      rfl

/-- `"it's"`. -/
def apostrophe : StringToken where
  quote := .double
  body := ['i', 't', Quote.single.char, 's']
  closed := by decide

/-- The same string between single quotes. -/
def escapedApostrophe : StringToken where
  quote := .single
  body := ['i', 't', '\\', Quote.single.char, 's']
  closed := by decide

end Literals
end Tracecat
