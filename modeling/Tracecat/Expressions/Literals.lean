import Tracecat.Expressions.BigStep
import Tracecat.Lib.Assoc
import Tracecat.Lib.Numerals

/-!
# Literals

The literals of the expression grammar (`expressions/parser/grammar.py`): strings,
booleans, numerals, `None`, lists and dicts of literals, their texts and their
trees; and what `ExprEvaluator` makes of the trees.
-/

namespace Tracecat
namespace Literals

/-! ## Tokens -/

/-- `\d`. -/
def isDecimal (char : Char) : Bool :=
  Numerals.decimalZeros.any fun first => first ≤ char.toNat && char.toNat < first + 10

/-- `NUMERIC_LITERAL`: `\d+(\.\d+)?`. -/
def isNumeral (text : TokenText) : Bool :=
  let whole := text.takeWhile isDecimal
  !whole.isEmpty &&
    match text.dropWhile isDecimal with
    | [] => true
    | '.' :: fraction => !fraction.isEmpty && fraction.all isDecimal
    | _ => false

/-- A token of `NUMERIC_LITERAL`. -/
structure Numeral where
  text : TokenText
  numeral : isNumeral text = true

inductive Quote
  | single
  | double
  deriving DecidableEq, Repr

def Quote.char : Quote → Char
  | .single => Char.ofNat 0x27
  | .double => '"'

/-- What `STRING_LITERAL` has between its quotes: `(?:[^'\\]|\\.)*`, for either quote. -/
def isBody (quote : Char) : TokenText → Bool
  | [] => true
  | [char] => char != quote && char != '\\'
  | char :: next :: text =>
      -- no newline is matched by `.`
      if char = '\\' then next != '\n' && isBody quote text
      else char != quote && isBody quote (next :: text)

/-- A token of `STRING_LITERAL`. -/
structure StringToken where
  quote : Quote
  body : TokenText
  closed : isBody quote.char body = true

def StringToken.text (token : StringToken) : TokenText :=
  token.quote.char :: token.body ++ [token.quote.char]

/-! ## Literals -/

/-- A literal; a numeral may have a minus sign. -/
inductive Literal
  | str (token : StringToken)
  | bool (value : Bool)
  | none
  | number (numeral : Numeral)
  | negative (numeral : Numeral)
  | list (items : List Literal)
  | dict (pairs : List (StringToken × Literal))

/-- The text of `BOOL_LITERAL`. -/
def boolText (value : Bool) : TokenText :=
  if value then "True".toList else "False".toList

mutual

def Literal.tokens : Literal → List TokenText
  | .str token => [token.text]
  | .bool value => [boolText value]
  | .none => ["None".toList]
  | .number numeral => [numeral.text]
  | .negative numeral => [['-'], numeral.text]
  | .list items => [['[']] ++ itemTokens items ++ [[']']]
  | .dict pairs => [['{']] ++ pairTokens pairs ++ [['}']]

def itemTokens : List Literal → List TokenText
  | [] => []
  | [item] => item.tokens
  | item :: next :: items => item.tokens ++ [[',']] ++ itemTokens (next :: items)

def pairTokens : List (StringToken × Literal) → List TokenText
  | [] => []
  | [(key, value)] => [key.text, [':']] ++ value.tokens
  | (key, value) :: next :: pairs =>
      [key.text, [':']] ++ value.tokens ++ [[',']] ++ pairTokens (next :: pairs)

end

/-- `WS`, which is ignored between tokens. -/
def isBlank (char : Char) : Bool :=
  char = ' ' || char = '\t' || char = Char.ofNat 0x0c || char = '\r' || char = '\n'

/-- A text that consists of tokens and of white space around them. -/
inductive Spaced : List TokenText → TokenText → Prop
  | last {blank : TokenText} (hBlank : blank.all isBlank = true) : Spaced [] blank
  | token {blank token text : TokenText} {tokens : List TokenText}
      (hBlank : blank.all isBlank = true) (hText : Spaced tokens text) :
      Spaced (token :: tokens) (blank ++ token ++ text)

def Accepts (text : TokenText) (literal : Literal) : Prop :=
  Spaced literal.tokens text

mutual

/-- The tree that the parser builds: an absent `[arg_list]` or `[kvpair ("," kvpair)*]` has
a placeholder. -/
def Literal.tree : Literal → ParseTree
  | .str token => .tree .literal [.token .stringLiteral token.text]
  | .bool value => .tree .literal [.token .boolLiteral (boolText value)]
  | .none => .tree .literal [.token .noneLiteral "None".toList]
  | .number numeral => .tree .literal [.token .numericLiteral numeral.text]
  | .negative numeral =>
      .tree .negOp [.tree .literal [.token .numericLiteral numeral.text]]
  | .list [] => .tree .list [.absent]
  | .list (item :: items) => .tree .list [.tree .argList (item.tree :: itemTrees items)]
  | .dict [] => .tree .dict [.absent]
  | .dict ((key, value) :: pairs) =>
      .tree .dict
        (.tree .kvpair [.token .stringLiteral key.text, value.tree] :: pairTrees pairs)

def itemTrees : List Literal → List ParseTree
  | [] => []
  | item :: items => item.tree :: itemTrees items

def pairTrees : List (StringToken × Literal) → List ParseTree
  | [] => []
  | (key, value) :: pairs =>
      .tree .kvpair [.token .stringLiteral key.text, value.tree] :: pairTrees pairs

end

/-! ## Values -/

variable {ω σ κ : Type} [DecidableEq κ]

inductive Number (ω : Type)
  | int (value : Int)
  | float (it : ω)

def Number.toPy : Number ω → PyValue ω
  | .int value => .int value
  | .float it => .object it

/-- What `int`, `float` and the unary minus of the language make of numerals. -/
structure Arithmetic (rt : Runtime ω σ κ) where
  number : Numeral → Number ω
  negated : Numeral → Number ω
  number_digits : ∀ numeral, numeral.text.all Char.isDigit = true →
    number numeral = .int (Nat.ofDigitChars 10 numeral.text 0)
  number_eq : ∀ numeral, numeral.text.all Char.isDigit = false →
    rt.number numeral.text = pure (number numeral).toPy
  negated_digits : ∀ numeral, numeral.text.all Char.isDigit = true →
    negated numeral = .int (-(Nat.ofDigitChars 10 numeral.text 0 : Nat))
  neg_eq : ∀ numeral, rt.neg (number numeral).toPy = pure (negated numeral).toPy

/-- The dict of pairs, of which the last with a key wins. -/
def dictOf (pairs : List (TokenText × PyValue ω)) : PyValue ω :=
  .dict ((Assoc.ofPairs pairs).map (Prod.map .str id))

section Values

variable {rt : Runtime ω σ κ} (arithmetic : Arithmetic rt) (string : TokenText → TokenText)

mutual

/-- The value of a literal, for what a string between its quotes means. -/
def Literal.value : Literal → PyValue ω
  | .str token => .str (string token.body)
  | .bool value => .bool value
  | .none => .none
  | .number numeral => (arithmetic.number numeral).toPy
  | .negative numeral => (arithmetic.negated numeral).toPy
  | .list items => .list (itemValues items)
  | .dict pairs => dictOf (pairValues pairs)

def itemValues : List Literal → List (PyValue ω)
  | [] => []
  | item :: items => item.value :: itemValues items

def pairValues : List (StringToken × Literal) → List (TokenText × PyValue ω)
  | [] => []
  | (key, value) :: pairs => (string key.body, value.value) :: pairValues pairs

end

end Values

mutual

/-- No list and no dict is empty. -/
def Literal.Full : Literal → Prop
  | .str _ => True
  | .bool _ => True
  | .none => True
  | .number _ => True
  | .negative _ => True
  | .list items => items ≠ [] ∧ FullItems items
  | .dict pairs => pairs ≠ [] ∧ FullPairs pairs

def FullItems : List Literal → Prop
  | [] => True
  | item :: items => item.Full ∧ FullItems items

def FullPairs : List (StringToken × Literal) → Prop
  | [] => True
  | (_, value) :: pairs => value.Full ∧ FullPairs pairs

end

/-! ## Evaluation -/

open ExprEvaluator

section Evaluation

variable {evaluator : ExprEvaluator ω σ κ} {address : Address} {world : σ}

theorem bigStep_token {type : Terminal} {text : TokenText} {value : PyValue ω}
    (hToken : evaluator.terminal type text = pure value) :
    ∃ visits, BigStep evaluator address (.tree .literal [.token type text]) world (.ok value)
      visits world := by
  have hMethod : (evaluator.terminal type text).run.run world = (.ok value, world) := by
    rw [hToken]
    rfl
  have hChild := @BigStep.token ω σ κ _ evaluator (address ++ [0]) type text world world _ hMethod
  have hNil := @BigSteps.nil ω σ κ _ evaluator address 1 world
  have hChildren := BigSteps.cons hChild hNil
  exact ⟨_, @BigStep.apply ω σ κ _ evaluator address .literal _ world world world _ _ (.ok value)
    (by decide) hChildren rfl⟩

theorem bigStep_node {data : Rule} {children : List ParseTree} {values : List (PyValue ω)}
    {value : PyValue ω} (hData : data ≠ .ternary)
    (hChildren : ∃ visits, BigSteps evaluator address 0 children world (.ok values) visits world)
    (hRule : evaluator.rule data values = pure value) :
    ∃ visits, BigStep evaluator address (.tree data children) world (.ok value) visits world := by
  obtain ⟨visits, hSteps⟩ := hChildren
  have hMethod : (evaluator.rule data values).run.run world = (.ok value, world) := by
    rw [hRule]
    rfl
  exact ⟨_, BigStep.apply hData hSteps hMethod⟩

theorem bigSteps_cons {position : Nat} {child : ParseTree} {children : List ParseTree}
    {value : PyValue ω} {values : List (PyValue ω)}
    (hChild : ∃ visits, BigStep evaluator (address ++ [position]) child world (.ok value) visits
      world)
    (hChildren : ∃ visits, BigSteps evaluator address (position + 1) children world (.ok values)
      visits world) :
    ∃ visits, BigSteps evaluator address position (child :: children) world
      (.ok (value :: values)) visits world := by
  obtain ⟨_, hFirst⟩ := hChild
  obtain ⟨_, hRest⟩ := hChildren
  exact ⟨_, BigSteps.cons hFirst hRest⟩

theorem bigSteps_single {position : Nat} {child : ParseTree} {value : PyValue ω}
    (hChild : ∃ visits, BigStep evaluator (address ++ [position]) child world (.ok value) visits
      world) :
    ∃ visits, BigSteps evaluator address position [child] world (.ok [value]) visits world :=
  bigSteps_cons hChild ⟨_, .nil _ _ _⟩

omit [DecidableEq κ] in
theorem terminal_string (token : StringToken) :
    evaluator.terminal .stringLiteral token.text = pure (.str token.body) := by
  show (pure (.str ((token.quote.char :: token.body ++ [token.quote.char]).drop 1).dropLast) :
    PyM σ (PyValue ω)) = _
  rw [List.cons_append, List.drop_succ_cons, List.drop_zero, List.dropLast_concat]

omit [DecidableEq κ] in
theorem terminal_bool (value : Bool) :
    evaluator.terminal .boolLiteral (boolText value) = pure (.bool value) := by
  cases value with
  | false => rfl
  | true => rfl

omit [DecidableEq κ] in
theorem terminal_number (arithmetic : Arithmetic evaluator.runtime) (numeral : Numeral) :
    evaluator.terminal .numericLiteral numeral.text = pure (arithmetic.number numeral).toPy := by
  have hNumeral := numeral.numeral
  have hNonempty : numeral.text.isEmpty = false := by
    cases hText : numeral.text with
    | nil =>
        rw [hText] at hNumeral
        exact absurd hNumeral (by decide)
    | cons char text => rfl
  show evaluator.numericLiteral numeral.text = _
  unfold numericLiteral
  by_cases hDigits : numeral.text.all Char.isDigit = true
  · rw [hDigits, hNonempty, arithmetic.number_digits numeral hDigits]
    rfl
  · have hOther := Bool.not_eq_true _ ▸ hDigits
    rw [hOther, arithmetic.number_eq numeral hOther]
    rfl

/-! ### Dicts -/

/-- What `kvpair` makes of a pair. -/
def kvpairOf (pair : TokenText × PyValue ω) : PyValue ω :=
  .tuple [.str pair.1, pair.2]

theorem setEntry_str (rt : Runtime ω σ κ) (key : TokenText) (value : PyValue ω)
    (entries : List (TokenText × PyValue ω)) :
    PyValue.setEntry rt (.str key) value (entries.map (Prod.map .str id)) =
      (Assoc.set key value entries).map (Prod.map .str id) := by
  induction entries with
  | nil => rfl
  | cons entry entries ih =>
      have hHash : ((Prod.map .str id entry : PyValue ω × PyValue ω).1).hashKey rt =
          (PyValue.str key).hashKey rt ↔ entry.1 = key := by
        constructor
        · intro hSame
          exact KeyPiece.str.inj (List.cons.inj (Option.some.inj hSame)).1
        · exact fun hSame => hSame ▸ rfl
      rw [List.map_cons, Assoc.set]
      unfold PyValue.setEntry
      by_cases hKey : entry.1 = key
      · rw [if_pos hKey, if_pos (hHash.mpr hKey), ← hKey]
        rfl
      · rw [if_neg hKey, if_neg fun hSame => hKey (hHash.mp hSame), ih]
        rfl

theorem foldlM_dictElement (pairs entries : List (TokenText × PyValue ω)) :
    (pairs.map kvpairOf).foldlM evaluator.dictElement (entries.map (Prod.map .str id)) =
      pure ((Assoc.update entries pairs).map (Prod.map .str id)) := by
  induction pairs generalizing entries with
  | nil => rfl
  | cons pair pairs ih =>
      have hElement : evaluator.dictElement (entries.map (Prod.map .str id)) (kvpairOf pair) =
          pure ((Assoc.set pair.1 pair.2 entries).map (Prod.map .str id)) := by
        rw [← setEntry_str evaluator.runtime]
        rfl
      rw [List.map_cons, List.foldlM_cons, hElement, pure_bind, ih]
      rfl

theorem rule_dict (pairs : List (TokenText × PyValue ω)) :
    evaluator.rule .dict (pairs.map kvpairOf) = pure (dictOf pairs) := by
  show PyValue.dict <$> (pairs.map kvpairOf).foldlM evaluator.dictElement
    (([] : List (TokenText × PyValue ω)).map (Prod.map .str id)) = _
  rw [foldlM_dictElement]
  rfl

theorem bigStep_key (key : StringToken) :
    ∃ visits, BigStep evaluator address (.token .stringLiteral key.text) world
      (.ok (.str key.body)) visits world := by
  refine ⟨_, @BigStep.token ω σ κ _ evaluator _ _ _ world world (.ok (.str key.body)) ?_⟩
  rw [terminal_string]
  rfl

theorem bigStep_pair (key : StringToken) {node : ParseTree} {value : PyValue ω}
    (hValue : ∃ visits, BigStep evaluator (address ++ [1]) node world (.ok value) visits world) :
    ∃ visits, BigStep evaluator address (.tree .kvpair [.token .stringLiteral key.text, node])
      world (.ok (kvpairOf (key.body, value))) visits world :=
  bigStep_node (by decide) (bigSteps_cons (bigStep_key key) (bigSteps_single hValue)) rfl

/-! ### Literals without an empty list or dict -/

section Literals

variable (arithmetic : Arithmetic evaluator.runtime)

mutual

/-- A literal without an empty list or dict has its value, with the strings as they stand
between their quotes. -/
theorem bigStep_value : ∀ (literal : Literal) (address : Address), literal.Full →
    ∃ visits, BigStep evaluator address literal.tree world (.ok (literal.value arithmetic id))
      visits world
  | .str token, _, _ => bigStep_token (terminal_string token)
  | .bool value, _, _ => bigStep_token (terminal_bool value)
  | .none, _, _ => bigStep_token rfl
  | .number numeral, _, _ => bigStep_token (terminal_number arithmetic numeral)
  | .negative numeral, address, _ =>
      bigStep_node (by decide)
        (bigSteps_single (bigStep_token (terminal_number arithmetic numeral)))
        (arithmetic.neg_eq numeral)
  | .list [], _, hFull => absurd rfl hFull.1
  | .list (item :: items), address, hFull => by
      have hItems := bigSteps_items (item :: items) (address ++ [0]) 0 hFull.2
      have hData : Rule.argList ≠ .ternary := by decide
      have hArgs := bigStep_node hData hItems rfl
      exact bigStep_node (by decide) (bigSteps_single hArgs) rfl
  | .dict [], _, hFull => absurd rfl hFull.1
  | .dict (pair :: pairs), address, hFull =>
      bigStep_node (by decide) (bigSteps_pairs (pair :: pairs) address 0 hFull.2) (rule_dict _)

theorem bigSteps_items : ∀ (items : List Literal) (address : Address) (position : Nat),
    FullItems items → ∃ visits, BigSteps evaluator address position (itemTrees items) world
      (.ok (itemValues arithmetic id items)) visits world
  | [], _, _, _ => ⟨_, .nil _ _ _⟩
  | item :: items, address, position, hFull =>
      bigSteps_cons (bigStep_value item (address ++ [position]) hFull.1)
        (bigSteps_items items address (position + 1) hFull.2)

theorem bigSteps_pairs : ∀ (pairs : List (StringToken × Literal)) (address : Address)
    (position : Nat), FullPairs pairs →
      ∃ visits, BigSteps evaluator address position (pairTrees pairs) world
        (.ok ((pairValues arithmetic id pairs).map kvpairOf)) visits world
  | [], _, _, _ => ⟨_, .nil _ _ _⟩
  | (key, value) :: pairs, address, position, hFull =>
      bigSteps_cons (bigStep_pair key (bigStep_value value _ hFull.1))
        (bigSteps_pairs pairs address (position + 1) hFull.2)

end

/-! ### Literals with one -/

theorem bigStep_node_error {data : Rule} {children : List ParseTree} (hData : data ≠ .ternary)
    (hChildren : ∃ raised visits, BigSteps evaluator address 0 children world (.error raised)
      visits world) :
    ∃ raised visits, BigStep evaluator address (.tree data children) world (.error raised) visits
      world := by
  obtain ⟨raised, visits, hSteps⟩ := hChildren
  exact ⟨raised, visits, BigStep.operand hData hSteps⟩

theorem bigStep_absent_error {data : Rule} {error : PyError} (hData : data ≠ .ternary)
    (hRule : evaluator.rule data [.none] = throw error) :
    ∃ raised visits, BigStep evaluator address (.tree data [.absent]) world (.error raised) visits
      world := by
  have hChild := @BigStep.absent ω σ κ _ evaluator (address ++ [0]) world
  have hChildren := BigSteps.cons hChild (.nil address 1 world)
  have hMethod : (evaluator.rule data [.none]).run.run world = (.error error, world) := by
    rw [hRule]
    rfl
  exact ⟨_, _, BigStep.apply hData hChildren hMethod⟩

theorem bigStep_pair_error (key : StringToken) {node : ParseTree}
    (hValue : ∃ raised visits, BigStep evaluator (address ++ [1]) node world (.error raised)
      visits world) :
    ∃ raised visits, BigStep evaluator address
      (.tree .kvpair [.token .stringLiteral key.text, node]) world (.error raised) visits world := by
  obtain ⟨raised, _, hStep⟩ := hValue
  have hKey : ∃ visits, BigStep evaluator (address ++ [0]) (.token .stringLiteral key.text) world
      (.ok (.str key.body)) visits world := bigStep_key key
  obtain ⟨_, hKey⟩ := hKey
  exact bigStep_node_error (by decide) ⟨raised, _, BigSteps.later hKey (BigSteps.stop hStep)⟩

include arithmetic

-- a literal uses the arithmetic through its items and pairs only
set_option linter.unusedSectionVars false in
mutual

theorem bigStep_raises : ∀ (literal : Literal) (address : Address), ¬ literal.Full →
    ∃ raised visits, BigStep evaluator address literal.tree world (.error raised) visits world
  | .str _, _, hEmpty => absurd trivial hEmpty
  | .bool _, _, hEmpty => absurd trivial hEmpty
  | .none, _, hEmpty => absurd trivial hEmpty
  | .number _, _, hEmpty => absurd trivial hEmpty
  | .negative _, _, hEmpty => absurd trivial hEmpty
  | .list [], _, _ => bigStep_absent_error (by decide) rfl
  | .list (item :: items), address, hEmpty => by
      have hItems := bigSteps_items_raise (item :: items) (address ++ [0]) 0
        fun hFull => hEmpty ⟨List.cons_ne_nil _ _, hFull⟩
      have hData : Rule.argList ≠ .ternary := by decide
      obtain ⟨raised, visits, hArgs⟩ := bigStep_node_error hData hItems
      exact bigStep_node_error (by decide) ⟨raised, visits, BigSteps.stop hArgs⟩
  | .dict [], _, _ => bigStep_absent_error (by decide) rfl
  | .dict (pair :: pairs), address, hEmpty =>
      bigStep_node_error (by decide) (bigSteps_pairs_raise (pair :: pairs) address 0
        fun hFull => hEmpty ⟨List.cons_ne_nil _ _, hFull⟩)

theorem bigSteps_items_raise : ∀ (items : List Literal) (address : Address) (position : Nat),
    ¬ FullItems items → ∃ raised visits,
      BigSteps evaluator address position (itemTrees items) world (.error raised) visits world
  | [], _, _, hEmpty => absurd trivial hEmpty
  | item :: items, address, position, hEmpty => by
      by_cases hItem : item.Full
      · obtain ⟨_, hFirst⟩ := bigStep_value arithmetic item (address ++ [position]) hItem
        obtain ⟨raised, _, hRest⟩ := bigSteps_items_raise items address (position + 1)
          fun hItems => hEmpty ⟨hItem, hItems⟩
        exact ⟨raised, _, BigSteps.later hFirst hRest⟩
      · obtain ⟨raised, visits, hFirst⟩ := bigStep_raises item (address ++ [position]) hItem
        exact ⟨raised, visits, BigSteps.stop hFirst⟩

theorem bigSteps_pairs_raise : ∀ (pairs : List (StringToken × Literal)) (address : Address)
    (position : Nat), ¬ FullPairs pairs → ∃ raised visits,
      BigSteps evaluator address position (pairTrees pairs) world (.error raised) visits world
  | [], _, _, hEmpty => absurd trivial hEmpty
  | (key, value) :: pairs, address, position, hEmpty => by
      by_cases hValue : value.Full
      · have hPair : ∃ visits, BigStep evaluator (address ++ [position])
            (.tree .kvpair [.token .stringLiteral key.text, value.tree]) world
            (.ok (kvpairOf (key.body, value.value arithmetic id))) visits world :=
          bigStep_pair key (bigStep_value arithmetic value _ hValue)
        obtain ⟨_, hPair⟩ := hPair
        obtain ⟨raised, _, hRest⟩ := bigSteps_pairs_raise pairs address (position + 1)
          fun hPairs => hEmpty ⟨hValue, hPairs⟩
        exact ⟨raised, _, BigSteps.later hPair hRest⟩
      · obtain ⟨raised, visits, hPair⟩ := bigStep_pair_error key (bigStep_raises value _ hValue)
        exact ⟨raised, visits, BigSteps.stop hPair⟩

end

end Literals

end Evaluation

end Literals
end Tracecat
