import Tracecat.Properties.LiteralNotation

/-!
# Where an expression in a template ends

Templates around expressions: the pattern ends an expression at the first `}}`,
also where the grammar goes on, and it trims what it takes.
-/

namespace Tracecat
namespace Templating

open Folders (isSpace strip rstrip)
open Stateful (exec)

/-! ## What the pattern takes -/

theorem lazyExpr_le {char : Char} {text : TokenText} (hClosing : closing <:+: text)
    (more : TokenText) : ∃ expr rest, lazyExpr (char :: (text ++ more)) = some (expr, rest) ∧
      expr.length ≤ text.length := by
  induction text generalizing char with
  | nil => exact absurd hClosing (by decide)
  | cons next text ih =>
      rw [lazyExpr]
      cases hAfter : afterClosing (next :: text ++ more) with
      | some rest =>
          refine ⟨[char], rest, rfl, ?_⟩
          rw [List.length_singleton, List.length_cons]
          omega
      | none =>
          rcases List.infix_cons_iff.mp hClosing with hStart | hLater
          · -- a `}}` at this place would have ended the expression
            obtain ⟨after, hText⟩ := hStart
            rw [← hText] at hAfter
            cases hAfter
          · obtain ⟨expr, rest, hLazy, hLength⟩ := @ih next hLater
            refine ⟨char :: expr, rest, ?_, ?_⟩
            · show (lazyExpr (next :: (text ++ more))).map _ = _
              rw [hLazy]
              rfl
            · rw [List.length_cons, List.length_cons]
              omega

theorem rstrip_of_lazyExpr {char : Char} {text expr rest : TokenText}
    (hLazy : lazyExpr (char :: text) = some (expr, rest))
    (hFirst : isSpace char = true → afterClosing text = none) :
    rstrip isSpace expr = expr ∧ ∃ other ∈ expr, isSpace other = false := by
  induction text generalizing char expr with
  | nil =>
      rw [lazyExpr] at hLazy
      cases hLazy
  | cons next text ih =>
      rw [lazyExpr] at hLazy
      cases hAfter : afterClosing (next :: text) with
      | some after =>
          rw [hAfter] at hLazy
          obtain ⟨rfl, -⟩ := Prod.mk.inj (Option.some.inj hLazy)
          have hVisible : isSpace char = false := by
            by_contra hSpace
            rw [hFirst (Bool.not_eq_false _ ▸ hSpace)] at hAfter
            cases hAfter
          have hSome : ∃ other ∈ [char], isSpace other = false :=
            ⟨char, List.mem_cons_self, hVisible⟩
          exact ⟨rstrip_cons hSome, hSome⟩
      | none =>
          rw [hAfter] at hLazy
          obtain ⟨found, hFound, hExpr⟩ := Option.map_eq_some_iff.mp hLazy
          obtain ⟨rfl, rfl⟩ := Prod.mk.inj hExpr
          have hNext : isSpace next = true → afterClosing text = none := by
            intro hSpace
            unfold afterClosing at hAfter ⊢
            rwa [List.dropWhile_cons, if_pos hSpace] at hAfter
          obtain ⟨hTrimmed, other, hOther, hVisible⟩ := @ih next found.1 hFound hNext
          have hSome : ∃ other ∈ char :: found.1, isSpace other = false :=
            ⟨other, List.mem_cons_of_mem _ hOther, hVisible⟩
          rw [rstrip_cons hSome, hTrimmed]
          exact ⟨rfl, hSome⟩

theorem head_lazyExpr {char : Char} {text expr rest : TokenText}
    (hLazy : lazyExpr (char :: text) = some (expr, rest)) : ∃ more, expr = char :: more := by
  rw [lazyExpr] at hLazy
  cases hAfter : afterClosing text with
  | some after =>
      rw [hAfter] at hLazy
      obtain ⟨rfl, -⟩ := Prod.mk.inj (Option.some.inj hLazy)
      exact ⟨[], rfl⟩
  | none =>
      rw [hAfter] at hLazy
      obtain ⟨found, -, hExpr⟩ := Option.map_eq_some_iff.mp hLazy
      exact ⟨found.1, (Prod.mk.inj hExpr).1.symm⟩

theorem spacedExpr_visible {char : Char} {blank text : TokenText} {result : TokenText × TokenText}
    (hBlank : ∀ other ∈ blank, isSpace other = true) (hVisible : isSpace char = false)
    (hLazy : lazyExpr (char :: text) = some result) :
    spacedExpr (blank ++ char :: text) = some result := by
  induction blank with
  | nil =>
      show spacedExpr (char :: text) = _
      rw [spacedExpr, if_neg (by rw [hVisible]; exact Bool.false_ne_true), hLazy]
  | cons space blank ih =>
      rw [List.forall_mem_cons] at hBlank
      rw [List.cons_append, spacedExpr, if_pos hBlank.1, ih hBlank.2, Option.some_or]

/-! ## A template around an expression -/

/-- `'${{ ' + expr + ' }}'`. -/
def delimited (expr : TokenText) : TokenText :=
  template (' ' :: (expr ++ [' ']))

theorem exists_dropWhile {expr : TokenText} (hVisible : ∃ char ∈ expr, isSpace char = false) :
    ∃ char text, expr.dropWhile isSpace = char :: text := by
  apply List.exists_cons_of_ne_nil
  rw [Ne, List.dropWhile_eq_nil_iff]
  intro hBlank
  obtain ⟨char, hChar, hSpace⟩ := hVisible
  rw [hBlank char hChar] at hSpace
  cases hSpace

theorem visible_of_dropWhile {expr : TokenText} {char : Char} {text : TokenText}
    (hExpr : expr.dropWhile isSpace = char :: text) : isSpace char = false := by
  have hHead := List.head?_dropWhile_not isSpace expr
  rw [hExpr] at hHead
  exact hHead

/-- The first expression that is found in the template of a text. -/
theorem exists_finditer {expr : TokenText} {char : Char} {text : TokenText}
    (hExpr : expr.dropWhile isSpace = char :: text) : ∃ found later rest,
      finditer (delimited expr) = found :: later ∧
        lazyExpr (char :: (text ++ (' ' :: closing))) = some (found.expr, rest) := by
  have hSplit : expr = expr.takeWhile isSpace ++ char :: text := by
    rw [← hExpr, List.takeWhile_append_dropWhile]
  have hVisible := visible_of_dropWhile hExpr
  have hInfix : closing <:+: text ++ (' ' :: closing) := ⟨text ++ [' '], [], by simp⟩
  obtain ⟨found, rest, hLazy, -⟩ := @lazyExpr_le char _ hInfix []
  rw [List.append_nil] at hLazy
  have hBlank : ∀ other ∈ ' ' :: expr.takeWhile isSpace, isSpace other = true := by
    rw [List.forall_mem_cons]
    exact ⟨by decide, fun other hOther => List.mem_takeWhile_imp hOther⟩
  have hSpaced := spacedExpr_visible hBlank hVisible hLazy
  have hBody : delimited expr = '$' :: '{' :: '{' ::
      (' ' :: expr.takeWhile isSpace ++ char :: (text ++ (' ' :: closing))) := by
    conv_lhs => rw [hSplit]
    simp [delimited, template, opening]
  obtain ⟨first, hMatch, rfl⟩ : ∃ first, matchTemplate (delimited expr) = some first ∧
      first.expr = found := by
    refine ⟨⟨(delimited expr).take ((delimited expr).length - rest.length), found⟩, ?_, rfl⟩
    rw [hBody]
    show (spacedExpr _).map _ = _
    rw [hSpaced]
    rfl
  obtain ⟨tail, hTail⟩ : ∃ tail, delimited expr = '$' :: tail := ⟨_, hBody⟩
  refine ⟨first, (segments (first.template.length - 1) tail).filterMap Segment.found?, rest, ?_,
    hLazy⟩
  rw [finditer, hTail, segments, ← hTail, hMatch]
  rfl

variable {ω σ κ : Type} [DecidableEq κ] (evaluation : Evaluation ω σ κ)

structure Delimits (expr : TokenText) : Prop where
  /-- The template evaluates as the expression does. -/
  evaluates : ∀ world, exec (evaluation.evalTemplatedObject (.str (delimited expr))) world =
    exec (evaluation.result expr) world
  /-- The traversal finds the expression and no other. -/
  extracts : traverseExpressions (.str (delimited expr) : PyValue ω) = [expr]

theorem infix_delimited {expr : TokenText} (hInfix : closing <:+: ' ' :: (expr ++ [' ']) ++ ['}']) :
    closing <:+: expr := by
  have hTail : closing <:+: expr ++ [' ', '}'] := by
    rcases List.infix_cons_iff.mp hInfix with hStart | hLater
    · obtain ⟨after, hText⟩ := hStart
      cases hText
    · have hAssoc : expr ++ [' '] ++ ['}'] = expr ++ [' ', '}'] := by simp
      exact hAssoc ▸ hLater
  clear hInfix
  induction expr with
  | nil => exact absurd hTail (by decide)
  | cons char expr ih =>
      rcases List.infix_cons_iff.mp hTail with hStart | hLater
      · obtain ⟨after, hText⟩ := hStart
        obtain ⟨rfl, hRest⟩ := List.cons.inj hText
        cases expr with
        | nil => cases hRest
        | cons next expr =>
            obtain ⟨rfl, -⟩ := List.cons.inj hRest
            exact ⟨[], expr, rfl⟩
      · exact List.infix_cons (ih hLater)

theorem traverseExpressions_str (text : TokenText) :
    traverseExpressions (.str text : PyValue ω) = (finditer text).map TemplateMatch.expr := by
  show (traverseNodes (.str text)).flatMap _ = _
  unfold traverseNodes
  exact List.flatMap_singleton _ _

/-- A text that is trimmed begins and ends with what is visible. -/
theorem eq_of_strip {expr : TokenText} {char : Char} {text : TokenText}
    (hExpr : expr.dropWhile isSpace = char :: text) (hTrimmed : strip expr = expr) :
    expr = char :: text ∧ rstrip isSpace (char :: text) = char :: text := by
  unfold strip at hTrimmed
  rw [hExpr] at hTrimmed
  have hShort := (List.rdropWhile_prefix isSpace (l := char :: text)).length_le
  rw [← rstrip_eq, hTrimmed, ← hExpr] at hShort
  have hSame := (List.dropWhile_suffix isSpace (l := expr)).eq_of_length_le hShort
  rw [hExpr] at hSame
  exact ⟨hSame.symm, by rw [hTrimmed, hSame]⟩

theorem delimits_of_trimmed {expr : TokenText} (hVisible : ∃ char ∈ expr, isSpace char = false)
    (hTrimmed : strip expr = expr) (hClosed : ¬ closing <:+: expr) :
    Delimits evaluation expr := by
  have hInner : Inner (' ' :: (expr ++ [' '])) := by
    refine ⟨fun hInfix => hClosed (infix_delimited hInfix), ?_⟩
    obtain ⟨char, hChar, hSpace⟩ := hVisible
    exact ⟨char, List.mem_cons_of_mem _ (List.mem_append_left _ hChar), hSpace⟩
  have hStrip : strip (' ' :: (expr ++ [' '])) = expr := by
    obtain ⟨char, text, hExpr⟩ := exists_dropWhile hVisible
    obtain ⟨rfl, hRight⟩ := eq_of_strip hExpr hTrimmed
    have hSpace := visible_of_dropWhile hExpr
    rw [strip_cons_space (by decide), List.cons_append, strip_cons_visible hSpace, rstrip_eq,
      List.rdropWhile_concat_pos _ _ _ (by decide), ← rstrip_eq,
      ← rstrip_cons ⟨char, List.mem_cons_self, hSpace⟩, hRight]
  have hEmpty : ¬ opening <:+: [] := by decide
  let line : Alternation :=
    { parts := [([], ' ' :: (expr ++ [' ']))]
      last := []
      literals := List.forall_mem_singleton.mpr hEmpty
      lastLiteral := by decide
      inners := List.forall_mem_singleton.mpr hInner }
  have hText : line.text = delimited expr := by
    show [] ++ (template (' ' :: (expr ++ [' '])) ++ []) = _
    rw [List.append_nil]
    rfl
  constructor
  · intro world
    have hOnly := @operator_of_only ω σ κ _ evaluation line _ rfl (Or.inl rfl)
    rw [hText, hStrip] at hOnly
    show exec (evaluation.operator (delimited expr)) world = _
    rw [hOnly]
  · have hSegments := segments_template hInner []
    rw [List.append_nil] at hSegments
    rw [traverseExpressions_str, finditer, delimited, hSegments]
    show [strip (' ' :: (expr ++ [' ']))] = _
    rw [hStrip]

theorem trimmed_of_delimits {expr : TokenText} (hDelimits : Delimits evaluation expr) {char : Char}
    {text : TokenText} (hExpr : expr.dropWhile isSpace = char :: text) (hChar : char ≠ '}') :
    strip expr = expr ∧ ¬ closing <:+: expr := by
  obtain ⟨first, later, rest, hFind, hLazy⟩ := exists_finditer hExpr
  have hExtracts := hDelimits.extracts
  rw [traverseExpressions_str, hFind] at hExtracts
  have hFirst : first.expr = expr := (List.cons.inj hExtracts).1
  rw [hFirst] at hLazy
  have hVisible := visible_of_dropWhile hExpr
  have hSame : expr = char :: text := by
    obtain ⟨more, rfl⟩ := head_lazyExpr hLazy
    rwa [List.dropWhile_cons, if_neg (by rw [hVisible]; exact Bool.false_ne_true)] at hExpr
  have hRight := (rstrip_of_lazyExpr hLazy fun hSpace => by
    rw [hVisible] at hSpace
    cases hSpace).1
  constructor
  · unfold strip
    rw [hExpr, ← hSame, hRight]
  · intro hInfix
    rw [hSame] at hInfix
    rcases List.infix_cons_iff.mp hInfix with hStart | hLater
    · obtain ⟨after, hText⟩ := hStart
      exact hChar (List.cons.inj hText).1.symm
    · obtain ⟨short, left, hShort, hLength⟩ := @lazyExpr_le char text hLater (' ' :: closing)
      rw [hLazy] at hShort
      obtain ⟨rfl, -⟩ := Prod.mk.inj (Option.some.inj hShort)
      rw [hSame, List.length_cons] at hLength
      omega

/-- A template delimits an expression, for every operand and world, if and only if the
expression has no `}}` in it and no white space around it.  The grammar has no expression
that is blank or that begins with a brace that closes. -/
theorem delimits_iff
    (hParse : ∀ text tree, evaluation.parse text = .ok tree →
      ∃ char, (text.dropWhile isSpace).head? = some char ∧ char ≠ '}')
    {expr : TokenText} {tree : ParseTree} (hAccepts : evaluation.parse expr = .ok tree) :
    Delimits evaluation expr ↔ strip expr = expr ∧ ¬ closing <:+: expr := by
  obtain ⟨char, hHead, hChar⟩ := hParse expr tree hAccepts
  obtain ⟨text, hExpr⟩ := List.head?_eq_some_iff.mp hHead
  constructor
  · intro hDelimits
    exact trimmed_of_delimits evaluation hDelimits hExpr hChar
  · rintro ⟨hTrimmed, hClosed⟩
    have hVisible : ∃ other ∈ expr, isSpace other = false :=
      ⟨char, (List.dropWhile_suffix isSpace).subset (hExpr ▸ List.mem_cons_self),
        visible_of_dropWhile hExpr⟩
    exact delimits_of_trimmed evaluation hVisible hTrimmed hClosed

/-! ## Runs -/

open Literals

/-- A parser that knows one literal, written without white space. -/
def literalEvaluation (literal : Literal) : Evaluation Unit Unit Unit where
  parse text :=
    if text = literal.tokens.flatten then .ok literal.tree else .error "No terminal matches"
  evaluator := { runtime := literalRuntime, operand := .none, strict := false }
  strOther _ := pure []

theorem parse_literalEvaluation {literal : Literal} {text : TokenText} {tree : ParseTree} :
    (literalEvaluation literal).parse text = .ok tree ↔
      text = literal.tokens.flatten ∧ literal.tree = tree := by
  show (if text = literal.tokens.flatten then Except.ok literal.tree
    else .error "No terminal matches") = .ok tree ↔ _
  by_cases hText : text = literal.tokens.flatten
  · rw [if_pos hText, Except.ok.injEq, and_iff_right hText]
  · rw [if_neg hText]
    constructor
    · intro hError
      cases hError
    · exact fun hSame => absurd hSame.1 hText

def keyToken (char : Char) (hChar : isBody '"' [char] = true) : StringToken where
  quote := .double
  body := [char]
  closed := hChar

/-- `{"b":1}`. -/
def innerDict : Literal := .dict [(keyToken 'b' (by decide), .number (numeralOf 1))]

/-- `{"a":{"b":1}}`. -/
def nestedDict : Literal := .dict [(keyToken 'a' (by decide), innerDict)]

/-- A dict in a template. -/
theorem innerDict_delimited :
    Delimits (literalEvaluation innerDict) "\x7b\"b\":1\x7d".toList := by
  have hParse : ∀ text tree, (literalEvaluation innerDict).parse text = .ok tree →
      ∃ char, (text.dropWhile isSpace).head? = some char ∧ char ≠ '}' := by
    intro text tree hText
    rw [(parse_literalEvaluation.mp hText).1]
    exact ⟨'{', by decide, by decide⟩
  have hAccepts : (literalEvaluation innerDict).parse "\x7b\"b\":1\x7d".toList =
      .ok innerDict.tree := parse_literalEvaluation.mpr ⟨by decide, rfl⟩
  exact (delimits_iff (literalEvaluation innerDict) hParse hAccepts).mpr ⟨by decide, by decide⟩

/-- A dict that ends in a dict is cut off before its last brace. -/
theorem nestedDict_not_delimited :
    Accepts "\x7b\"a\":\x7b\"b\":1\x7d\x7d".toList nestedDict ∧
      (literalEvaluation nestedDict).parse "\x7b\"a\":\x7b\"b\":1\x7d\x7d".toList =
          .ok nestedDict.tree ∧
        ¬ Delimits (literalEvaluation nestedDict) "\x7b\"a\":\x7b\"b\":1\x7d\x7d".toList := by
  have hText : "\x7b\"a\":\x7b\"b\":1\x7d\x7d".toList = nestedDict.tokens.flatten := by decide
  refine ⟨hText ▸ accepts_flatten nestedDict, parse_literalEvaluation.mpr ⟨hText, rfl⟩, ?_⟩
  intro hDelimits
  have hExpr : "\x7b\"a\":\x7b\"b\":1\x7d\x7d".toList.dropWhile isSpace =
      '{' :: "\"a\":\x7b\"b\":1\x7d\x7d".toList := by decide
  have hClosed := (trimmed_of_delimits _ hDelimits hExpr (by decide)).2
  exact hClosed (by decide)

end Templating
end Tracecat
