import Tracecat.Lib.Checks
import Tracecat.Lib.Rfc6902
import Tracecat.Mcp.PatchTrees

/-!
# The patch and its specification

What the operations of the editor do to a document, compared with RFC 6902: pointers
that the RFC admits lead to the same places, and containers change in the same way.
-/

namespace Tracecat

namespace JsonPatch

variable {α β : Type}

/-! ## Pointers -/

theorem replacePair_cons {first char : Char} (second into : Char) (hChar : char ≠ first)
    (rest : List Char) :
    replacePair first second into (char :: rest) = char :: replacePair first second into rest := by
  cases rest with
  | nil => rfl
  | cons next rest =>
      rw [replacePair, if_neg fun hBoth => hChar hBoth.1]

/-- A text that the RFC unescapes is unescaped by the two replacements. -/
theorem replacePair_of_unescape {part out : List Char} (hPart : Rfc6902.unescape part = some out) :
    replacePair '~' '0' '~' (replacePair '~' '1' '/' part) = out := by
  induction part using Rfc6902.unescape.induct generalizing out with
  | case1 =>
      cases hPart
      rfl
  | case2 rest ih =>
      rw [Rfc6902.unescape] at hPart
      obtain ⟨tail, hTail, rfl⟩ := Option.map_eq_some_iff.mp hPart
      have hFirst : replacePair '~' '1' '/' ('~' :: '0' :: rest) =
          '~' :: '0' :: replacePair '~' '1' '/' rest := by
        rw [replacePair, if_neg (by decide), replacePair_cons _ _ (by decide)]
      rw [hFirst, replacePair, if_pos ⟨rfl, rfl⟩, ih hTail]
  | case3 rest ih =>
      rw [Rfc6902.unescape] at hPart
      obtain ⟨tail, hTail, rfl⟩ := Option.map_eq_some_iff.mp hPart
      rw [replacePair, if_pos ⟨rfl, rfl⟩, replacePair_cons _ _ (by decide), ih hTail]
  | case4 rest hZero hOne =>
      rw [Rfc6902.unescape] at hPart
      · cases hPart
      · exact hZero
      · exact hOne
  | case5 char rest hZero hOne hTilde ih =>
      have hChar : char ≠ '~' := fun hEq => hTilde hEq
      rw [Rfc6902.unescape] at hPart
      · obtain ⟨tail, hTail, rfl⟩ := Option.map_eq_some_iff.mp hPart
        rw [replacePair_cons _ _ hChar, replacePair_cons _ _ hChar, ih hTail]
      · exact hZero
      · exact hOne
      · exact hTilde

/-- A pointer with a first token that is not empty. -/
def HasFirstToken (path : String) : Prop :=
  startsWithSlash path = true ∧ (pathParts path).head? ≠ some []

instance (path : String) : Decidable (HasFirstToken path) := inferInstanceAs (Decidable (_ ∧ _))

theorem decode_of_firstToken {path : String} (hFirst : HasFirstToken path) :
    decodeJsonPointer path = .ok ((pathParts path).map unescapePart) := by
  obtain ⟨hSlash, hHead⟩ := hFirst
  rw [decodeJsonPointer, hSlash, Bool.not_true, if_neg (by simp), if_neg]
  rintro rfl
  exact hHead (by decide)

theorem pathParts_cons {path : String} {rest : List Char} (hPath : path.toList = '/' :: rest) :
    pathParts path = rest.splitOn '/' := by
  rw [pathParts, hPath, List.splitOn, List.splitOnP_cons_eq_if_modifyHead, if_pos (by simp),
    List.tail_cons]
  rfl

theorem decode_of_parse {path : String} {tokens : List String} (hFirst : HasFirstToken path)
    (hParse : Rfc6902.parsePointer path = some tokens) : decodeJsonPointer path = .ok tokens := by
  rw [decode_of_firstToken hFirst]
  rw [Rfc6902.parsePointer] at hParse
  cases hPath : path.toList with
  | nil =>
      have hSlash := hFirst.1
      simp [startsWithSlash, hPath] at hSlash
  | cons char rest =>
      have hChar : char = '/' := by
        have hSlash := hFirst.1
        simpa [startsWithSlash, hPath] using hSlash
      subst hChar
      rw [hPath] at hParse
      simp only at hParse
      rw [pathParts_cons hPath]
      generalize rest.splitOn '/' = parts at hParse ⊢
      have hParts : ∀ {parts : List (List Char)} {tokens : List String},
          (parts.mapM fun part => String.ofList <$> Rfc6902.unescape part) = some tokens →
          parts.map unescapePart = tokens := by
        intro parts
        induction parts with
        | nil =>
            intro tokens hTokens
            cases hTokens
            rfl
        | cons part parts ih =>
            intro tokens hTokens
            rw [List.mapM_cons] at hTokens
            obtain ⟨token, hToken, hTokens⟩ := Option.bind_eq_some_iff.mp hTokens
            obtain ⟨others, hOthers, hEq⟩ := Option.bind_eq_some_iff.mp hTokens
            cases hEq
            obtain ⟨out, hOut, rfl⟩ := Option.map_eq_some_iff.mp hToken
            rw [List.map_cons, ih hOthers, unescapePart, replacePair_of_unescape hOut]
      rw [hParts hParse]

theorem parse_ne_nil {path : String} {tokens : List String} (hFirst : HasFirstToken path)
    (hParse : Rfc6902.parsePointer path = some tokens) : tokens ≠ [] := by
  have hDecode := decode_of_parse hFirst hParse
  rw [decode_of_firstToken hFirst] at hDecode
  cases hPath : path.toList with
  | nil =>
      have hSlash := hFirst.1
      simp [startsWithSlash, hPath] at hSlash
  | cons char rest =>
      have hChar : char = '/' := by
        have hSlash := hFirst.1
        simpa [startsWithSlash, hPath] using hSlash
      subst hChar
      rw [pathParts_cons hPath] at hDecode
      rintro rfl
      have hNil := List.map_eq_nil_iff.mp (Except.ok.inj hDecode)
      exact List.splitOn_ne_nil _ _ hNil

/-! ## Array indices -/

theorem arrayIndex_eq (token : String) :
    Rfc6902.arrayIndex token =
      if token ≠ "0" ∧ (token.toList.all Char.isDigit = false ∨ token = "" ∨
          token.toList.head? = some '0') then none
      else some (Nat.ofDigitChars 10 token.toList 0) := by
  have hZero : token = "0" ↔ token.toList = ['0'] := by
    rw [← String.toList_inj]
    rfl
  have hEmpty : token = "" ↔ token.toList = [] := by
    rw [← String.toList_inj]
    rfl
  simp only [Rfc6902.arrayIndex, ne_eq, hZero, hEmpty]
  generalize token.toList = chars
  cases chars with
  | nil => simp
  | cons char rest =>
      by_cases hChar : char = '0'
      · subst hChar
        cases rest with
        | nil => simp [Nat.ofDigitChars]
        | cons next rest => simp
      · have hFirst : ¬ (char :: rest = ['0']) := fun hEq => hChar (List.cons.inj hEq).1
        cases hDigits : (char :: rest).all Char.isDigit
        · have hNot : (char.isDigit && char != '0' && rest.all Char.isDigit) = false := by
            rw [List.all_cons] at hDigits
            cases hHead : char.isDigit
            · rfl
            · simpa [hHead, hChar] using hDigits
          simp [hNot, hFirst, hChar]
        · have hAll : (char.isDigit && char != '0' && rest.all Char.isDigit) = true := by
            rw [List.all_cons, Bool.and_eq_true] at hDigits
            simp [hDigits, hChar]
          simp [hAll, hFirst, hChar]

theorem arrayIndex_item (token : String) (length : Nat) :
    ((jsonPointerArrayIndex token length false).map Fin.val).toOption =
      (Rfc6902.arrayIndex token).filter (· < length) := by
  rw [arrayIndex_eq, jsonPointerArrayIndex, dif_neg (by simp)]
  split
  · rfl
  · simp only [Bool.toNat_false, add_zero]
    split
    · rename_i hIndex
      rw [Option.filter_some, if_pos (by simpa using hIndex)]
      rfl
    · rename_i hIndex
      rw [Option.filter_some, if_neg (by simpa using hIndex)]
      rfl

theorem arrayIndex_new (token : String) (length : Nat) :
    ((jsonPointerArrayIndex token length true).map Fin.val).toOption =
      (if token = "-" then some length else Rfc6902.arrayIndex token).filter (· ≤ length) := by
  by_cases hEnd : token = "-"
  · rw [jsonPointerArrayIndex, dif_pos ⟨rfl, hEnd⟩, if_pos hEnd, Option.filter_some,
      if_pos (by simp)]
    rfl
  · rw [jsonPointerArrayIndex, dif_neg (by simp [hEnd]), if_neg hEnd, arrayIndex_eq]
    split
    · rfl
    · simp only [Bool.toNat_true]
      split
      · rename_i hIndex
        rw [Option.filter_some, if_pos (by simpa using Nat.le_of_lt_succ hIndex)]
        rfl
      · rename_i hIndex
        rw [Option.filter_some, if_neg (by simpa [Nat.lt_succ_iff] using hIndex)]
        rfl

/-! ## Containers -/

section Containers

variable (path token : String) (value : JsonTree α) (node : JsonNode α (JsonTree α))

theorem length_shape (items : List (JsonTree α)) :
    (items.map fun _ => ()).length = items.length := List.length_map _

theorem childSlot_position :
    (childSlot path node.shape token).toOption.map Fin.val = Rfc6902.childPosition node token := by
  cases node with
  | atom atom => rfl
  | list items =>
      have hIndex := arrayIndex_item token (items.map fun _ => ()).length
      rw [length_shape items] at hIndex
      rw [Rfc6902.childPosition, ← hIndex, ← length_shape items]
      change ((jsonPointerArrayIndex token (items.map fun _ => ()).length false).toOption.map
        Fin.val) = _
      cases jsonPointerArrayIndex token (items.map fun _ => ()).length false <;> rfl
  | dict entries =>
      have hKeys : JsonNode.position? (entries.map fun entry => (entry.1, ())) token =
          JsonNode.position? entries token := by
        rw [position?_eq_keys, position?_eq_keys, List.map_map]
        rfl
      rw [Rfc6902.childPosition, ← hKeys]
      simp only [childSlot, JsonNode.shape, JsonNode.map]
      split
      · rename_i hNone
        rw [hNone]
        rfl
      · rename_i position hPosition
        exact hPosition.symm

theorem position_bind {γ : Type} (next : Nat → JsonTree α → Option γ) :
    ((Rfc6902.childPosition node token).bind fun position =>
        node.children[position]?.bind (next position)) =
      (childSlot path node.shape token).toOption.bind fun slot =>
        next slot (node.childAt slot) := by
  rw [← childSlot_position path token node]
  cases childSlot path node.shape token with
  | error error => rfl
  | ok slot =>
      change (node.children[slot.val]?.bind (next slot)) = next slot (node.childAt slot)
      rw [node.getElem?_childAt slot]
      rfl

theorem containerAdd_toOption :
    (containerAdd path token value node).toOption = Rfc6902.addChild value token node := by
  cases node with
  | atom atom => rfl
  | list items =>
      rw [containerAdd_list, Rfc6902.addChild, ← arrayIndex_new]
      cases (jsonPointerArrayIndex token items.length true).map Fin.val <;> rfl
  | dict entries =>
      rw [containerAdd, Rfc6902.addChild]
      cases JsonNode.position? entries token <;> rfl

theorem containerReplace_toOption :
    (containerReplace path token value node).toOption =
      (Rfc6902.childPosition node token).map fun position => node.setChild position value := by
  rw [← childSlot_position path token node, containerReplace]
  cases childSlot path node.shape token <;> rfl

end Containers

/-! ## Locations -/

/-- The document with a change of the container that tokens lead to. -/
def descend (change : JsonNode α (JsonTree α) → Option (JsonNode α (JsonTree α))) :
    List String → JsonTree α → Option (JsonTree α)
  | [], .node node => .node <$> change node
  | token :: tokens, .node node => Rfc6902.within (descend change tokens) token node

theorem descend_eq_locate (path : String)
    (change : JsonNode α (JsonTree α) → Option (JsonNode α (JsonTree α))) (tokens : List String)
    (tree : JsonTree α) :
    descend change tokens tree =
      (tree.locate (childSlot path) tokens).toOption.bind fun focus =>
        (change focus.1).map focus.2 := by
  induction tokens generalizing tree with
  | nil =>
      obtain ⟨node⟩ := tree
      rfl
  | cons token tokens ih =>
      obtain ⟨node⟩ := tree
      have hStep := position_bind path token node fun position child =>
        (descend change tokens child).bind fun changed =>
          some (JsonTree.node (node.setChild position changed))
      rw [descend]
      refine hStep.trans ?_
      cases hSlot : childSlot path node.shape token with
      | error error =>
          rw [JsonTree.locate_cons_error rfl hSlot]
          rfl
      | ok slot =>
          rw [JsonTree.locate_cons_ok rfl hSlot (node.getElem?_childAt slot)]
          change (descend change tokens (node.childAt slot)).bind _ = _
          rw [ih]
          cases (node.childAt slot).locate (childSlot path) tokens with
          | error error => rfl
          | ok focus =>
              change (Option.map focus.2 (change focus.1)).bind _ = Option.map _ (change focus.1)
              cases change focus.1 <;> rfl

theorem get_eq_locate (path : String) (tokens : List String) (tree : JsonTree α) :
    Rfc6902.get tokens tree =
      (tree.locate (childSlot path) tokens).toOption.map fun focus => .node focus.1 := by
  induction tokens generalizing tree with
  | nil =>
      obtain ⟨node⟩ := tree
      rfl
  | cons token tokens ih =>
      obtain ⟨node⟩ := tree
      have hStep := position_bind path token node fun _ child => Rfc6902.get tokens child
      rw [Rfc6902.get]
      refine hStep.trans ?_
      cases hSlot : childSlot path node.shape token with
      | error error =>
          rw [JsonTree.locate_cons_error rfl hSlot]
          rfl
      | ok slot =>
          rw [JsonTree.locate_cons_ok rfl hSlot (node.getElem?_childAt slot)]
          change Rfc6902.get tokens (node.childAt slot) = _
          rw [ih]
          cases (node.childAt slot).locate (childSlot path) tokens <;> rfl

theorem get_append (tokens others : List String) (tree : JsonTree α) :
    Rfc6902.get (tokens ++ others) tree =
      (Rfc6902.get tokens tree).bind (Rfc6902.get others) := by
  induction tokens generalizing tree with
  | nil =>
      obtain ⟨node⟩ := tree
      rfl
  | cons token tokens ih =>
      obtain ⟨node⟩ := tree
      rw [List.cons_append, Rfc6902.get, Rfc6902.get]
      cases Rfc6902.childPosition node token with
      | none => rfl
      | some position =>
          cases hChild : node.children[position]? with
          | none => simp [hChild]
          | some child => simpa [hChild] using ih child

section Descend

variable (value : JsonTree α) (init : List String) (last : String) (tree : JsonTree α)

theorem add_eq_descend :
    Rfc6902.add value (init ++ [last]) tree = descend (Rfc6902.addChild value last) init tree := by
  induction init generalizing tree with
  | nil =>
      obtain ⟨node⟩ := tree
      rfl
  | cons token tokens ih =>
      obtain ⟨node⟩ := tree
      have hAdd : Rfc6902.add value (tokens ++ [last]) =
          descend (Rfc6902.addChild value last) tokens := funext ih
      rw [List.cons_append, Rfc6902.add, hAdd, descend]
      exact fun hNil => absurd hNil (by simp)

theorem remove_eq_descend :
    Rfc6902.remove (init ++ [last]) tree =
      descend (fun node => (Rfc6902.childPosition node last).map node.removeChild) init tree := by
  induction init generalizing tree with
  | nil =>
      obtain ⟨node⟩ := tree
      simp only [List.nil_append, Rfc6902.remove, descend]
      cases Rfc6902.childPosition node last <;> rfl
  | cons token tokens ih =>
      obtain ⟨node⟩ := tree
      have hRemove : Rfc6902.remove (tokens ++ [last]) =
          descend (fun node : JsonNode α _ => (Rfc6902.childPosition node last).map node.removeChild)
            tokens := funext ih
      rw [List.cons_append, Rfc6902.remove, hRemove, descend]
      exact fun hNil => absurd hNil (by simp)

theorem replace_eq_descend :
    Rfc6902.replace value (init ++ [last]) tree =
      descend (fun node => (Rfc6902.childPosition node last).map fun position =>
        node.setChild position value) init tree := by
  induction init generalizing tree with
  | nil =>
      obtain ⟨node⟩ := tree
      rw [List.nil_append, Rfc6902.replace, descend]
      have hStep := position_bind "" last node fun position _ =>
        some (JsonTree.node (node.setChild position value))
      refine Eq.trans ?_ (hStep.trans ?_)
      · rfl
      · rw [← childSlot_position "" last node]
        cases childSlot "" node.shape last <;> rfl
  | cons token tokens ih =>
      obtain ⟨node⟩ := tree
      rw [List.cons_append, Rfc6902.replace, funext ih, descend]

end Descend

/-! ## Operations -/

section Operations

variable {path : String} {init : List String} {last : String} (tree : JsonTree α)
  (hDecode : decodeJsonPointer path = .ok (init ++ [last]))

include hDecode

/-- A change of the parent is a change of the container that the tokens but the last
lead to; only containers change. -/
theorem changeTree_toOption
    (change : String → JsonNode α (JsonTree α) → Except PatchError (β × JsonNode α (JsonTree α)))
    (hAtom : ∀ atom, (change last (.atom atom)).toOption = none) :
    (changeTree path change tree).toOption =
      (tree.locate (childSlot path) init).toOption.bind fun focus =>
        (change last focus.1).toOption.map fun out => (out.1, focus.2 out.2) := by
  rw [changeTree, locateParent_eq tree hDecode List.getLast?_concat, List.dropLast_concat]
  cases tree.locate (childSlot path) init with
  | error error => rfl
  | ok focus =>
      obtain ⟨node, plug⟩ := focus
      cases node with
      | atom atom =>
          change none = ((change last (.atom atom)).toOption.map _)
          rw [hAtom]
          rfl
      | list items =>
          simp only [Except.bind, bind, isContainer, if_true, Except.toOption, Option.bind]
          cases change last (.list items) <;> rfl
      | dict entries =>
          simp only [Except.bind, bind, isContainer, if_true, Except.toOption, Option.bind]
          cases change last (.dict entries) <;> rfl

theorem addValue_toOption (value : JsonTree α) :
    (addValue path value tree).toOption = Rfc6902.add value (init ++ [last]) tree := by
  have hChange := changeTree_toOption tree hDecode
    (fun token parent => (fun changed => ((), changed)) <$> containerAdd path token value parent)
    fun _ => rfl
  have hMap : (addValue path value tree).toOption =
      (changeTree path (fun token parent =>
        (fun changed => ((), changed)) <$> containerAdd path token value parent) tree).toOption.map
          Prod.snd := by
    rw [addValue]
    generalize changeTree path _ tree = run
    cases run <;> rfl
  rw [hMap, hChange, add_eq_descend, descend_eq_locate path]
  cases tree.locate (childSlot path) init with
  | error error => rfl
  | ok focus =>
      simp only [Except.toOption, Option.bind, ← containerAdd_toOption path]
      cases containerAdd path last value focus.1 <;> rfl

theorem replaceValue_toOption (value : JsonTree α) :
    (replaceValue path value tree).toOption = Rfc6902.replace value (init ++ [last]) tree := by
  have hChange := changeTree_toOption tree hDecode
    (fun token parent => (fun changed => ((), changed)) <$> containerReplace path token value parent)
    fun _ => rfl
  have hMap : (replaceValue path value tree).toOption =
      (changeTree path (fun token parent =>
        (fun changed => ((), changed)) <$> containerReplace path token value parent)
          tree).toOption.map Prod.snd := by
    rw [replaceValue]
    generalize changeTree path _ tree = run
    cases run <;> rfl
  rw [hMap, hChange, replace_eq_descend, descend_eq_locate path]
  cases tree.locate (childSlot path) init with
  | error error => rfl
  | ok focus =>
      simp only [Except.toOption, Option.bind, ← containerReplace_toOption path]
      cases containerReplace path last value focus.1 <;> rfl

/-- A value is taken out where the RFC finds it, and what is left is what the RFC leaves. -/
theorem removeValue_toOption :
    (removeValue path tree).toOption =
      (Rfc6902.get (init ++ [last]) tree).bind fun gone =>
        (Rfc6902.remove (init ++ [last]) tree).map fun rest => (gone, rest) := by
  rw [removeValue, changeTree_toOption tree hDecode (containerRemove path) fun _ => rfl, get_append,
    get_eq_locate path init, remove_eq_descend, descend_eq_locate path]
  cases tree.locate (childSlot path) init with
  | error error => rfl
  | ok focus =>
      obtain ⟨node, plug⟩ := focus
      have hGet := position_bind path last node fun _ child => Rfc6902.get [] child
      change ((containerRemove path last node).toOption.map _) =
        (Rfc6902.get [last] (.node node)).bind fun gone =>
          (Option.map plug ((Rfc6902.childPosition node last).map node.removeChild)).map _
      have hRest := childSlot_position path last node
      have hFound : Rfc6902.get [last] (.node node) = _ := hGet
      rw [hFound, ← hRest, containerRemove]
      cases childSlot path node.shape last <;> rfl

theorem removeValue_rest :
    (removeValue path tree).toOption.map Prod.snd = Rfc6902.remove (init ++ [last]) tree := by
  rw [removeValue, changeTree_toOption tree hDecode (containerRemove path) fun _ => rfl,
    remove_eq_descend, descend_eq_locate path]
  cases tree.locate (childSlot path) init with
  | error error => rfl
  | ok focus =>
      simp only [Except.toOption, Option.bind, ← childSlot_position path, containerRemove]
      cases childSlot path focus.1.shape last <;> rfl

omit hDecode in
theorem getValue_toOption {tokens : List String} (hDecode : decodeJsonPointer path = .ok tokens) :
    (getValue path tree).toOption = Rfc6902.get tokens tree := by
  rw [getValue, hDecode, get_eq_locate path]
  simp only [bind, Except.bind]
  cases tree.locate (childSlot path) tokens <;> rfl

end Operations

end JsonPatch

end Tracecat
