import Mathlib.Algebra.Order.Ring.Rat
import Tracecat.Lib.CellHeap
import Tracecat.Lib.Stateful

/-!
# JSON Patch of the workflow editor

`mcp/json_patch.py` on documents in a heap: the patch is applied to a deep copy, in
place, and the values of `add`, `replace` and `copy` are deep copies too.

The functions on a single container are stated for children of any kind, so that
they serve the heap and, below, the documents that lie in it.
-/

namespace Tracecat

namespace JsonPatch

variable {α X : Type}

/-- What a patch raises; the texts are those of `ToolError`, except for the last, which
stands for the `RecursionError` of a comparison that does not end. -/
inductive PatchError
  | notSlash (path : String)
  | root
  | notEditable (path : String)
  | arrayIndex (token : String)
  | outOfRange (token : String)
  | notFound (path : String)
  | missingValue (op : String)
  | missingFrom (op : String)
  | testFailed (path : String)
  | recursion
  deriving DecidableEq, Repr

/-- `str(error)`, with `repr` of a text. -/
def PatchError.message (repr : String → String) : PatchError → String
  | .notSlash path => "Patch paths must start with '/': " ++ repr path
  | .root => "Patching the document root is not supported"
  | .notEditable path => "Patch path '" ++ path ++ "' is not editable via edit_workflow"
  | .arrayIndex token => "Invalid array index in patch path: " ++ repr token
  | .outOfRange token => "Patch array index out of range: " ++ repr token
  | .notFound path => "Patch path not found: " ++ repr path
  | .missingValue op => "Patch operation '" ++ op ++ "' requires a value"
  | .missingFrom op => "Patch operation '" ++ op ++ "' requires a string 'from'"
  | .testFailed path => "Patch test operation failed at path " ++ repr path
  | .recursion => "maximum recursion depth exceeded in comparison"

/-- `JsonPatchOperation.op`. -/
inductive PatchOp
  | add
  | remove
  | replace
  | move
  | copy
  | test
  deriving DecidableEq, Repr

/-- `JsonPatchOperation`; a `value` that is not in `model_fields_set` is `none`. -/
structure JsonPatchOperation (V : Type) where
  op : PatchOp
  path : String
  from_ : Option String
  value : Option V

/-! ## Pointers -/

/-- `text.replace(first + second, into)` for two characters. -/
def replacePair (first second into : Char) : List Char → List Char
  | char :: next :: rest =>
      if char = first ∧ next = second then into :: replacePair first second into rest
      else char :: replacePair first second into (next :: rest)
  | rest => rest

/-- `part.replace("~1", "/").replace("~0", "~")`. -/
def unescapePart (part : List Char) : String :=
  String.ofList (replacePair '~' '0' '~' (replacePair '~' '1' '/' part))

/-- `path.startswith("/")`. -/
def startsWithSlash (path : String) : Bool := path.toList.head? == some '/'

/-- `path.split("/")[1:]`. -/
def pathParts (path : String) : List (List Char) := (path.toList.splitOn '/').tail

/-- `patch_top_level`. -/
def patchTopLevel (path : String) : Except PatchError String :=
  if !startsWithSlash path then .error (.notSlash path)
  else
    match pathParts path with
    | [] => .error .root
    | part :: _ => if part.isEmpty then .error .root else .ok (unescapePart part)

/-- The check of one path in `validate_patch_paths`. -/
def validatePath (allowedTopLevelPaths : List String) (path : String) : Except PatchError Unit := do
  let topLevel ← patchTopLevel path
  if topLevel ∈ allowedTopLevelPaths then return () else throw (.notEditable path)

/-- `validate_patch_paths`. -/
def validatePatchPaths {V : Type} (patchOps : List (JsonPatchOperation V))
    (allowedTopLevelPaths : List String) : Except PatchError Unit :=
  patchOps.forM fun patchOp => do
    validatePath allowedTopLevelPaths patchOp.path
    match patchOp.from_ with
    | none => return ()
    | some path => validatePath allowedTopLevelPaths path

/-- `_decode_json_pointer`. -/
def decodeJsonPointer (path : String) : Except PatchError (List String) :=
  if !startsWithSlash path then .error (.notSlash path)
  else if path = "/" then .error .root
  else .ok ((pathParts path).map unescapePart)

/-- `_json_pointer_array_index`; the result is at most the largest index that is allowed. -/
def jsonPointerArrayIndex (token : String) (length : Nat) (allowEnd : Bool) :
    Except PatchError (Fin (length + allowEnd.toNat)) :=
  if hEnd : allowEnd = true ∧ token = "-" then
    .ok ⟨length, by rw [hEnd.1]; exact Nat.lt_succ_self length⟩
  else if token ≠ "0" ∧ (token.toList.all Char.isDigit = false ∨ token = "" ∨
      token.toList.head? = some '0') then .error (.arrayIndex token)
  else
    let index := Nat.ofDigitChars 10 token.toList 0
    if hIndex : index < length + allowEnd.toNat then .ok ⟨index, hIndex⟩
    else .error (.outOfRange token)

/-! ## Containers -/

/-- The child of a container that a token refers to, or that there is none. -/
def childSlot (path : String) : ChildSlot α String PatchError
  | .atom _, _ => .error (.notFound path)
  | .list items, token => jsonPointerArrayIndex token items.length false
  | .dict entries, token =>
      match hPosition : JsonNode.position? entries token with
      | none => .error (.notFound path)
      | some position =>
          .ok ⟨position, by
            rw [JsonNode.children, List.length_map]
            exact (List.findIdx?_eq_some_iff_findIdx_eq.mp hPosition).1⟩

/-- `parent[token] = value` or `parent.insert(index, value)`. -/
def containerAdd (path token : String) (value : X) :
    JsonNode α X → Except PatchError (JsonNode α X)
  | .atom _ => .error (.notFound path)
  | .list items => do
      let index ← jsonPointerArrayIndex token items.length true
      return JsonNode.insertChild index value (.list items)
  | .dict entries =>
      match JsonNode.position? entries token with
      | some position => .ok (JsonNode.setChild position value (.dict entries))
      | none => .ok (JsonNode.appendEntry token value (.dict entries))

/-- `parent.pop(token)` or `parent.pop(index)`. -/
def containerRemove (path token : String) (parent : JsonNode α X) :
    Except PatchError (X × JsonNode α X) := do
  let slot ← childSlot path parent.shape token
  return (parent.childAt slot, parent.removeChild slot)

/-- `parent[token] = value` or `parent[index] = value` for a child that is there. -/
def containerReplace (path token : String) (value : X) (parent : JsonNode α X) :
    Except PatchError (JsonNode α X) := do
  let slot ← childSlot path parent.shape token
  return parent.setChild slot value

/-- `isinstance(node, (dict, list))`. -/
def isContainer : JsonNode α X → Bool
  | .atom _ => false
  | _ => true

/-! ## Documents in the heap -/

/-- Code on the heap. -/
abbrev PatchM (α β : Type) : Type := Stateful PatchError (CellHeap α) β

/-- `_json_pointer_get`. -/
def jsonPointerGet (document : Nat) (path : String) : PatchM α Nat := do
  let tokens ← Stateful.lift (decodeJsonPointer path)
  let heap ← get
  Stateful.lift (heap.follow (childSlot path) document tokens)

/-- `_json_pointer_get_parent`. -/
def jsonPointerGetParent (document : Nat) (path : String) : PatchM α (Nat × String) := do
  let tokens ← Stateful.lift (decodeJsonPointer path)
  match tokens.getLast? with
  | none => throw .root
  | some token => do
      let heap ← get
      let parent ← Stateful.lift (heap.follow (childSlot path) document tokens.dropLast)
      if isContainer (heap.node parent) then return (parent, token) else throw (.notFound path)

/-- The change of a container in place. -/
def changeParent {β : Type} (document : Nat) (path : String)
    (change : String → JsonNode α Nat → Except PatchError (β × JsonNode α Nat)) : PatchM α β := do
  let (parent, token) ← jsonPointerGetParent document path
  let heap ← get
  let (value, changed) ← Stateful.lift (change token (heap.node parent))
  set (heap.set parent changed)
  return value

/-- `_json_pointer_add`. -/
def jsonPointerAdd (document : Nat) (path : String) (value : Nat) : PatchM α Unit :=
  changeParent document path fun token parent =>
    (fun changed => ((), changed)) <$> containerAdd path token value parent

/-- `_json_pointer_remove`. -/
def jsonPointerRemove (document : Nat) (path : String) : PatchM α Nat :=
  changeParent document path fun token parent => containerRemove path token parent

/-- `_json_pointer_replace`. -/
def jsonPointerReplace (document : Nat) (path : String) (value : Nat) : PatchM α Unit :=
  changeParent document path fun token parent =>
    (fun changed => ((), changed)) <$> containerReplace path token value parent

/-- `copy.deepcopy`. -/
def deepcopy (value : Nat) : PatchM α Nat := do
  let heap ← get
  let (copied, heap) := heap.deepcopy value
  set heap
  return copied

/-- `first == second`, given the equality of atoms; comparing what contains itself raises. -/
def equal (atomEqual : α → α → Bool) (first second : Nat) : PatchM α Bool := do
  let heap ← get
  match heap.unfold (heap.length + 1) first, heap.unfold (heap.length + 1) second with
  | some first, some second => return first.equal atomEqual second
  | _, _ => throw .recursion

/-- One turn of the loop of `apply_json_patch_operations`. -/
def applyOperation (atomEqual : α → α → Bool) (result : Nat)
    (patchOp : JsonPatchOperation Nat) : PatchM α Unit :=
  match patchOp.op with
  | .add =>
      match patchOp.value with
      | none => throw (.missingValue "add")
      | some value => do
          let copied ← deepcopy value
          jsonPointerAdd result patchOp.path copied
  | .remove => do
      let _ ← jsonPointerRemove result patchOp.path
      return ()
  | .replace =>
      match patchOp.value with
      | none => throw (.missingValue "replace")
      | some value => do
          let copied ← deepcopy value
          jsonPointerReplace result patchOp.path copied
  | .move =>
      match patchOp.from_ with
      | none => throw (.missingFrom "move")
      | some source => do
          let moved ← jsonPointerRemove result source
          jsonPointerAdd result patchOp.path moved
  | .copy =>
      match patchOp.from_ with
      | none => throw (.missingFrom "copy")
      | some source => do
          let found ← jsonPointerGet result source
          let copied ← deepcopy found
          jsonPointerAdd result patchOp.path copied
  | .test =>
      match patchOp.value with
      | none => throw (.missingValue "test")
      | some value => do
          let current ← jsonPointerGet result patchOp.path
          if ← equal atomEqual current value then return () else throw (.testFailed patchOp.path)

/-- `apply_json_patch_operations`. -/
def applyJsonPatchOperations (atomEqual : α → α → Bool) (document : Nat)
    (patchOps : List (JsonPatchOperation Nat)) : PatchM α Nat := do
  let result ← deepcopy document
  patchOps.forM (applyOperation atomEqual result)
  return result

/-! ## Documents as values -/

/-- `_json_pointer_get_parent` on a document, with the document around the parent. -/
def locateParent (path : String) (tree : JsonTree α) :
    Except PatchError (String × JsonNode α (JsonTree α) × (JsonNode α (JsonTree α) → JsonTree α)) := do
  let tokens ← decodeJsonPointer path
  match tokens.getLast? with
  | none => throw .root
  | some token =>
      let (parent, plug) ← tree.locate (childSlot path) tokens.dropLast
      if isContainer parent then return (token, parent, plug) else throw (.notFound path)

/-- The document with a change of the parent. -/
def changeTree {β : Type} (path : String)
    (change : String → JsonNode α (JsonTree α) → Except PatchError (β × JsonNode α (JsonTree α)))
    (tree : JsonTree α) : Except PatchError (β × JsonTree α) := do
  let (token, parent, plug) ← locateParent path tree
  let (value, changed) ← change token parent
  return (value, plug changed)

/-- `_json_pointer_get` on a document. -/
def getValue (path : String) (tree : JsonTree α) : Except PatchError (JsonTree α) := do
  let tokens ← decodeJsonPointer path
  let (found, _) ← tree.locate (childSlot path) tokens
  return .node found

/-- `_json_pointer_add` on a document. -/
def addValue (path : String) (value tree : JsonTree α) : Except PatchError (JsonTree α) :=
  Prod.snd <$> changeTree path (fun token parent =>
    (fun changed => ((), changed)) <$> containerAdd path token value parent) tree

/-- `_json_pointer_remove` on a document. -/
def removeValue (path : String) (tree : JsonTree α) : Except PatchError (JsonTree α × JsonTree α) :=
  changeTree path (containerRemove path) tree

/-- `_json_pointer_replace` on a document. -/
def replaceValue (path : String) (value tree : JsonTree α) : Except PatchError (JsonTree α) :=
  Prod.snd <$> changeTree path (fun token parent =>
    (fun changed => ((), changed)) <$> containerReplace path token value parent) tree

/-- One turn of the loop on a document. -/
def applyToTree (atomEqual : α → α → Bool) (tree : JsonTree α)
    (patchOp : JsonPatchOperation (JsonTree α)) : Except PatchError (JsonTree α) :=
  match patchOp.op with
  | .add =>
      match patchOp.value with
      | none => throw (.missingValue "add")
      | some value => addValue patchOp.path value tree
  | .remove => Prod.snd <$> removeValue patchOp.path tree
  | .replace =>
      match patchOp.value with
      | none => throw (.missingValue "replace")
      | some value => replaceValue patchOp.path value tree
  | .move =>
      match patchOp.from_ with
      | none => throw (.missingFrom "move")
      | some source => do
          let (moved, rest) ← removeValue source tree
          addValue patchOp.path moved rest
  | .copy =>
      match patchOp.from_ with
      | none => throw (.missingFrom "copy")
      | some source => do
          let found ← getValue source tree
          addValue patchOp.path found tree
  | .test =>
      match patchOp.value with
      | none => throw (.missingValue "test")
      | some value => do
          let current ← getValue patchOp.path tree
          if current.equal atomEqual value then return tree else throw (.testFailed patchOp.path)

/-- What a patch makes of a document. -/
def applyAllToTree (atomEqual : α → α → Bool) (tree : JsonTree α)
    (patchOps : List (JsonPatchOperation (JsonTree α))) : Except PatchError (JsonTree α) :=
  patchOps.foldlM (applyToTree atomEqual) tree

/-! ## Atoms -/

/-- An atom of JSON; numbers are integers and finite floats of the language. -/
inductive JsonAtom (ν : Type)
  | null
  | bool (value : Bool)
  | number (value : ν)
  | string (value : String)

/-- `==` of atoms: booleans are the numbers 0 and 1, and numbers are compared by their
exact value. -/
def pyEqual {ν : Type} (exact : ν → ℚ) : JsonAtom ν → JsonAtom ν → Bool
  | .null, .null => true
  | .bool value, .bool other => value == other
  | .bool value, .number other => (value.toNat : ℚ) = exact other
  | .number value, .bool other => exact value = (other.toNat : ℚ)
  | .number value, .number other => exact value = exact other
  | .string value, .string other => value == other
  | _, _ => false

end JsonPatch

end Tracecat
