import Mathlib.Data.List.Infix
import Tracecat.Lib.JsonTree

/-!
# JSON Patch by its specification

JSON Pointers (RFC 6901) and JSON Patch (RFC 6902) on documents.  What the RFCs
call an error is `none`.  The order of the entries of an object carries no meaning
there; here a new entry comes last.
-/

namespace Tracecat

namespace Rfc6902

variable {α : Type}

/-! ## Pointers -/

/-- The text of a reference token: `~` stands before `0` and `1` only. -/
def unescape : List Char → Option (List Char)
  | [] => some []
  | '~' :: '0' :: rest => ('~' :: ·) <$> unescape rest
  | '~' :: '1' :: rest => ('/' :: ·) <$> unescape rest
  | '~' :: _ => none
  | char :: rest => (char :: ·) <$> unescape rest

/-- The reference tokens of a pointer: nothing, or tokens each after a slash. -/
def parsePointer (pointer : String) : Option (List String) :=
  match pointer.toList with
  | [] => some []
  | '/' :: rest => (rest.splitOn '/').mapM fun part => String.ofList <$> unescape part
  | _ :: _ => none

/-- An array index: `0`, or digits of which the first is not `0`. -/
def arrayIndex (token : String) : Option Nat :=
  match token.toList with
  | ['0'] => some 0
  | char :: rest =>
      if char.isDigit && char != '0' && rest.all Char.isDigit then
        some (Nat.ofDigitChars 10 (char :: rest) 0)
      else none
  | [] => none

/-! ## Locations -/

/-- The position of the child that a token refers to. -/
def childPosition (node : JsonNode α (JsonTree α)) (token : String) : Option Nat :=
  match node with
  | .atom _ => none
  | .list items => (arrayIndex token).filter (· < items.length)
  | .dict entries => JsonNode.position? entries token

def get : List String → JsonTree α → Option (JsonTree α)
  | [], tree => some tree
  | token :: tokens, .node node => do
      let position ← childPosition node token
      let child ← node.children[position]?
      get tokens child

/-- The document with another value at the child that a token refers to. -/
def within (change : JsonTree α → Option (JsonTree α)) (token : String)
    (node : JsonNode α (JsonTree α)) : Option (JsonTree α) := do
  let position ← childPosition node token
  let child ← node.children[position]?
  let changed ← change child
  return .node (node.setChild position changed)

/-- The `add` operation on a container: a member of an object is set, an element is
inserted into an array at an index, which may be its length or `-`. -/
def addChild (value : JsonTree α) (token : String) :
    JsonNode α (JsonTree α) → Option (JsonNode α (JsonTree α))
  | .atom _ => none
  | .list items =>
      ((if token = "-" then some items.length else arrayIndex token).filter (· ≤ items.length)).map
        fun index => .list (items.insertIdx index value)
  | .dict entries =>
      match JsonNode.position? entries token with
      | some position => some (JsonNode.setChild position value (.dict entries))
      | none => some (.dict (entries ++ [(token, value)]))

/-- `add` at a location. -/
def add (value : JsonTree α) : List String → JsonTree α → Option (JsonTree α)
  | [], _ => some value
  | [token], .node node => .node <$> addChild value token node
  | token :: tokens, .node node => within (add value tokens) token node

/-- `remove` at a location; the whole document cannot be removed. -/
def remove : List String → JsonTree α → Option (JsonTree α)
  | [], _ => none
  | [token], .node node => do
      let position ← childPosition node token
      return .node (node.removeChild position)
  | token :: tokens, .node node => within (remove tokens) token node

/-- `replace` at a location, which must exist. -/
def replace (value : JsonTree α) : List String → JsonTree α → Option (JsonTree α)
  | [], _ => some value
  | token :: tokens, .node node => within (replace value tokens) token node

/-! ## Operations -/

/-- An operation with its pointers and its value. -/
inductive Operation (α : Type)
  | add (path : String) (value : JsonTree α)
  | remove (path : String)
  | replace (path : String) (value : JsonTree α)
  | move (source path : String)
  | copy (source path : String)
  | test (path : String) (value : JsonTree α)

/-- What an operation makes of a document.  A location cannot be moved into one of its
children. -/
def applyOperation (atomEqual : α → α → Bool) (tree : JsonTree α) :
    Operation α → Option (JsonTree α)
  | .add path value => do add value (← parsePointer path) tree
  | .remove path => do remove (← parsePointer path) tree
  | .replace path value => do replace value (← parsePointer path) tree
  | .move source path => do
      let source ← parsePointer source
      let tokens ← parsePointer path
      let value ← get source tree
      if source <+: tokens ∧ source ≠ tokens then none
      else
        let removed ← remove source tree
        add value tokens removed
  | .copy source path => do
      let source ← parsePointer source
      let tokens ← parsePointer path
      let value ← get source tree
      add value tokens tree
  | .test path value => do
      let found ← get (← parsePointer path) tree
      if found.equal atomEqual value then some tree else none

/-- What a patch makes of a document; the first error ends it. -/
def applyPatch (atomEqual : α → α → Bool) (tree : JsonTree α) (operations : List (Operation α)) :
    Option (JsonTree α) :=
  operations.foldlM (applyOperation atomEqual) tree

end Rfc6902

end Tracecat
