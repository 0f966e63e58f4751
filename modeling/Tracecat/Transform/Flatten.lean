import Tracecat.Lib.Leaves

/-!
# Flattening

`flatten_dict` of `tracecat_registry/_internal/flatten.py`.  The values of the result
are never lists or dictionaries, so they are atoms here.
-/

namespace Tracecat
namespace Transform

variable {α : Type}

/-- The `ValueError`. -/
def recursionError (maxDepth : Nat) : String :=
  s!"Maximum recursion depth ({maxDepth}) exceeded while flattening object"

/-- `full_path` of an item. -/
def itemPath (pathPrefix : String) (index : Nat) : String :=
  let arrayPath := "[" ++ toString index ++ "]"
  if pathPrefix ≠ "" then pathPrefix ++ arrayPath else arrayPath

/-- `full_path` of an entry. -/
def entryPath (pathPrefix key : String) : String :=
  if pathPrefix ≠ "" then pathPrefix ++ "." ++ key else key

mutual

/-- `_flatten`. -/
def flatten (maxDepth : Nat) : JsonTree α → String → Nat → Except String (List (String × α))
  | .node (.atom value), pathPrefix, depth =>
      if depth > maxDepth then .error (recursionError maxDepth) else .ok [(pathPrefix, value)]
  | .node (.list items), pathPrefix, depth =>
      if depth > maxDepth then .error (recursionError maxDepth)
      else flattenItems maxDepth items pathPrefix depth 0 []
  | .node (.dict entries), pathPrefix, depth =>
      if depth > maxDepth then .error (recursionError maxDepth)
      else flattenEntries maxDepth entries pathPrefix depth []

def flattenItems (maxDepth : Nat) : List (JsonTree α) → String → Nat → Nat →
    List (String × α) → Except String (List (String × α))
  | [], _, _, _, result => .ok result
  | item :: items, pathPrefix, depth, index, result =>
      match item with
      | .node (.atom value) =>
          flattenItems maxDepth items pathPrefix depth (index + 1)
            (Assoc.set (itemPath pathPrefix index) value result)
      | .node (.list _) | .node (.dict _) =>
          match flatten maxDepth item (itemPath pathPrefix index) (depth + 1) with
          | .error error => .error error
          | .ok inner =>
              flattenItems maxDepth items pathPrefix depth (index + 1) (Assoc.update result inner)

def flattenEntries (maxDepth : Nat) : List (String × JsonTree α) → String → Nat →
    List (String × α) → Except String (List (String × α))
  | [], _, _, result => .ok result
  | (key, value) :: entries, pathPrefix, depth, result =>
      match value with
      | .node (.atom atom) =>
          flattenEntries maxDepth entries pathPrefix depth
            (Assoc.set (entryPath pathPrefix key) atom result)
      | .node (.list _) | .node (.dict _) =>
          match flatten maxDepth value (entryPath pathPrefix key) (depth + 1) with
          | .error error => .error error
          | .ok inner => flattenEntries maxDepth entries pathPrefix depth (Assoc.update result inner)

end

/-- `flatten_dict`. -/
def flattenDict (maxDepth : Nat) (x : JsonTree α) : Except String (List (String × α)) :=
  flatten maxDepth x "" 0

end Transform
end Tracecat
