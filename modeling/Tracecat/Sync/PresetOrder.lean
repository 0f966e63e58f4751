import Mathlib.Data.List.Sort
import Tracecat.Lib.Assoc

/-!
# The order of agent presets

`_find_cycle` and the preset graph of `validate_workspace_dependencies`
(`workspace_sync/resources.py`), and `_preset_import_order` of the agent preset adapter.
What counts of a preset are its slug and the subagents of its versions.
-/

namespace Tracecat
namespace Sync

/-- `AgentPresetSubagentRef`. -/
structure SubagentRef where
  slug : String
  version : Option Nat
  deriving DecidableEq, Repr

/-- `AgentPresetVersionResourceSpec`. -/
structure PresetVersion where
  subagents : List SubagentRef
  deriving DecidableEq, Repr

/-- `AgentPresetResourceSpec`. -/
structure PresetSpec where
  slug : String
  versions : List (Nat × PresetVersion)
  deriving DecidableEq, Repr

/-- The presets of a batch by their source ids, which are not empty. -/
structure Presets where
  entries : List (String × PresetSpec)
  nodup : (entries.map Prod.fst).Nodup
  nonempty : ∀ entry ∈ entries, entry.1 ≠ ""

def PresetSpec.subagentRefs (preset : PresetSpec) : List SubagentRef :=
  preset.versions.flatMap fun version => version.2.subagents

/-- `sorted(presets.items())`; no two source ids are equal. -/
def Presets.sorted (presets : Presets) : List (String × PresetSpec) :=
  presets.entries.insertionSort fun entry other => entry.1 ≤ other.1

/-! ## `_find_cycle` -/

abbrev Graph : Type := List (String × List String)

/-- `preset_graph` of `validate_workspace_dependencies`. -/
def Presets.presetGraph (presets : Presets) : Graph :=
  Assoc.ofPairs (presets.sorted.map fun entry =>
    (entry.2.slug, entry.2.subagentRefs.map SubagentRef.slug))

/-- `adjacency`. -/
def adjacencyOf (graph : Graph) : Graph :=
  graph.map fun entry => (entry.1, entry.2.insertionSort (· ≤ ·))

/-- `adjacency.get(child, [])`. -/
def childrenOf (adjacency : Graph) (node : String) : List String :=
  (adjacency.lookup node).getD []

/-- A node on the active path, and the children that its iterator has left. -/
abbrev Frame : Type := String × List String

/-- The state of the search; the innermost frame comes first. -/
structure Search where
  visited : List String
  onStack : List (String × Nat)
  stack : List Frame
  deriving DecidableEq, Repr

/-- How the loop over the children of a frame ends. -/
inductive Turn
  | cycle (child : String) (depth : Nat)
  | push (child : String) (rest : List String)
  | exhausted
  deriving DecidableEq, Repr

/-- `for child in children`. -/
def nextChild (visited : List String) (onStack : List (String × Nat)) : List String → Turn
  | [] => .exhausted
  | child :: rest =>
      match onStack.lookup child with
      | some depth => .cycle child depth
      | none => if child ∈ visited then nextChild visited onStack rest else .push child rest

/-- Why a search ends early. -/
inductive Stop
  | cycle (path : List String)
  | outOfFuel
  deriving DecidableEq, Repr

/-- `while stack`; each turn takes fuel. -/
def whileStack (adjacency : Graph) : Nat → Search → Except Stop (List String)
  | 0, _ => .error .outOfFuel
  | fuel + 1, search =>
      match search.stack with
      | [] => .ok search.visited
      | (node, children) :: below =>
          match nextChild search.visited search.onStack children with
          | .cycle child depth =>
              .error (.cycle ((((node, children) :: below).reverse.drop depth).map Prod.fst ++ [child]))
          | .push child rest =>
              whileStack adjacency fuel
                { search with
                  onStack := Assoc.set child (below.length + 1) search.onStack
                  stack := (child, childrenOf adjacency child) :: (node, rest) :: below }
          | .exhausted =>
              whileStack adjacency fuel
                { visited := search.visited ++ [node]
                  onStack := search.onStack.filter fun entry => entry.1 ≠ node
                  stack := below }

/-- `for root in sorted(adjacency)`. -/
def searchRoot (adjacency : Graph) (fuel : Nat) (visited : List String) (root : String) :
    Except Stop (List String) :=
  if root ∈ visited then .ok visited
  else whileStack adjacency fuel ⟨visited, [(root, 0)], [(root, childrenOf adjacency root)]⟩

/-- `_find_cycle`; no result where the fuel does not suffice. -/
def findCycle (fuel : Nat) (graph : Graph) : Option (List String) :=
  match ((graph.map Prod.fst).insertionSort (· ≤ ·)).foldlM
      (searchRoot (adjacencyOf graph) fuel) [] with
  | .ok _ => some []
  | .error (.cycle path) => some path
  | .error .outOfFuel => none

/-! ## `_preset_import_order` -/

/-- The `TracecatValidationError`s, the `KeyError` of `presets[source_id]`, and a recursion
that is cut off. -/
inductive OrderError
  | uniqueSlugs (slug : String)
  | cyclic
  | missing (sourceId : String)
  | outOfFuel
  deriving DecidableEq, Repr

/-- `str(error)` of the two validation errors, with `repr` of a text. -/
def OrderError.message? (repr : String → String) : OrderError → Option String
  | uniqueSlugs slug => some ("Agent preset sync specs must have unique slugs: " ++ repr slug)
  | cyclic => some "Cyclic agent preset subagent reference detected during import"
  | missing _ | outOfFuel => none

/-- `slug_to_source_id`. -/
def slugToSourceId (presets : Presets) : Except OrderError (List (String × String)) :=
  presets.sorted.foldlM (fun slugs entry =>
    if entry.2.slug ∈ slugs.map Prod.fst then .error (.uniqueSlugs entry.2.slug)
    else .ok (Assoc.set entry.2.slug entry.1 slugs)) []

structure VisitState where
  visiting : List String
  visited : List String
  ordered : List String
  deriving DecidableEq, Repr

/-- `visit`; the fuel bounds the depth of the recursion. -/
def visit (presets : Presets) (slugs : List (String × String)) :
    Nat → VisitState → String → Except OrderError VisitState
  | 0, _, _ => .error .outOfFuel
  | fuel + 1, state, sourceId =>
      if sourceId ∈ state.visited then .ok state
      else if sourceId ∈ state.visiting then .error .cyclic
      else
        match presets.entries.lookup sourceId with
        | none => .error (.missing sourceId)
        | some spec => do
            let subagents := spec.subagentRefs.insertionSort fun ref other => ref.slug ≤ other.slug
            let after ← subagents.foldlM (fun state subagent =>
                match slugs.lookup subagent.slug with
                | none => .ok state
                | some childSourceId =>
                    if childSourceId = "" then .ok state
                    else visit presets slugs fuel state childSourceId)
              { state with visiting := sourceId :: state.visiting }
            return {
              visiting := after.visiting.erase sourceId
              visited := after.visited ++ [sourceId]
              ordered := after.ordered ++ [sourceId] }

/-- `_preset_import_order`. -/
def presetImportOrder (fuel : Nat) (presets : Presets) : Except OrderError (List String) := do
  let slugs ← slugToSourceId presets
  let last ← ((presets.entries.map Prod.fst).insertionSort (· ≤ ·)).foldlM
    (visit presets slugs fuel) ⟨[], [], []⟩
  return last.ordered

end Sync
end Tracecat
