import Tracecat.Lib.Paths
import Tracecat.Transform.Flatten

/-!
# What flattening keeps

The keys of a flattened object are paths to its atoms.  As long as no two leaves have one
path, every atom has an entry of its own; and when no key of the object is empty or has a
character that separates the steps of a path, the entries build the object again.  Empty
containers have no entry.
-/

namespace Tracecat
namespace Transform

open JsonTree (Step Position leaves itemLeaves entryLeaves beneath atom? height itemsHeight
  entriesHeight allKeys plantAll)

variable {α : Type} {maxDepth depth : Nat} {pathPrefix : String}

/-! ## Paths -/

def pathText (pathPrefix : String) : Position → String
  | [] => pathPrefix
  | .key name :: position => pathText (entryPath pathPrefix name) position
  | .index place :: position => pathText (itemPath pathPrefix place) position

/-- The entries of atoms under their paths. -/
def spelled (pathPrefix : String) (leaves : List (Position × JsonTree α)) : List (String × α) :=
  leaves.filterMap fun leaf => (atom? leaf.2).map fun value => (pathText pathPrefix leaf.1, value)

def paths (pathPrefix : String) (leaves : List (Position × JsonTree α)) : List String :=
  leaves.map fun leaf => pathText pathPrefix leaf.1

theorem spelled_append (first second : List (Position × JsonTree α)) :
    spelled pathPrefix (first ++ second) = spelled pathPrefix first ++ spelled pathPrefix second :=
  List.filterMap_append

theorem spelled_index (place : Nat) (leaves : List (Position × JsonTree α)) :
    spelled pathPrefix (leaves.map (beneath (.index place))) =
      spelled (itemPath pathPrefix place) leaves :=
  List.filterMap_map

theorem spelled_key (name : String) (leaves : List (Position × JsonTree α)) :
    spelled pathPrefix (leaves.map (beneath (.key name))) =
      spelled (entryPath pathPrefix name) leaves :=
  List.filterMap_map

theorem paths_index (place : Nat) (leaves : List (Position × JsonTree α)) :
    paths pathPrefix (leaves.map (beneath (.index place))) =
      paths (itemPath pathPrefix place) leaves :=
  List.map_map

theorem paths_key (name : String) (leaves : List (Position × JsonTree α)) :
    paths pathPrefix (leaves.map (beneath (.key name))) =
      paths (entryPath pathPrefix name) leaves :=
  List.map_map

theorem paths_append (first second : List (Position × JsonTree α)) :
    paths pathPrefix (first ++ second) = paths pathPrefix first ++ paths pathPrefix second :=
  List.map_append

theorem keys_spelled_sublist (pathPrefix : String) (leaves : List (Position × JsonTree α)) :
    ((spelled pathPrefix leaves).map Prod.fst).Sublist (paths pathPrefix leaves) := by
  induction leaves with
  | nil => exact List.Sublist.slnil
  | cons leaf leaves ih =>
      unfold spelled paths
      rw [List.filterMap_cons, List.map_cons]
      cases atom? leaf.2 with
      | none => exact ih.cons _
      | some value => exact ih.cons_cons _

/-! ## The run -/

theorem nodup_of_sublist {result other : List (String × α)} {keys : List String}
    (hNodup : (result.map Prod.fst ++ keys).Nodup) (hOther : (other.map Prod.fst).Sublist keys) :
    ((result ++ other).map Prod.fst).Nodup := by
  rw [List.map_append]
  exact hNodup.sublist (hOther.append_left _)

theorem eq_of_atom? {tree : JsonTree α} {value : α} (hAtom : atom? tree = some value) :
    tree = .node (.atom value) := by
  match tree, hAtom with
  | .node (.atom _), hAtom => rw [Option.some.inj hAtom]

/-- The turn of a loop of `flatten` at a child, before the turns that follow. -/
def turn (maxDepth : Nat) (child : JsonTree α) (path : String) (depth : Nat)
    (result : List (String × α))
    (following : List (String × α) → Except String (List (String × α))) :
    Except String (List (String × α)) :=
  match atom? child with
  | some value => following (Assoc.set path value result)
  | none =>
      match flatten maxDepth child path (depth + 1) with
      | .error error => .error error
      | .ok inner => following (Assoc.update result inner)

theorem flattenItems_cons (item : JsonTree α) (items : List (JsonTree α)) (index : Nat)
    (result : List (String × α)) :
    flattenItems maxDepth (item :: items) pathPrefix depth index result =
      turn maxDepth item (itemPath pathPrefix index) depth result
        (flattenItems maxDepth items pathPrefix depth (index + 1)) := by
  match item with
  | .node (.atom _) => rfl
  | .node (.list _) => rfl
  | .node (.dict _) => rfl

theorem flattenEntries_cons (key : String) (value : JsonTree α)
    (entries : List (String × JsonTree α)) (result : List (String × α)) :
    flattenEntries maxDepth ((key, value) :: entries) pathPrefix depth result =
      turn maxDepth value (entryPath pathPrefix key) depth result
        (flattenEntries maxDepth entries pathPrefix depth) := by
  match value with
  | .node (.atom _) => rfl
  | .node (.list _) => rfl
  | .node (.dict _) => rfl

theorem height_pos {tree : JsonTree α} (hTree : atom? tree = none) : 0 < height tree := by
  match tree, hTree with
  | .node (.list _), _ => rw [height]; omega
  | .node (.dict _), _ => rw [height]; omega

/-- A turn adds the leaves of its child, when the call on the child and the turns
that follow add theirs. -/
theorem turn_eq {child : JsonTree α} {path : String} {result later : List (String × α)}
    {keys : List String} {rest : Nat}
    {following : List (String × α) → Except String (List (String × α))}
    (hNodup : (result.map Prod.fst ++ paths path (leaves child) ++ keys).Nodup)
    (hChild : atom? child = none → (paths path (leaves child)).Nodup →
      flatten maxDepth child path (depth + 1) =
        if depth + 1 + height child ≤ maxDepth + 1 then .ok (spelled path (leaves child))
        else .error (recursionError maxDepth))
    (hFollowing : ∀ done, (done.map Prod.fst ++ keys).Nodup → following done =
      if depth + rest ≤ maxDepth then .ok (done ++ later)
      else .error (recursionError maxDepth)) :
    turn maxDepth child path depth result following =
      if depth + max (height child) rest ≤ maxDepth then
        .ok (result ++ spelled path (leaves child) ++ later)
      else .error (recursionError maxDepth) := by
  have hHead := (List.nodup_append.mp hNodup).1
  have hRest (inner : List (String × α))
      (hInner : (inner.map Prod.fst).Sublist (paths path (leaves child))) :=
    hFollowing (result ++ inner) (by
      rw [List.map_append]
      exact hNodup.sublist ((hInner.append_left _).append_right _))
  unfold turn
  cases hAtom : atom? child with
  | some value =>
      have hEq := eq_of_atom? hAtom
      have hLeaves : leaves child = [([], .node (.atom value))] := by rw [hEq, leaves]
      have hInner : ([(path, value)].map Prod.fst).Sublist (paths path (leaves child)) := by
        rw [hLeaves]
        exact List.Sublist.refl _
      have hSet : Assoc.set path value result = result ++ [(path, value)] := by
        show Assoc.update result [(path, value)] = _
        exact Assoc.update_of_nodup (nodup_of_sublist hHead hInner)
      have hHeight : height child = 0 := by rw [hEq, height]
      show following (Assoc.set path value result) = _
      rw [hSet, hRest _ hInner, hHeight, Nat.zero_max, hLeaves]
      rfl
  | none =>
      have hPos := height_pos hAtom
      have hSpelled := keys_spelled_sublist path (leaves child)
      rw [hChild hAtom (List.nodup_append.mp hHead).2.1]
      by_cases hFits : depth + 1 + height child ≤ maxDepth + 1
      · rw [if_pos hFits]
        show following (Assoc.update result _) = _
        rw [Assoc.update_of_nodup (nodup_of_sublist hHead hSpelled), hRest _ hSpelled]
        exact if_congr (by omega) rfl rfl
      · rw [if_neg hFits, if_neg (by omega)]

mutual

/-- The run on a container, when no two leaves have one path. -/
theorem flatten_eq : ∀ (tree : JsonTree α) (pathPrefix : String) (depth : Nat),
    atom? tree = none → (paths pathPrefix (leaves tree)).Nodup →
    flatten maxDepth tree pathPrefix depth =
      if depth + height tree ≤ maxDepth + 1 then .ok (spelled pathPrefix (leaves tree))
      else .error (recursionError maxDepth)
  | .node (.atom _), _, _, hNone, _ => by cases hNone
  | .node (.list items), pathPrefix, depth, _, hNodup => by
      rw [flatten, height]
      by_cases hDepth : depth > maxDepth
      · rw [if_pos hDepth, if_neg (by omega)]
      · rw [if_neg hDepth]
        by_cases hItems : items = []
        · subst hItems
          rw [flattenItems, itemsHeight, if_pos (by omega), leaves]
          rfl
        · rw [JsonTree.leaves_list hItems] at hNodup ⊢
          rw [flattenItems_eq items pathPrefix depth 0 [] (by omega) hNodup, List.nil_append]
          exact if_congr (by omega) rfl rfl
  | .node (.dict entries), pathPrefix, depth, _, hNodup => by
      rw [flatten, height]
      by_cases hDepth : depth > maxDepth
      · rw [if_pos hDepth, if_neg (by omega)]
      · rw [if_neg hDepth]
        by_cases hEntries : entries = []
        · subst hEntries
          rw [flattenEntries, entriesHeight, if_pos (by omega), leaves]
          rfl
        · rw [JsonTree.leaves_dict hEntries] at hNodup ⊢
          rw [flattenEntries_eq entries pathPrefix depth [] (by omega) hNodup, List.nil_append]
          exact if_congr (by omega) rfl rfl

theorem flattenItems_eq : ∀ (items : List (JsonTree α)) (pathPrefix : String) (depth index : Nat)
    (result : List (String × α)), depth ≤ maxDepth →
    (result.map Prod.fst ++ paths pathPrefix (itemLeaves index items)).Nodup →
    flattenItems maxDepth items pathPrefix depth index result =
      if depth + itemsHeight items ≤ maxDepth then
        .ok (result ++ spelled pathPrefix (itemLeaves index items))
      else .error (recursionError maxDepth)
  | [], pathPrefix, depth, index, result, hDepth, _ => by
      rw [flattenItems, itemsHeight, if_pos (by omega), itemLeaves]
      show _ = Except.ok (result ++ [])
      rw [List.append_nil]
  | item :: items, pathPrefix, depth, index, result, hDepth, hNodup => by
      rw [itemLeaves, paths_append, paths_index, ← List.append_assoc] at hNodup
      rw [itemsHeight, itemLeaves, spelled_append, spelled_index, ← List.append_assoc,
        flattenItems_cons]
      exact turn_eq hNodup (flatten_eq item _ _)
        fun done => flattenItems_eq items pathPrefix depth (index + 1) done hDepth

theorem flattenEntries_eq : ∀ (entries : List (String × JsonTree α)) (pathPrefix : String)
    (depth : Nat) (result : List (String × α)), depth ≤ maxDepth →
    (result.map Prod.fst ++ paths pathPrefix (entryLeaves entries)).Nodup →
    flattenEntries maxDepth entries pathPrefix depth result =
      if depth + entriesHeight entries ≤ maxDepth then
        .ok (result ++ spelled pathPrefix (entryLeaves entries))
      else .error (recursionError maxDepth)
  | [], pathPrefix, depth, result, hDepth, _ => by
      rw [flattenEntries, entriesHeight, if_pos (by omega), entryLeaves]
      show _ = Except.ok (result ++ [])
      rw [List.append_nil]
  | (key, value) :: entries, pathPrefix, depth, result, hDepth, hNodup => by
      rw [entryLeaves, paths_append, paths_key, ← List.append_assoc] at hNodup
      rw [entriesHeight, entryLeaves, spelled_append, spelled_key, ← List.append_assoc,
        flattenEntries_cons]
      exact turn_eq hNodup (flatten_eq value _ _)
        fun done => flattenEntries_eq entries pathPrefix depth done hDepth

end

/-! ## Reading paths -/

/-- A key that stands for itself in a path. -/
def PlainKey (name : String) : Prop :=
  name ≠ "" ∧ '.' ∉ name.toList ∧ '[' ∉ name.toList

instance (name : String) : Decidable (PlainKey name) :=
  inferInstanceAs (Decidable (_ ∧ _))

/-- The text of the steps after the first one. -/
def stepsText : Position → List Char
  | [] => []
  | .key name :: position => '.' :: (name.toList ++ stepsText position)
  | .index place :: position => '[' :: ((toString place).toList ++ ']' :: stepsText position)

/-- The characters up to the first separator, and the steps from there on. -/
def readChunks : List Char → List Char × List Step
  | [] => ([], [])
  | char :: text =>
      let (chunk, steps) := readChunks text
      if char = '.' then ([], .key (String.ofList chunk) :: steps)
      else if char = '[' then ([], .index (Nat.ofDigitChars 10 chunk.dropLast 0) :: steps)
      else (char :: chunk, steps)

/-- The position that a path stands for. -/
def readPath (path : String) : Position :=
  let (chunk, steps) := readChunks path.toList
  if chunk.isEmpty then steps else .key (String.ofList chunk) :: steps

/-- The document of the entries of a flattened object. -/
def rebuild (entries : List (String × α)) : Option (JsonTree α) :=
  plantAll none (entries.map fun entry => (readPath entry.1, .node (.atom entry.2)))

theorem readChunks_append {chunk : List Char} (hChunk : ∀ char ∈ chunk, char ≠ '.' ∧ char ≠ '[')
    (text : List Char) :
    readChunks (chunk ++ text) = (chunk ++ (readChunks text).1, (readChunks text).2) := by
  induction chunk with
  | nil => rfl
  | cons char chunk ih =>
      obtain ⟨⟨hDot, hBracket⟩, hRest⟩ := List.forall_mem_cons.mp hChunk
      rw [List.cons_append, readChunks, ih hRest]
      dsimp only
      rw [if_neg hDot, if_neg hBracket, List.cons_append]

theorem PlainKey.chars {name : String} (hName : PlainKey name) :
    ∀ char ∈ name.toList, char ≠ '.' ∧ char ≠ '[' := by
  rintro char hChar
  refine ⟨?_, ?_⟩
  · rintro rfl
    exact hName.2.1 hChar
  · rintro rfl
    exact hName.2.2 hChar

theorem readChunks_stepsText {position : Position}
    (hPlain : ∀ name, Step.key name ∈ position → PlainKey name) :
    readChunks (stepsText position) = ([], position) := by
  induction position with
  | nil => rfl
  | cons step position ih =>
      have hRest := ih fun name hName => hPlain name (List.mem_cons_of_mem _ hName)
      cases step with
      | key name =>
          have hName := hPlain name List.mem_cons_self
          rw [stepsText, readChunks, readChunks_append hName.chars, hRest, List.append_nil]
          dsimp only
          rw [if_pos rfl, String.ofList_toList]
      | index place =>
          have hDigits : ∀ char ∈ (toString place).toList ++ [']'], char ≠ '.' ∧ char ≠ '[' := by
            intro char hChar
            rcases List.mem_append.mp hChar with hDigit | hClose
            · refine ⟨?_, ?_⟩
              · rintro rfl
                exact Paths.not_mem_toString (by decide) place hDigit
              · rintro rfl
                exact Paths.not_mem_toString (by decide) place hDigit
            · rw [List.mem_singleton.mp hClose]
              exact ⟨by decide, by decide⟩
          have hText : (toString place).toList ++ ']' :: stepsText position =
              ((toString place).toList ++ [']']) ++ stepsText position := by simp
          rw [stepsText, hText, readChunks, readChunks_append hDigits, hRest, List.append_nil]
          dsimp only
          rw [if_neg (by decide), if_pos rfl, List.dropLast_concat]
          have hToString : (toString place).toList = Nat.toDigits 10 place := by simp [toString]
          rw [hToString, Nat.ofDigitChars_ten_toDigits]

theorem toList_pathText {pathPrefix : String} (hPrefix : pathPrefix ≠ "") (position : Position) :
    (pathText pathPrefix position).toList = pathPrefix.toList ++ stepsText position := by
  induction position generalizing pathPrefix with
  | nil => rw [pathText, stepsText, List.append_nil]
  | cons step position ih =>
      have hLonger (rest : String) : pathPrefix ++ rest ≠ "" := fun hEmpty =>
        hPrefix (String.append_eq_empty_iff.mp hEmpty).1
      cases step with
      | key name =>
          rw [pathText, entryPath, if_pos hPrefix, stepsText, String.append_assoc,
            ih (hLonger _), String.toList_append, String.toList_append, List.append_assoc,
            List.append_assoc]
          rfl
      | index place =>
          rw [pathText, itemPath, if_pos hPrefix, stepsText, ih (hLonger _),
            String.toList_append, List.append_assoc]
          simp

/-- In an object whose keys are plain, a path stands for one position. -/
theorem readPath_pathText {name : String} {position : Position}
    (hPlain : ∀ other, Step.key other ∈ Step.key name :: position → PlainKey other) :
    readPath (pathText "" (.key name :: position)) = .key name :: position := by
  have hName := hPlain name List.mem_cons_self
  have hText : (pathText "" (.key name :: position)).toList =
      name.toList ++ stepsText position := by
    rw [pathText, entryPath, if_neg (by decide), toList_pathText hName.1]
  have hChars : name.toList.isEmpty = false := by
    rw [List.isEmpty_eq_false_iff]
    exact fun hEmpty => hName.1 (String.toList_eq_nil_iff.mp hEmpty)
  rw [readPath, hText, readChunks_append hName.chars,
    readChunks_stepsText fun other hOther => hPlain other (List.mem_cons_of_mem _ hOther),
    List.append_nil]
  dsimp only
  rw [hChars, String.ofList_toList]
  rfl

/-! ## Objects whose leaves have paths of their own -/

/-- The output has each atom of a document once, under its path. -/
structure ListsAtoms (tree : JsonTree α) (out : List (String × α)) : Prop where
  once : (out.map Prod.fst).Nodup
  entries : ∀ key value, (key, value) ∈ out ↔
    ∃ position, (position, .node (.atom value)) ∈ leaves tree ∧ key = pathText "" position
  count : out.length = (leaves tree).countP fun leaf => (atom? leaf.2).isSome

theorem listsAtoms_spelled {tree : JsonTree α} (hPaths : (paths "" (leaves tree)).Nodup) :
    ListsAtoms tree (spelled "" (leaves tree)) where
  once := hPaths.sublist (keys_spelled_sublist "" _)
  entries := by
    intro key value
    unfold spelled
    rw [List.mem_filterMap]
    constructor
    · rintro ⟨⟨position, tree⟩, hLeaf, hEntry⟩
      obtain ⟨atom, hAtom, hSame⟩ := Option.map_eq_some_iff.mp hEntry
      obtain ⟨rfl, rfl⟩ := Prod.mk.inj hSame
      exact ⟨position, eq_of_atom? hAtom ▸ hLeaf, rfl⟩
    · rintro ⟨position, hLeaf, rfl⟩
      exact ⟨_, hLeaf, rfl⟩
  count := by
    unfold spelled
    rw [List.length_filterMap_eq_countP]
    exact List.countP_congr fun leaf _ => by simp

/-- The run on an object, when no two leaves have one path: it fails where the object is
too deep, and otherwise lists every atom. -/
theorem flattenDict_listsAtoms (maxDepth : Nat) {object : JsonObject α}
    (hPaths : (paths "" (leaves object.tree)).Nodup) :
    if height object.tree ≤ maxDepth + 1 then
      flattenDict maxDepth object.tree = .ok (spelled "" (leaves object.tree)) ∧
        ListsAtoms object.tree (spelled "" (leaves object.tree))
    else flattenDict maxDepth object.tree = .error (recursionError maxDepth) := by
  have hRun := @flatten_eq α maxDepth object.tree "" 0 rfl hPaths
  rw [Nat.zero_add] at hRun
  split
  · rename_i hHeight
    rw [if_pos hHeight] at hRun
    exact ⟨hRun, listsAtoms_spelled hPaths⟩
  · rename_i hHeight
    rw [if_neg hHeight] at hRun
    exact hRun

/-- A key with a dot does no harm, as long as no other leaf has its path. -/
example : flattenDict 100 (.node (.dict [("example.com", .node (.atom "up")),
      ("hosts", .node (.dict [("a", .node (.atom "down"))]))])) =
    .ok [("example.com", "up"), ("hosts.a", "down")] := by decide

/-! ## Objects with plain keys -/

/-- The output lists the atoms of a document, with no two leaves under one path, and tells
the document if no container in it is empty. -/
structure KeepsAtoms (tree : JsonTree α) (out : List (String × α)) : Prop
    extends ListsAtoms tree out where
  apart : ∀ first ∈ leaves tree, ∀ second ∈ leaves tree,
    pathText "" first.1 = pathText "" second.1 → first.1 = second.1
  rebuilt : (∀ leaf ∈ leaves tree, (atom? leaf.2).isSome) → rebuild out = some tree

section Plain

variable {object : JsonObject α} (hKeys : ∀ name ∈ allKeys object.tree, PlainKey name)

include hKeys

theorem readPath_leaf (hSome : object.entries ≠ []) {leaf : Position × JsonTree α}
    (hLeaf : leaf ∈ leaves object.tree) : readPath (pathText "" leaf.1) = leaf.1 := by
  have hPlain : ∀ name, Step.key name ∈ leaf.1 → PlainKey name := fun name hName =>
    hKeys name (JsonTree.key_mem_allKeys object.tree leaf hLeaf name hName)
  rw [JsonObject.tree, JsonTree.leaves_dict hSome] at hLeaf
  -- a path from an object begins with a key
  obtain ⟨name, position, hPosition, -⟩ :=
    (JsonTree.nodup_entryPositions object.entries object.distinct.2 object.distinct.1).2 leaf.1
      (List.mem_map_of_mem hLeaf)
  rw [hPosition] at hPlain ⊢
  exact readPath_pathText hPlain

theorem apart_leaves {first second : Position × JsonTree α} (hFirst : first ∈ leaves object.tree)
    (hSecond : second ∈ leaves object.tree)
    (hSame : pathText "" first.1 = pathText "" second.1) : first.1 = second.1 := by
  by_cases hEntries : object.entries = []
  · have hLeaves : leaves object.tree = [([], object.tree)] := by
      rw [JsonObject.tree, hEntries, leaves]
    rw [hLeaves, List.mem_singleton] at hFirst hSecond
    rw [hFirst, hSecond]
  · rw [← readPath_leaf hKeys hEntries hFirst, hSame, readPath_leaf hKeys hEntries hSecond]

theorem nodup_paths : (paths "" (leaves object.tree)).Nodup := by
  have hPositions := JsonTree.nodup_positions object.tree object.distinct
  have hPaths : paths "" (leaves object.tree) =
      ((leaves object.tree).map Prod.fst).map (pathText "") := by
    rw [List.map_map]
    rfl
  rw [hPaths]
  refine List.Nodup.map_on ?_ hPositions
  intro first hFirst second hSecond hSame
  obtain ⟨leaf, hLeaf, rfl⟩ := List.mem_map.mp hFirst
  obtain ⟨other, hOther, rfl⟩ := List.mem_map.mp hSecond
  exact apart_leaves hKeys hLeaf hOther hSame

theorem rebuild_spelled (hAtoms : ∀ leaf ∈ leaves object.tree, (atom? leaf.2).isSome) :
    rebuild (spelled "" (leaves object.tree)) = some object.tree := by
  have hEntries : object.entries ≠ [] := by
    intro hEmpty
    have hLeaves : leaves object.tree = [([], .node (.dict []))] := by
      rw [JsonObject.tree, hEmpty, leaves]
    exact absurd (hAtoms _ (hLeaves ▸ List.mem_singleton_self _)) (by simp [atom?])
  have hRead : (spelled "" (leaves object.tree)).map
      (fun entry => (readPath entry.1, JsonTree.node (.atom entry.2))) = leaves object.tree := by
    have hPart : ∀ part : List (Position × JsonTree α), part ⊆ leaves object.tree →
        (spelled "" part).map (fun entry => (readPath entry.1, JsonTree.node (.atom entry.2))) =
          part := by
      intro part hPart
      induction part with
      | nil => rfl
      | cons leaf part ih =>
          have hLeaf := hPart List.mem_cons_self
          obtain ⟨value, hValue⟩ := Option.isSome_iff_exists.mp (hAtoms leaf hLeaf)
          have hTree := eq_of_atom? hValue
          have hRest := ih fun other hOther => hPart (List.mem_cons_of_mem _ hOther)
          unfold spelled at hRest ⊢
          rw [List.filterMap_cons, hValue]
          show (readPath (pathText "" leaf.1), JsonTree.node (.atom value)) :: _ = _
          rw [readPath_leaf hKeys hEntries hLeaf, hRest, ← hTree]
    exact hPart _ (List.Subset.refl _)
  rw [rebuild, hRead]
  exact JsonTree.plantAll_leaves object.tree object.distinct

/-- The run on an object with plain keys: it fails where the object is too deep, and
otherwise keeps every atom. -/
theorem flattenDict_keepsAtoms (maxDepth : Nat) :
    if height object.tree ≤ maxDepth + 1 then
      ∃ out, flattenDict maxDepth object.tree = .ok out ∧ KeepsAtoms object.tree out
    else flattenDict maxDepth object.tree = .error (recursionError maxDepth) := by
  have hRun := flattenDict_listsAtoms maxDepth (nodup_paths hKeys)
  split
  · rename_i hHeight
    rw [if_pos hHeight] at hRun
    obtain ⟨hOut, hLists⟩ := hRun
    exact ⟨_, hOut, hLists, fun _ hFirst _ hSecond hSame =>
      apart_leaves hKeys hFirst hSecond hSame, rebuild_spelled hKeys⟩
  · rename_i hHeight
    rw [if_neg hHeight] at hRun
    exact hRun

end Plain

/-- A nested object of which every part is kept. -/
def userObject : JsonObject String where
  entries := [("user", .node (.dict [("name", .node (.atom "Alice")),
    ("data", .node (.list [.node (.atom "1"), .node (.atom "2")]))]))]
  distinct := ⟨by decide, ⟨⟨by decide, ⟨trivial, ⟨⟨trivial, trivial, trivial⟩, trivial⟩⟩⟩, trivial⟩⟩

theorem userObject_keepsAtoms :
    ∃ out, flattenDict 100 userObject.tree = .ok out ∧ KeepsAtoms userObject.tree out :=
  @flattenDict_keepsAtoms String userObject (by decide) 100

example : flattenDict 100 userObject.tree =
    .ok [("user.name", "Alice"), ("user.data[0]", "1"), ("user.data[1]", "2")] := by decide

/-- An object with an empty object in it. -/
def emptyMember : JsonObject String where
  entries := [("a", .node (.dict []))]
  distinct := ⟨by decide, ⟨⟨by decide, trivial⟩, trivial⟩⟩

/-- The empty object is a leaf and leaves no trace. -/
theorem emptyMember_lost :
    (leaves emptyMember.tree).length = 1 ∧ flattenDict 100 emptyMember.tree = .ok [] := by
  decide

end Transform
end Tracecat
