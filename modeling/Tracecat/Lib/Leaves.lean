import Tracecat.Lib.Assoc
import Tracecat.Lib.JsonTree

/-!
# Leaves of JSON documents

A document seen as its leaves, each under its position: an atom, or a container
without children.  Planting the leaves one after another builds the document again.
-/

namespace Tracecat

variable {α : Type}

namespace JsonTree

/-- A step from a container to a child. -/
inductive Step
  | key (name : String)
  | index (place : Nat)
  deriving DecidableEq, Repr

abbrev Position : Type := List Step

/-- A leaf of a child, as one of the container. -/
def beneath {β : Type} (step : Step) (leaf : Position × β) : Position × β :=
  (step :: leaf.1, leaf.2)

mutual

def leaves : JsonTree α → List (Position × JsonTree α)
  | .node (.atom value) => [([], .node (.atom value))]
  | .node (.list []) => [([], .node (.list []))]
  | .node (.list (item :: items)) =>
      (leaves item).map (beneath (.index 0)) ++ itemLeaves 1 items
  | .node (.dict []) => [([], .node (.dict []))]
  | .node (.dict ((key, value) :: entries)) =>
      (leaves value).map (beneath (.key key)) ++ entryLeaves entries

def itemLeaves : Nat → List (JsonTree α) → List (Position × JsonTree α)
  | _, [] => []
  | place, item :: items => (leaves item).map (beneath (.index place)) ++ itemLeaves (place + 1) items

def entryLeaves : List (String × JsonTree α) → List (Position × JsonTree α)
  | [] => []
  | (key, value) :: entries => (leaves value).map (beneath (.key key)) ++ entryLeaves entries

end

theorem leaves_list {items : List (JsonTree α)} (hItems : items ≠ []) :
    leaves (.node (.list items)) = itemLeaves 0 items := by
  cases items with
  | nil => exact absurd rfl hItems
  | cons item items => rw [leaves, itemLeaves]

theorem leaves_dict {entries : List (String × JsonTree α)} (hEntries : entries ≠ []) :
    leaves (.node (.dict entries)) = entryLeaves entries := by
  cases entries with
  | nil => exact absurd rfl hEntries
  | cons entry entries => rw [leaves, entryLeaves]

mutual

def allKeys : JsonTree α → List String
  | .node (.atom _) => []
  | .node (.list items) => itemKeys items
  | .node (.dict entries) => entryKeys entries

def itemKeys : List (JsonTree α) → List String
  | [] => []
  | item :: items => allKeys item ++ itemKeys items

def entryKeys : List (String × JsonTree α) → List String
  | [] => []
  | (key, value) :: entries => key :: (allKeys value ++ entryKeys entries)

end

mutual

/-- No object has a key twice. -/
def DistinctKeys : JsonTree α → Prop
  | .node (.atom _) => True
  | .node (.list items) => DistinctItemKeys items
  | .node (.dict entries) => (entries.map Prod.fst).Nodup ∧ DistinctEntryKeys entries

def DistinctItemKeys : List (JsonTree α) → Prop
  | [] => True
  | item :: items => DistinctKeys item ∧ DistinctItemKeys items

def DistinctEntryKeys : List (String × JsonTree α) → Prop
  | [] => True
  | (_, value) :: entries => DistinctKeys value ∧ DistinctEntryKeys entries

end

theorem distinctEntryKeys_iff {entries : List (String × JsonTree α)} :
    DistinctEntryKeys entries ↔ ∀ entry ∈ entries, DistinctKeys entry.2 := by
  induction entries with
  | nil => simp [DistinctEntryKeys]
  | cons first entries ih => rw [DistinctEntryKeys, ih, List.forall_mem_cons]

theorem distinctKeys_of_mem {entries : List (String × JsonTree α)} {entry : String × JsonTree α}
    (hDistinct : DistinctEntryKeys entries) (hEntry : entry ∈ entries) : DistinctKeys entry.2 :=
  distinctEntryKeys_iff.mp hDistinct entry hEntry

mutual

/-- How many containers lie in each other, at most. -/
def height : JsonTree α → Nat
  | .node (.atom _) => 0
  | .node (.list items) => itemsHeight items + 1
  | .node (.dict entries) => entriesHeight entries + 1

def itemsHeight : List (JsonTree α) → Nat
  | [] => 0
  | item :: items => max (height item) (itemsHeight items)

def entriesHeight : List (String × JsonTree α) → Nat
  | [] => 0
  | (_, value) :: entries => max (height value) (entriesHeight entries)

end

def atom? : JsonTree α → Option α
  | .node (.atom value) => some value
  | _ => none

/-! ## Building a document -/

def entriesOf : Option (JsonTree α) → List (String × JsonTree α)
  | some (.node (.dict entries)) => entries
  | _ => []

def itemsOf : Option (JsonTree α) → List (JsonTree α)
  | some (.node (.list items)) => items
  | _ => []

/-- A leaf is put where its position says; containers on the way come into being. -/
def plant (leaf : JsonTree α) : Position → Option (JsonTree α) → JsonTree α
  | [], _ => leaf
  | .key name :: position, state =>
      .node (.dict (Assoc.set name (plant leaf position ((entriesOf state).lookup name))
        (entriesOf state)))
  | .index place :: position, state =>
      if place < (itemsOf state).length then
        .node (.list ((itemsOf state).modify place fun item => plant leaf position (some item)))
      else .node (.list (itemsOf state ++ [plant leaf position none]))

/-- Leaves are planted into a document, or into none. -/
def plantAll (state : Option (JsonTree α)) (leaves : List (Position × JsonTree α)) :
    Option (JsonTree α) :=
  leaves.foldl (fun state leaf => some (plant leaf.2 leaf.1 state)) state

theorem plantAll_append (state : Option (JsonTree α)) (first second : List (Position × JsonTree α)) :
    plantAll state (first ++ second) = plantAll (plantAll state first) second :=
  List.foldl_append

mutual

theorem leaves_ne_nil : ∀ tree : JsonTree α, leaves tree ≠ []
  | .node (.atom value) => by rw [leaves]; exact List.cons_ne_nil _ _
  | .node (.list []) => by rw [leaves]; exact List.cons_ne_nil _ _
  | .node (.list (item :: items)) => by
      rw [leaves]
      exact List.append_ne_nil_of_left_ne_nil (by simpa using leaves_ne_nil item) _
  | .node (.dict []) => by rw [leaves]; exact List.cons_ne_nil _ _
  | .node (.dict ((key, value) :: entries)) => by
      rw [leaves]
      exact List.append_ne_nil_of_left_ne_nil (by simpa using leaves_ne_nil value) _

end

/-- What was built before, and a child if there is one. -/
def withEntry (done : List (String × JsonTree α)) (name : String) :
    Option (JsonTree α) → List (String × JsonTree α)
  | none => done
  | some child => done ++ [(name, child)]

def withItem (done : List (JsonTree α)) : Option (JsonTree α) → List (JsonTree α)
  | none => done
  | some child => done ++ [child]

theorem set_withEntry {done : List (String × JsonTree α)} {name : String}
    (hName : name ∉ done.map Prod.fst) (child : Option (JsonTree α)) (next : JsonTree α) :
    Assoc.set name next (withEntry done name child) = withEntry done name (some next) := by
  cases child with
  | none => exact Assoc.set_of_notMem hName
  | some child =>
      show Assoc.set name next (done ++ [(name, child)]) = done ++ [(name, next)]
      induction done with
      | nil => simp [Assoc.set]
      | cons entry done ih =>
          rw [List.map_cons, List.mem_cons, not_or] at hName
          rw [List.cons_append, Assoc.set, if_neg (Ne.symm hName.1), ih hName.2, List.cons_append]

theorem lookup_withEntry {done : List (String × JsonTree α)} {name : String}
    (hName : name ∉ done.map Prod.fst) (child : Option (JsonTree α)) :
    (withEntry done name child).lookup name = child := by
  have hDone : done.lookup name = none := by
    rw [← Option.not_isSome_iff_eq_none, Assoc.lookup_isSome_iff]
    exact hName
  cases child with
  | none => exact hDone
  | some child =>
      show (done ++ [(name, child)]).lookup name = _
      rw [List.lookup_append, hDone, Option.none_or, Assoc.lookup_cons_eq_ite, if_pos rfl]

theorem modify_last {β : Type} (change : β → β) (done : List β) (last : β) :
    (done ++ [last]).modify done.length change = done ++ [change last] := by
  induction done with
  | nil => rfl
  | cons item done ih => exact congrArg (item :: ·) ih

/-- The leaves of one entry build its value beside the entries before it. -/
theorem plantAll_key {done : List (String × JsonTree α)} {name : String}
    (hName : name ∉ done.map Prod.fst) (leaves : List (Position × JsonTree α))
    (state child : Option (JsonTree α)) (hState : entriesOf state = withEntry done name child) :
    entriesOf (plantAll state (leaves.map (beneath (.key name)))) =
        withEntry done name (plantAll child leaves) ∧
      (leaves ≠ [] → plantAll state (leaves.map (beneath (.key name))) =
        some (.node (.dict (withEntry done name (plantAll child leaves))))) := by
  induction leaves generalizing state child with
  | nil => exact ⟨hState, fun hSome => absurd rfl hSome⟩
  | cons leaf leaves ih =>
      have hPlant : plant leaf.2 (.key name :: leaf.1) state =
          .node (.dict (withEntry done name (some (plant leaf.2 leaf.1 child)))) := by
        rw [plant, hState, lookup_withEntry hName, set_withEntry hName]
      have hStep : plantAll state ((leaf :: leaves).map (beneath (.key name))) =
          plantAll (some (.node (.dict (withEntry done name (some (plant leaf.2 leaf.1 child))))))
            (leaves.map (beneath (.key name))) := by
        rw [← hPlant]
        rfl
      have hRest := ih (some (.node (.dict (withEntry done name (some (plant leaf.2 leaf.1 child))))))
        (some (plant leaf.2 leaf.1 child)) rfl
      rw [hStep]
      refine ⟨hRest.1, fun _ => ?_⟩
      by_cases hLeaves : leaves = []
      · subst hLeaves
        rfl
      · exact hRest.2 hLeaves

/-- The leaves of one item build it behind the items before it. -/
theorem plantAll_index {done : List (JsonTree α)} (leaves : List (Position × JsonTree α))
    (state child : Option (JsonTree α)) (hState : itemsOf state = withItem done child) :
    itemsOf (plantAll state (leaves.map (beneath (.index done.length)))) =
        withItem done (plantAll child leaves) ∧
      (leaves ≠ [] → plantAll state (leaves.map (beneath (.index done.length))) =
        some (.node (.list (withItem done (plantAll child leaves))))) := by
  induction leaves generalizing state child with
  | nil => exact ⟨hState, fun hSome => absurd rfl hSome⟩
  | cons leaf leaves ih =>
      have hPlant : plant leaf.2 (.index done.length :: leaf.1) state =
          .node (.list (withItem done (some (plant leaf.2 leaf.1 child)))) := by
        rw [plant, hState]
        cases child with
        | none =>
            show (if done.length < done.length then _ else _) = _
            rw [if_neg (Nat.lt_irrefl _)]
            rfl
        | some child =>
            have hLength : done.length < (withItem done (some child)).length := by
              simp [withItem]
            rw [if_pos hLength]
            show JsonTree.node (.list ((done ++ [child]).modify done.length _)) = _
            rw [modify_last]
            rfl
      have hStep : plantAll state ((leaf :: leaves).map (beneath (.index done.length))) =
          plantAll (some (.node (.list (withItem done (some (plant leaf.2 leaf.1 child))))))
            (leaves.map (beneath (.index done.length))) := by
        rw [← hPlant]
        rfl
      have hRest := ih (some (.node (.list (withItem done (some (plant leaf.2 leaf.1 child))))))
        (some (plant leaf.2 leaf.1 child)) rfl
      rw [hStep]
      refine ⟨hRest.1, fun _ => ?_⟩
      by_cases hLeaves : leaves = []
      · subst hLeaves
        rfl
      · exact hRest.2 hLeaves

mutual

/-- A document is built from its leaves. -/
theorem plantAll_leaves : ∀ tree : JsonTree α, DistinctKeys tree →
    plantAll none (leaves tree) = some tree
  | .node (.atom value), _ => by rw [leaves]; rfl
  | .node (.list []), _ => by rw [leaves]; rfl
  | .node (.dict []), _ => by rw [leaves]; rfl
  | .node (.list (item :: items)), hDistinct => by
      rw [leaves_list (List.cons_ne_nil item items)]
      exact plantAll_items (item :: items) hDistinct [] none rfl (List.cons_ne_nil item items)
  | .node (.dict (entry :: entries)), hDistinct => by
      rw [leaves_dict (List.cons_ne_nil entry entries)]
      exact plantAll_entries (entry :: entries) hDistinct.2 [] none rfl hDistinct.1
        (List.cons_ne_nil entry entries)

theorem plantAll_items : ∀ items : List (JsonTree α), DistinctItemKeys items →
    ∀ done state, itemsOf state = done → items ≠ [] →
      plantAll state (itemLeaves done.length items) = some (.node (.list (done ++ items)))
  | [], _, _, _, _, hSome => absurd rfl hSome
  | item :: items, hDistinct, done, state, hState, _ => by
      have hItem := (plantAll_index (leaves item) state none hState).2 (leaves_ne_nil item)
      rw [plantAll_leaves item hDistinct.1] at hItem
      rw [itemLeaves, plantAll_append, hItem]
      by_cases hItems : items = []
      · subst hItems
        rfl
      · have hRest := plantAll_items items hDistinct.2 (done ++ [item])
          (some (.node (.list (done ++ [item])))) rfl hItems
        rw [List.length_append, List.append_assoc] at hRest
        exact hRest

theorem plantAll_entries : ∀ entries : List (String × JsonTree α), DistinctEntryKeys entries →
    ∀ done state, entriesOf state = done → ((done ++ entries).map Prod.fst).Nodup →
      entries ≠ [] → plantAll state (entryLeaves entries) = some (.node (.dict (done ++ entries)))
  | [], _, _, _, _, _, hSome => absurd rfl hSome
  | (key, value) :: entries, hDistinct, done, state, hState, hNodup, _ => by
      have hKey : key ∉ done.map Prod.fst := by
        rw [List.map_append, List.map_cons] at hNodup
        exact fun hMem => (List.nodup_append.mp hNodup).2.2 _ hMem _ List.mem_cons_self rfl
      have hValue := (plantAll_key hKey (leaves value) state none hState).2 (leaves_ne_nil value)
      rw [plantAll_leaves value hDistinct.1] at hValue
      rw [entryLeaves, plantAll_append, hValue]
      by_cases hEntries : entries = []
      · subst hEntries
        rfl
      · have hRest := plantAll_entries entries hDistinct.2 (done ++ [(key, value)])
          (some (.node (.dict (done ++ [(key, value)])))) rfl (by simpa using hNodup) hEntries
        rw [List.append_assoc] at hRest
        exact hRest

end

/-! ## Positions -/

mutual

theorem nodup_positions : ∀ tree : JsonTree α, DistinctKeys tree →
    ((leaves tree).map Prod.fst).Nodup
  | .node (.atom value), _ => by rw [leaves]; exact List.nodup_singleton _
  | .node (.list []), _ => by rw [leaves]; exact List.nodup_singleton _
  | .node (.dict []), _ => by rw [leaves]; exact List.nodup_singleton _
  | .node (.list (item :: items)), hDistinct => by
      rw [leaves_list (List.cons_ne_nil item items)]
      exact (nodup_itemPositions (item :: items) hDistinct 0).1
  | .node (.dict (entry :: entries)), hDistinct => by
      rw [leaves_dict (List.cons_ne_nil entry entries)]
      exact (nodup_entryPositions (entry :: entries) hDistinct.2 hDistinct.1).1

theorem nodup_itemPositions : ∀ items : List (JsonTree α), DistinctItemKeys items →
    ∀ place, ((itemLeaves place items).map Prod.fst).Nodup ∧
      ∀ position ∈ (itemLeaves place items).map Prod.fst,
        ∃ other rest, position = .index other :: rest ∧ place ≤ other
  | [], _, place => ⟨List.nodup_nil, fun _ hNone => absurd hNone List.not_mem_nil⟩
  | item :: items, hDistinct, place => by
      obtain ⟨hRest, hLater⟩ := nodup_itemPositions items hDistinct.2 (place + 1)
      have hItem := nodup_positions item hDistinct.1
      rw [itemLeaves, List.map_append, List.map_map]
      have hHere : (leaves item).map (Prod.fst ∘ beneath (.index place)) =
          ((leaves item).map Prod.fst).map (Step.index place :: ·) := by
        rw [List.map_map]
        rfl
      rw [hHere]
      refine ⟨List.nodup_append.mpr ⟨hItem.map (fun _ _ => List.tail_eq_of_cons_eq), hRest, ?_⟩, ?_⟩
      · rintro position hPosition _ hOther rfl
        obtain ⟨rest, -, rfl⟩ := List.mem_map.mp hPosition
        obtain ⟨other, _, hSame, hLe⟩ := hLater _ hOther
        have hPlace := Step.index.inj (List.cons.inj hSame).1
        omega
      · intro position hPosition
        rcases List.mem_append.mp hPosition with hMem | hMem
        · obtain ⟨rest, -, rfl⟩ := List.mem_map.mp hMem
          exact ⟨place, rest, rfl, Nat.le_refl _⟩
        · obtain ⟨other, rest, hSame, hLe⟩ := hLater position hMem
          exact ⟨other, rest, hSame, by omega⟩

theorem nodup_entryPositions : ∀ entries : List (String × JsonTree α), DistinctEntryKeys entries →
    (entries.map Prod.fst).Nodup → ((entryLeaves entries).map Prod.fst).Nodup ∧
      ∀ position ∈ (entryLeaves entries).map Prod.fst,
        ∃ name rest, position = .key name :: rest ∧ name ∈ entries.map Prod.fst
  | [], _, _ => ⟨List.nodup_nil, fun _ hNone => absurd hNone List.not_mem_nil⟩
  | (key, value) :: entries, hDistinct, hNodup => by
      rw [List.map_cons, List.nodup_cons] at hNodup
      obtain ⟨hRest, hLater⟩ := nodup_entryPositions entries hDistinct.2 hNodup.2
      have hValue := nodup_positions value hDistinct.1
      rw [entryLeaves, List.map_append, List.map_map]
      have hHere : (leaves value).map (Prod.fst ∘ beneath (.key key)) =
          ((leaves value).map Prod.fst).map (Step.key key :: ·) := by
        rw [List.map_map]
        rfl
      rw [hHere]
      refine ⟨List.nodup_append.mpr ⟨hValue.map (fun _ _ => List.tail_eq_of_cons_eq), hRest, ?_⟩, ?_⟩
      · rintro position hPosition _ hOther rfl
        obtain ⟨rest, -, rfl⟩ := List.mem_map.mp hPosition
        obtain ⟨other, _, hSame, hMem⟩ := hLater _ hOther
        exact hNodup.1 (Step.key.inj (List.cons.inj hSame).1 ▸ hMem)
      · intro position hPosition
        rcases List.mem_append.mp hPosition with hMem | hMem
        · obtain ⟨rest, -, rfl⟩ := List.mem_map.mp hMem
          exact ⟨key, rest, rfl, List.mem_cons_self⟩
        · obtain ⟨name, rest, hSame, hName⟩ := hLater position hMem
          exact ⟨name, rest, hSame, List.mem_cons_of_mem _ hName⟩

end

mutual

theorem key_mem_allKeys : ∀ tree : JsonTree α, ∀ leaf ∈ leaves tree,
    ∀ name, Step.key name ∈ leaf.1 → name ∈ allKeys tree
  | .node (.atom value), leaf, hLeaf, name, hName => by
      rw [leaves, List.mem_singleton] at hLeaf
      subst hLeaf
      cases hName
  | .node (.list []), leaf, hLeaf, name, hName => by
      rw [leaves, List.mem_singleton] at hLeaf
      subst hLeaf
      cases hName
  | .node (.dict []), leaf, hLeaf, name, hName => by
      rw [leaves, List.mem_singleton] at hLeaf
      subst hLeaf
      cases hName
  | .node (.list (item :: items)), leaf, hLeaf, name, hName => by
      rw [leaves_list (List.cons_ne_nil item items)] at hLeaf
      exact key_mem_itemKeys (item :: items) 0 leaf hLeaf name hName
  | .node (.dict (entry :: entries)), leaf, hLeaf, name, hName => by
      rw [leaves_dict (List.cons_ne_nil entry entries)] at hLeaf
      exact key_mem_entryKeys (entry :: entries) leaf hLeaf name hName

theorem key_mem_itemKeys : ∀ (items : List (JsonTree α)) (place : Nat),
    ∀ leaf ∈ itemLeaves place items, ∀ name, Step.key name ∈ leaf.1 → name ∈ itemKeys items
  | [], _, _, hLeaf, _, _ => absurd hLeaf List.not_mem_nil
  | item :: items, place, leaf, hLeaf, name, hName => by
      rw [itemLeaves] at hLeaf
      rw [itemKeys, List.mem_append]
      rcases List.mem_append.mp hLeaf with hMem | hMem
      · obtain ⟨inner, hInner, rfl⟩ := List.mem_map.mp hMem
        rcases List.mem_cons.mp hName with hStep | hStep
        · cases hStep
        · exact Or.inl (key_mem_allKeys item inner hInner name hStep)
      · exact Or.inr (key_mem_itemKeys items (place + 1) leaf hMem name hName)

theorem key_mem_entryKeys : ∀ (entries : List (String × JsonTree α)),
    ∀ leaf ∈ entryLeaves entries, ∀ name, Step.key name ∈ leaf.1 → name ∈ entryKeys entries
  | [], _, hLeaf, _, _ => absurd hLeaf List.not_mem_nil
  | (key, value) :: entries, leaf, hLeaf, name, hName => by
      rw [entryLeaves] at hLeaf
      rw [entryKeys, List.mem_cons, List.mem_append]
      rcases List.mem_append.mp hLeaf with hMem | hMem
      · obtain ⟨inner, hInner, rfl⟩ := List.mem_map.mp hMem
        rcases List.mem_cons.mp hName with hStep | hStep
        · exact Or.inl (Step.key.inj hStep)
        · exact Or.inr (Or.inl (key_mem_allKeys value inner hInner name hStep))
      · exact Or.inr (Or.inr (key_mem_entryKeys entries leaf hMem name hName))

end

end JsonTree

/-- An object: a dictionary in which, as in all dictionaries inside it, no key comes twice. -/
structure JsonObject (α : Type) where
  entries : List (String × JsonTree α)
  distinct : JsonTree.DistinctKeys (.node (.dict entries))

def JsonObject.tree (object : JsonObject α) : JsonTree α := .node (.dict object.entries)

end Tracecat
