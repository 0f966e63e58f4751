import Mathlib.Data.List.Basic
import Mathlib.Data.List.Induction
import Mathlib.Data.List.Nodup

/-!
# Grouping in order of first occurrence

Items are merged into the first group with the same key, or begin a group of their
own.  The groups come out in the order of their first items, each as the merge of its
members from left to right.
-/

namespace Tracecat
namespace Grouping

variable {α κ : Type*}

/-! ## First occurrences -/

/-- The items to which no item before them is related. -/
def firstsAfter (related : α → α → Bool) : List α → List α → List α
  | _, [] => []
  | earlier, item :: items =>
      if earlier.any fun other => related other item then
        firstsAfter related (earlier ++ [item]) items
      else item :: firstsAfter related (earlier ++ [item]) items

def firsts (related : α → α → Bool) (items : List α) : List α :=
  firstsAfter related [] items

variable {related other : α → α → Bool}

theorem firstsAfter_append (earlier first second : List α) :
    firstsAfter related earlier (first ++ second) =
      firstsAfter related earlier first ++ firstsAfter related (earlier ++ first) second := by
  induction first generalizing earlier with
  | nil => simp [firstsAfter]
  | cons item first ih =>
      rw [List.cons_append, firstsAfter, firstsAfter, ih, List.append_assoc, List.singleton_append]
      split <;> rfl

theorem firsts_concat (items : List α) (item : α) :
    firsts related (items ++ [item]) =
      firsts related items ++ if items.any fun other => related other item then [] else [item] := by
  rw [firsts, firstsAfter_append, List.nil_append]
  congr 1

theorem firsts_sublist (items : List α) : (firsts related items).Sublist items := by
  have hAfter (earlier : List α) : (firstsAfter related earlier items).Sublist items := by
    induction items generalizing earlier with
    | nil => exact List.Sublist.slnil
    | cons item items ih =>
        rw [firstsAfter]
        split
        · exact (ih _).cons _
        · exact (ih _).cons_cons _
  exact hAfter []

theorem firsts_map {β : Type*} (f : β → α) (items : List β) :
    firsts related (items.map f) =
      (firsts (fun first second => related (f first) (f second)) items).map f := by
  induction items using List.reverseRecOn with
  | nil => rfl
  | append_singleton items item ih =>
      rw [List.map_append, List.map_singleton, firsts_concat, firsts_concat, ih, List.map_append,
        List.any_map]
      congr 1
      show (if (items.any fun other => related (f other) (f item)) = true then [] else [f item]) = _
      split <;> rfl

theorem firsts_congr {items : List α}
    (hAgree : ∀ first ∈ items, ∀ second ∈ items, related first second = other first second) :
    firsts related items = firsts other items := by
  induction items using List.reverseRecOn with
  | nil => rfl
  | append_singleton items item ih =>
      have hAny : (items.any fun first => related first item) =
          items.any fun first => other first item := by
        rw [Bool.eq_iff_iff, List.any_eq_true, List.any_eq_true]
        exact exists_congr fun first => and_congr_right fun hFirst => by
          rw [hAgree first (List.mem_append_left _ hFirst) item (by simp)]
      rw [firsts_concat, firsts_concat, hAny, ih fun first hFirst second hSecond =>
        hAgree first (List.mem_append_left _ hFirst) second (List.mem_append_left _ hSecond)]

/-! ## Items with a key -/

section Keyed

variable [DecidableEq κ] (key : α → κ)

def sameKey (first second : α) : Bool := decide (key first = key second)

variable {key}

theorem nodup_firsts (items : List α) : ((firsts (sameKey key) items).map key).Nodup := by
  induction items using List.reverseRecOn with
  | nil => exact List.nodup_nil
  | append_singleton items item ih =>
      rw [firsts_concat]
      split
      · rwa [List.append_nil]
      · rename_i hNone
        rw [List.map_append, List.map_singleton, List.nodup_append]
        refine ⟨ih, List.nodup_singleton _, ?_⟩
        rintro _ hMem _ hItem hSame
        obtain ⟨first, hFirst, rfl⟩ := List.mem_map.mp hMem
        rw [List.mem_singleton] at hItem
        apply hNone
        rw [List.any_eq_true]
        exact ⟨first, (firsts_sublist items).subset hFirst, decide_eq_true (hSame.trans hItem)⟩

theorem exists_first {items : List α} {item : α} (hItem : item ∈ items) :
    ∃ first ∈ firsts (sameKey key) items, key first = key item := by
  induction items using List.reverseRecOn generalizing item with
  | nil => cases hItem
  | append_singleton items last ih =>
      rw [firsts_concat]
      rcases List.mem_append.mp hItem with hMem | hMem
      · obtain ⟨first, hFirst, hKey⟩ := ih hMem
        exact ⟨first, List.mem_append_left _ hFirst, hKey⟩
      · rw [List.mem_singleton] at hMem
        subst hMem
        split
        · rename_i hAny
          obtain ⟨before, hBefore, hSame⟩ := List.any_eq_true.mp hAny
          obtain ⟨first, hFirst, hKey⟩ := ih hBefore
          exact ⟨first, List.mem_append_left _ hFirst, hKey.trans (of_decide_eq_true hSame)⟩
        · exact ⟨item, List.mem_append_right _ (List.mem_singleton_self _), rfl⟩

end Keyed

/-! ## Merging -/

section Merging

variable {β : Type*} (same : κ → κ → Bool) (merge : β → β → β)

/-- An entry is merged into the first group with its key, or comes last. -/
def add (entry : κ × β) : List (κ × β) → List (κ × β)
  | [] => [entry]
  | group :: groups =>
      if same group.1 entry.1 then (group.1, merge group.2 entry.2) :: groups
      else group :: add entry groups

def collect (entries : List (κ × β)) : List (κ × β) :=
  entries.foldl (fun groups entry => add same merge entry groups) []

variable {same merge} {γ : Type*} [DecidableEq γ] {norm : κ → γ}
  (hSame : ∀ first second, same first second = decide (norm first = norm second))

include hSame

theorem add_of_none {entry : κ × β} {groups : List (κ × β)}
    (hNone : norm entry.1 ∉ groups.map fun group => norm group.1) :
    add same merge entry groups = groups ++ [entry] := by
  induction groups with
  | nil => rfl
  | cons group groups ih =>
      rw [List.map_cons, List.mem_cons, not_or] at hNone
      have hApart : same group.1 entry.1 = false := by
        rw [hSame]
        exact decide_eq_false (Ne.symm hNone.1)
      rw [add, hApart, if_neg Bool.false_ne_true, ih hNone.2, List.cons_append]

/-- With distinct keys, exactly the groups with the key of the entry change. -/
theorem add_of_mem {entry : κ × β} {groups : List (κ × β)}
    (hNodup : (groups.map fun group => norm group.1).Nodup)
    (hMem : norm entry.1 ∈ groups.map fun group => norm group.1) :
    add same merge entry groups = groups.map fun group =>
      if norm group.1 = norm entry.1 then (group.1, merge group.2 entry.2) else group := by
  induction groups with
  | nil => cases hMem
  | cons group groups ih =>
      rw [List.map_cons, List.nodup_cons] at hNodup
      rw [add, hSame, List.map_cons]
      by_cases hKey : norm group.1 = norm entry.1
      · have hRest : (groups.map fun group =>
            if norm group.1 = norm entry.1 then (group.1, merge group.2 entry.2) else group) =
              groups := by
          conv_rhs => rw [← List.map_id groups]
          apply List.map_congr_left
          intro other hOther
          rw [if_neg, id]
          intro hOtherKey
          exact hNodup.1 (List.mem_map.mpr ⟨other, hOther, hOtherKey.trans hKey.symm⟩)
        rw [hRest, decide_eq_true hKey, if_pos rfl, if_pos hKey]
      · have hRest : norm entry.1 ∈ groups.map fun group => norm group.1 :=
          (List.mem_cons.mp hMem).resolve_left (Ne.symm hKey)
        rw [decide_eq_false hKey, if_neg Bool.false_ne_true, if_neg hKey, ih hNodup.2 hRest]

theorem collect_eq {start : β} (hStart : ∀ value, merge start value = value)
    (entries : List (κ × β)) :
    collect same merge entries =
      (firsts (sameKey fun entry => norm entry.1) entries).map fun first =>
        (first.1, ((entries.filter (sameKey (fun entry => norm entry.1) first)).map
          Prod.snd).foldl merge start) := by
  induction entries using List.reverseRecOn with
  | nil => rfl
  | append_singleton entries entry ih =>
      have hFold : collect same merge (entries ++ [entry]) =
          add same merge entry (collect same merge entries) := by
        rw [collect, List.foldl_append]
        rfl
      rw [hFold, ih, firsts_concat]
      have hKeys : ((firsts (sameKey fun entry => norm entry.1) entries).map fun first =>
          (first.1, ((entries.filter (sameKey (fun entry => norm entry.1) first)).map
            Prod.snd).foldl merge start)).map (fun group => norm group.1) =
          (firsts (sameKey fun entry => norm entry.1) entries).map fun entry => norm entry.1 := by
        rw [List.map_map]
        rfl
      by_cases hAny : entries.any fun other => sameKey (fun entry => norm entry.1) other entry
      · obtain ⟨before, hBefore, hBeforeKey⟩ := List.any_eq_true.mp hAny
        obtain ⟨first, hFirst, hFirstKey⟩ := @exists_first _ _ _ (fun entry => norm entry.1) _ _ hBefore
        have hMem : norm entry.1 ∈ (firsts (sameKey fun entry => norm entry.1) entries).map
            fun entry => norm entry.1 :=
          List.mem_map.mpr ⟨first, hFirst, hFirstKey.trans (of_decide_eq_true hBeforeKey)⟩
        rw [if_pos hAny, List.append_nil,
          add_of_mem hSame (by rw [hKeys]; exact nodup_firsts entries) (by rw [hKeys]; exact hMem),
          List.map_map]
        apply List.map_congr_left
        intro group _
        rw [List.filter_append, List.map_append, List.foldl_append]
        by_cases hKey : norm group.1 = norm entry.1
        · have hTrue : sameKey (fun entry => norm entry.1) group entry = true := decide_eq_true hKey
          rw [List.filter_cons_of_pos hTrue]
          exact if_pos hKey
        · have hFalse : ¬ sameKey (fun entry => norm entry.1) group entry = true := fun hTrue =>
            hKey (of_decide_eq_true hTrue)
          rw [List.filter_cons_of_neg hFalse]
          exact if_neg hKey
      · have hNone : norm entry.1 ∉ (firsts (sameKey fun entry => norm entry.1) entries).map
            fun entry => norm entry.1 := by
          intro hMem
          obtain ⟨first, hFirst, hKey⟩ := List.mem_map.mp hMem
          exact hAny (List.any_eq_true.mpr
            ⟨first, (firsts_sublist entries).subset hFirst, decide_eq_true hKey⟩)
        have hOthers : ∀ group ∈ entries, sameKey (fun entry => norm entry.1) group entry = false := by
          intro group hGroup
          by_contra hTrue
          exact hAny (List.any_eq_true.mpr ⟨group, hGroup, by simpa using hTrue⟩)
        rw [if_neg hAny, List.map_append, add_of_none hSame (by rw [hKeys]; exact hNone)]
        congr 1
        · apply List.map_congr_left
          intro group hGroup
          have hApart := hOthers group ((firsts_sublist entries).subset hGroup)
          rw [List.filter_append, List.filter_cons_of_neg (by rw [hApart]; exact Bool.false_ne_true),
            List.filter_nil, List.append_nil]
        · have hEmpty : entries.filter (sameKey (fun entry => norm entry.1) entry) = [] := by
            rw [List.filter_eq_nil_iff]
            intro group hGroup hTrue
            have hSymm : sameKey (fun entry => norm entry.1) group entry = true :=
              decide_eq_true (of_decide_eq_true hTrue).symm
            rw [hOthers group hGroup] at hSymm
            cases hSymm
          have hSelf : sameKey (fun entry : κ × β => norm entry.1) entry entry = true :=
            decide_eq_true rfl
          rw [List.map_singleton, List.filter_append, hEmpty, List.filter_cons_of_pos hSelf]
          show [entry] = [(entry.1, merge start entry.2)]
          rw [hStart]

theorem collect_of_nodup {entries : List (κ × β)}
    (hNodup : (entries.map fun entry => norm entry.1).Nodup) :
    collect same merge entries = entries := by
  induction entries using List.reverseRecOn with
  | nil => rfl
  | append_singleton entries entry ih =>
      rw [List.map_append, List.map_singleton, List.nodup_append] at hNodup
      have hFold : collect same merge (entries ++ [entry]) =
          add same merge entry (collect same merge entries) := by
        rw [collect, List.foldl_append]
        rfl
      rw [hFold, ih hNodup.1, add_of_none hSame]
      exact fun hMem => hNodup.2.2 _ hMem _ List.mem_cons_self rfl

end Merging

/-! ## Lists of items -/

section Lists

variable [DecidableEq κ] {key : α → κ}

/-- The items by their keys. -/
def groupBy (key : α → κ) (items : List α) : List (κ × List α) :=
  collect (fun first second => decide (first = second)) (· ++ ·)
    (items.map fun item => (key item, [item]))

theorem foldl_append_singletons (items : List α) :
    (items.map fun item => [item]).foldl (· ++ ·) [] = items := by
  have hStart (start : List α) :
      (items.map fun item => [item]).foldl (· ++ ·) start = start ++ items := by
    induction items generalizing start with
    | nil => exact (List.append_nil start).symm
    | cons item items ih =>
        rw [List.map_cons, List.foldl_cons, ih, List.append_assoc]
        rfl
  exact hStart []

/-- The keys come in the order of their first items, each with its items in their order. -/
theorem groupBy_eq (items : List α) :
    groupBy key items = (firsts (sameKey key) items).map fun item =>
      (key item, items.filter (sameKey key item)) := by
  have hCollect := @collect_eq κ (List α) (fun first second => decide (first = second))
    (· ++ ·) κ _ id (fun _ _ => rfl) [] (fun value => List.nil_append value)
    (items.map fun item => (key item, [item]))
  rw [groupBy, hCollect, firsts_map, List.map_map]
  apply List.map_congr_left
  intro item _
  show (_, _) = (_, _)
  rw [List.filter_map, List.map_map]
  show (_, (List.map (fun other => [other]) (items.filter (sameKey key item))).foldl _ _) = (_, _)
  rw [foldl_append_singletons]

theorem flatMap_add (entry : κ × List α) (groups : List (κ × List α)) :
    ((add (fun first second => decide (first = second)) (· ++ ·) entry groups).flatMap
      Prod.snd).Perm (groups.flatMap Prod.snd ++ entry.2) := by
  induction groups with
  | nil => simp [add]
  | cons group groups ih =>
      rw [add]
      split
      · rw [List.flatMap_cons, List.flatMap_cons, List.append_assoc, List.append_assoc]
        exact List.perm_append_comm.append_left _
      · rw [List.flatMap_cons, List.flatMap_cons, List.append_assoc]
        exact ih.append_left _

theorem flatMap_groupBy (items : List α) : ((groupBy key items).flatMap Prod.snd).Perm items := by
  have hFold (groups : List (κ × List α)) :
      (((items.map fun item => (key item, [item])).foldl (fun groups entry =>
        add (fun first second => decide (first = second)) (· ++ ·) entry groups) groups).flatMap
          Prod.snd).Perm (groups.flatMap Prod.snd ++ items) := by
    induction items generalizing groups with
    | nil => rw [List.append_nil]; rfl
    | cons item items ih =>
        refine (ih _).trans ?_
        refine ((flatMap_add (key item, [item]) groups).append_right items).trans ?_
        rw [List.append_assoc]
        rfl
  exact hFold []

theorem key_of_mem_groupBy {items : List α} {group : κ × List α}
    (hGroup : group ∈ groupBy key items) : ∀ item ∈ group.2, key item = group.1 := by
  rw [groupBy_eq] at hGroup
  obtain ⟨first, -, rfl⟩ := List.mem_map.mp hGroup
  intro item hItem
  exact (of_decide_eq_true (List.mem_filter.mp hItem).2).symm

end Lists

end Grouping
end Tracecat
