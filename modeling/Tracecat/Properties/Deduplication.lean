import Mathlib.Tactic.IntervalCases
import Tracecat.Properties.PatchRfc
import Tracecat.Transform.Deduplicate

/-!
# What deduplication takes for equal

Key values are compared as Python compares them, containers through their texts.  That
is the equality of JSON values except where a boolean meets the number it equals, where
a container meets its own text, and where equal containers spell a number in two ways.
With a digest store, equal numbers that are spelled in two ways are told apart as well.
-/

namespace Tracecat
namespace Transform

open Grouping (firsts sameKey)
open JsonPatch (JsonAtom pyEqual jsonEqual)
open JsonText (sortKeys)

variable {ν : Type} {numbers : NumberFormat ν} {keys : List (KeyPath ν)} {items : List (Item ν)}

/-! ## Equality of values -/

variable (numbers) in
/-- Equality of JSON values. -/
def JsonEq (value other : Value ν) : Prop :=
  value.equal (jsonEqual numbers.exact) other = true

def IsContainer (value : Value ν) : Prop := value.atom? = none

variable (numbers) in
/-- Unequal values that the code takes for equal. -/
inductive Confusable : Value ν → Value ν → Prop
  | flagNumber (flag : Bool) (number : ν) (hValue : (flag.toNat : ℚ) = numbers.exact number) :
      Confusable (.node (.atom (.bool flag))) (.node (.atom (.number number)))
  | numberFlag (number : ν) (flag : Bool) (hValue : numbers.exact number = (flag.toNat : ℚ)) :
      Confusable (.node (.atom (.number number))) (.node (.atom (.bool flag)))
  | containerText (value : Value ν) (hContainer : IsContainer value) :
      Confusable value (.node (.atom (.string (dumps numbers value))))
  | textContainer (value : Value ν) (hContainer : IsContainer value) :
      Confusable (.node (.atom (.string (dumps numbers value)))) value

variable (numbers) in
/-- Equal containers with different texts: a number in them is spelled in two ways. -/
def Respelled (value other : Value ν) : Prop :=
  IsContainer value ∧ JsonEq numbers value other ∧ sortKeys value ≠ sortKeys other

variable (numbers) in
/-- Values that the code takes for equal, by the kinds of values. -/
def Taken (value other : Value ν) : Prop :=
  Confusable numbers value other ∨ (JsonEq numbers value other ∧ ¬ Respelled numbers value other)

/-- What a value is as a part of a dictionary key: nothing, a number or a text. -/
def pyNormal (exact : ν → ℚ) : JsonAtom ν → Option (ℚ ⊕ String)
  | .null => none
  | .bool flag => some (.inl flag.toNat)
  | .number number => some (.inl (exact number))
  | .string text => some (.inr text)

theorem pyEqual_eq (exact : ν → ℚ) (value other : JsonAtom ν) :
    pyEqual exact value other = decide (pyNormal exact value = pyNormal exact other) := by
  cases value with
  | null => cases other <;> rfl
  | bool flag =>
      cases other with
      | bool other => cases flag <;> cases other <;> simp [pyEqual, pyNormal]
      | null | number | string => simp [pyEqual, pyNormal]
  | number number => cases other <;> simp [pyEqual, pyNormal]
  | string text =>
      cases other with
      | string other =>
          rw [pyEqual, Bool.eq_iff_iff, beq_iff_eq, decide_eq_true_iff]
          simp [pyNormal]
      | null | bool | number => simp [pyEqual, pyNormal]

theorem hashable_container {value : Value ν} (hContainer : IsContainer value) :
    hashable numbers value = .string (dumps numbers value) := by
  match value, hContainer with
  | .node (.list _), _ => rfl
  | .node (.dict _), _ => rfl

theorem dumps_eq_iff {value other : Value ν} :
    dumps numbers value = dumps numbers other ↔ sortKeys value = sortKeys other :=
  JsonText.dumps_inj

theorem not_jsonEq_mixed {value other : Value ν}
    (hMixed : IsContainer value ↔ ¬ IsContainer other) : ¬ JsonEq numbers value other := by
  intro hEqual
  rw [JsonEq] at hEqual
  match value, other with
  | .node (.atom _), .node (.atom _) => exact absurd (hMixed.mpr (by rintro ⟨⟩)) (by rintro ⟨⟩)
  | .node (.atom _), .node (.list _) => simp [JsonTree.equal] at hEqual
  | .node (.atom _), .node (.dict _) => simp [JsonTree.equal] at hEqual
  | .node (.list _), .node (.atom _) => simp [JsonTree.equal] at hEqual
  | .node (.dict _), .node (.atom _) => simp [JsonTree.equal] at hEqual
  | .node (.list _), .node (.list _) => exact hMixed.mp rfl rfl
  | .node (.list _), .node (.dict _) => exact hMixed.mp rfl rfl
  | .node (.dict _), .node (.list _) => exact hMixed.mp rfl rfl
  | .node (.dict _), .node (.dict _) => exact hMixed.mp rfl rfl

theorem not_isContainer_atom (atom : JsonAtom ν) : ¬ IsContainer (.node (.atom atom) : Value ν) := by
  rintro ⟨⟩

theorem Confusable.not_jsonEq {value other : Value ν} (hConfusable : Confusable numbers value other) :
    ¬ JsonEq numbers value other := by
  cases hConfusable with
  | flagNumber flag number hValue => simp [JsonEq, JsonTree.equal, jsonEqual]
  | numberFlag number flag hValue => simp [JsonEq, JsonTree.equal, jsonEqual]
  | containerText _ hContainer =>
      exact not_jsonEq_mixed ⟨fun _ => not_isContainer_atom _, fun _ => hContainer⟩
  | textContainer _ hContainer =>
      exact not_jsonEq_mixed ⟨fun hNone => absurd hNone (not_isContainer_atom _),
        fun hNot => absurd hContainer hNot⟩

theorem pyNormal_string {text other : String} {exact : ν → ℚ} :
    pyNormal exact (.string text) = pyNormal exact (.string other) ↔ text = other := by
  simp [pyNormal]

theorem pyNormal_containers {value other : Value ν} (hValue : IsContainer value)
    (hOther : IsContainer other) (hDistinct : other.DistinctKeys) :
    pyNormal numbers.exact (hashable numbers value) =
        pyNormal numbers.exact (hashable numbers other) ↔ Taken numbers value other := by
  rw [hashable_container hValue, hashable_container hOther, pyNormal_string, dumps_eq_iff]
  constructor
  · intro hSame
    refine Or.inr ⟨JsonText.equal_of_sortKeys ?_ value other hDistinct hSame,
      fun hRespelled => hRespelled.2.2 hSame⟩
    intro atom
    cases atom <;> simp [jsonEqual, pyEqual]
  · rintro (hConfusable | ⟨hEqual, hSpelled⟩)
    · cases hConfusable with
      | flagNumber => cases hValue
      | numberFlag => cases hValue
      | containerText => cases hOther
      | textContainer => cases hValue
    · by_contra hApart
      exact hSpelled ⟨hValue, hEqual, hApart⟩

theorem pyNormal_atoms {value other : JsonAtom ν} :
    pyNormal numbers.exact value = pyNormal numbers.exact other ↔
      Taken numbers (.node (.atom value)) (.node (.atom other)) := by
  have hRespelled : ¬ Respelled numbers (.node (.atom value)) (.node (.atom other)) := by
    rintro ⟨hContainer, -⟩
    cases hContainer
  have hTaken : Taken numbers (.node (.atom value)) (.node (.atom other)) ↔
      Confusable numbers (.node (.atom value)) (.node (.atom other)) ∨
        jsonEqual numbers.exact value other = true := by
    rw [Taken, and_iff_left hRespelled, JsonEq, JsonTree.equal]
  have hPyEqual : pyNormal numbers.exact value = pyNormal numbers.exact other ↔
      pyEqual numbers.exact value other = true := by
    rw [pyEqual_eq, decide_eq_true_iff]
  rw [hTaken, hPyEqual]
  constructor
  · intro hEqual
    match value, other, hEqual with
    | .bool flag, .number number, hEqual => exact Or.inl (.flagNumber _ _ (of_decide_eq_true hEqual))
    | .number number, .bool flag, hEqual => exact Or.inl (.numberFlag _ _ (of_decide_eq_true hEqual))
    | .null, .null, _ => exact Or.inr rfl
    | .bool _, .bool _, hEqual => exact Or.inr hEqual
    | .number _, .number _, hEqual => exact Or.inr hEqual
    | .string _, .string _, hEqual => exact Or.inr hEqual
  · rintro (hConfusable | hEqual)
    · cases hConfusable with
      | flagNumber _ _ hValue => exact decide_eq_true hValue
      | numberFlag _ _ hValue => exact decide_eq_true hValue
      | containerText _ hContainer => cases hContainer
      | textContainer _ hContainer => cases hContainer
    · exact JsonPatch.pyEqual_of_jsonEqual numbers.exact value other hEqual

theorem exists_atom {value : Value ν} (hValue : ¬ IsContainer value) :
    ∃ atom, value = .node (.atom atom) := by
  match value with
  | .node (.atom atom) => exact ⟨atom, rfl⟩
  | .node (.list _) => exact absurd rfl hValue
  | .node (.dict _) => exact absurd rfl hValue

theorem pyNormal_text_iff {exact : ν → ℚ} {atom : JsonAtom ν} {text : String} :
    pyNormal exact (.string text) = pyNormal exact atom ↔ atom = .string text := by
  cases atom <;> simp [pyNormal, eq_comm]

theorem pyNormal_mixed {value : Value ν} {atom : JsonAtom ν} (hContainer : IsContainer value) :
    (pyNormal numbers.exact (hashable numbers value) = pyNormal numbers.exact atom ↔
        Taken numbers value (.node (.atom atom))) ∧
      (pyNormal numbers.exact atom = pyNormal numbers.exact (hashable numbers value) ↔
        Taken numbers (.node (.atom atom)) value) := by
  have hAtom := not_isContainer_atom atom
  have hLeft : ¬ JsonEq numbers value (.node (.atom atom)) :=
    not_jsonEq_mixed ⟨fun _ => hAtom, fun _ => hContainer⟩
  have hRight : ¬ JsonEq numbers (.node (.atom atom)) value :=
    not_jsonEq_mixed ⟨fun hNone => absurd hNone hAtom, fun hNot => absurd hContainer hNot⟩
  rw [hashable_container hContainer, Taken, Taken, eq_comm (a := pyNormal numbers.exact atom),
    pyNormal_text_iff]
  constructor
  · constructor
    · rintro rfl
      exact Or.inl (.containerText value hContainer)
    · rintro (hConfusable | ⟨hEqual, -⟩)
      · cases hConfusable with
        | flagNumber => cases hContainer
        | numberFlag => cases hContainer
        | containerText => rfl
        | textContainer _ hOther => cases hOther
      · exact absurd hEqual hLeft
  · constructor
    · rintro rfl
      exact Or.inl (.textContainer value hContainer)
    · rintro (hConfusable | ⟨hEqual, -⟩)
      · cases hConfusable with
        | flagNumber => cases hContainer
        | numberFlag => cases hContainer
        | containerText _ hOther => cases hOther
        | textContainer => rfl
      · exact absurd hEqual hRight

theorem pyNormal_hashable_iff {value other : Value ν} (hDistinct : other.DistinctKeys) :
    pyNormal numbers.exact (hashable numbers value) =
        pyNormal numbers.exact (hashable numbers other) ↔ Taken numbers value other := by
  by_cases hValue : IsContainer value
  · by_cases hOther : IsContainer other
    · exact pyNormal_containers hValue hOther hDistinct
    · obtain ⟨atom, rfl⟩ := exists_atom hOther
      exact (pyNormal_mixed hValue).1
  · obtain ⟨atom, rfl⟩ := exists_atom hValue
    by_cases hOther : IsContainer other
    · exact (pyNormal_mixed hOther).2
    · obtain ⟨atom, rfl⟩ := exists_atom hOther
      exact pyNormal_atoms

/-! ## Equality of key values -/

def keyValues (keys : List (KeyPath ν)) (item : Item ν) : List (Value ν) :=
  keys.filterMap fun path => path.eval? item

variable (numbers) in
def equalValues (values others : List (Value ν)) : Bool :=
  JsonTree.equalItems (jsonEqual numbers.exact) values others

variable (numbers) in
/-- What the code compares. -/
def tupleNormal (values : List (Value ν)) : List (Option (ℚ ⊕ String)) :=
  values.map fun value => pyNormal numbers.exact (hashable numbers value)

variable (numbers) in
/-- Rows of values that the code takes for equal though they are not, or the other way. -/
def Misjudged (values others : List (Value ν)) : Prop :=
  (List.Forall₂ (Taken numbers) values others ∧
      ∃ pair ∈ values.zip others, Confusable numbers pair.1 pair.2) ∨
    (List.Forall₂ (JsonEq numbers) values others ∧
      ∃ pair ∈ values.zip others, Respelled numbers pair.1 pair.2)

theorem equalValues_iff {values others : List (Value ν)} :
    equalValues numbers values others = true ↔ List.Forall₂ (JsonEq numbers) values others := by
  unfold equalValues
  induction values generalizing others with
  | nil => cases others <;> simp [JsonTree.equalItems]
  | cons value values ih =>
      cases others with
      | nil => simp [JsonTree.equalItems]
      | cons other others =>
          rw [JsonTree.equalItems, Bool.and_eq_true, ih, List.forall₂_cons]
          rfl

theorem tupleNormal_iff {values others : List (Value ν)}
    (hDistinct : ∀ other ∈ others, other.DistinctKeys) :
    tupleNormal numbers values = tupleNormal numbers others ↔
      List.Forall₂ (Taken numbers) values others := by
  induction values generalizing others with
  | nil => cases others <;> simp [tupleNormal]
  | cons value values ih =>
      cases others with
      | nil => simp [tupleNormal]
      | cons other others =>
          have hRest := ih fun other hOther => hDistinct other (List.mem_cons_of_mem _ hOther)
          unfold tupleNormal at hRest ⊢
          rw [List.map_cons, List.map_cons, List.cons.injEq, hRest, List.forall₂_cons,
            pyNormal_hashable_iff (hDistinct other List.mem_cons_self)]

/-- The code agrees with the equality of values where it misjudges nothing. -/
theorem tupleNormal_agrees_iff {values others : List (Value ν)}
    (hDistinct : ∀ other ∈ others, other.DistinctKeys) :
    (tupleNormal numbers values = tupleNormal numbers others ↔
        equalValues numbers values others = true) ↔ ¬ Misjudged numbers values others := by
  rw [tupleNormal_iff hDistinct, equalValues_iff]
  constructor
  · rintro hAgree (⟨hTaken, ⟨value, other⟩, hPair, hConfusable⟩ |
      ⟨hEqual, ⟨value, other⟩, hPair, hRespelled⟩)
    · exact hConfusable.not_jsonEq ((List.forall₂_iff_zip.mp (hAgree.mp hTaken)).2 hPair)
    · rcases (List.forall₂_iff_zip.mp (hAgree.mpr hEqual)).2 hPair with hConfusable | ⟨-, hSpelled⟩
      · exact hConfusable.not_jsonEq hRespelled.2.1
      · exact hSpelled hRespelled
  · intro hFair
    constructor
    · intro hTaken
      obtain ⟨hLength, hPairs⟩ := List.forall₂_iff_zip.mp hTaken
      refine List.forall₂_iff_zip.mpr ⟨hLength, fun {value other} hPair => ?_⟩
      rcases hPairs hPair with hConfusable | ⟨hEqual, -⟩
      · exact absurd (Or.inl ⟨hTaken, _, hPair, hConfusable⟩) hFair
      · exact hEqual
    · intro hEqual
      obtain ⟨hLength, hPairs⟩ := List.forall₂_iff_zip.mp hEqual
      refine List.forall₂_iff_zip.mpr ⟨hLength, fun {value other} hPair => Or.inr ⟨hPairs hPair, ?_⟩⟩
      exact fun hRespelled => hFair (Or.inr ⟨hEqual, _, hPair, hRespelled⟩)

theorem distinct_keyValues {item : Item ν} {value : Value ν} (hValue : value ∈ keyValues keys item) :
    value.DistinctKeys := by
  obtain ⟨path, -, hEval⟩ := List.mem_filterMap.mp hValue
  obtain ⟨field, hField, hRest⟩ := Option.bind_eq_some_iff.mp hEval
  refine path.distinct field value ?_ hRest
  exact JsonTree.distinctKeys_of_mem item.distinct.2
    ((Assoc.lookup_eq_some_iff item.distinct.1).mp hField)

/-! ## One call -/

/-- Every key path exists in every item. -/
def PathsExist (keys : List (KeyPath ν)) (items : List (Item ν)) : Prop :=
  ∀ item ∈ items, ∀ path ∈ keys, (path.eval? item).isSome

variable (numbers) in
def keyOf (keys : List (KeyPath ν)) (item : Item ν) : List (JsonAtom ν) :=
  (keyValues keys item).map (hashable numbers)

variable (numbers) in
/-- Equality of the key values of items. -/
def equalKeys (keys : List (KeyPath ν)) (item other : Item ν) : Bool :=
  equalValues numbers (keyValues keys item) (keyValues keys other)

def emptyItem : Item ν := ⟨[], List.nodup_nil, trivial⟩

def mergeAll (members : List (Item ν)) : Item ν := members.foldl JsonObject.merge emptyItem

/-- The groups under a relation, in the order of first occurrence. -/
def groups (related : Item ν → Item ν → Bool) (items : List (Item ν)) : List (Item ν) :=
  (firsts related items).map fun item => mergeAll (items.filter (related item))

variable (numbers) in
def groupOf (seen : Seen ν) (key : List (JsonAtom ν)) : Nat :=
  seen.findIdx fun group => tupleEqual numbers group.1 key

variable (numbers) in
/-- The law of a call without a store. -/
structure MergesEqualKeys (keys : List (KeyPath ν)) (items : List (Item ν)) : Prop where
  sameGroup : ∀ seen, seenOf numbers keys items = .ok seen →
    ∀ item ∈ items, ∀ other ∈ items,
      groupOf numbers seen (keyOf numbers keys item) =
          groupOf numbers seen (keyOf numbers keys other) ↔
        equalKeys numbers keys item other = true
  merged : deduplicate numbers keys items = .ok (groups (equalKeys numbers keys) items)
  again : ∀ out, deduplicate numbers keys items = .ok out → deduplicate numbers keys out = .ok out

theorem merge_emptyItem (item : Item ν) : emptyItem.merge item = item := by
  obtain ⟨entries, hDistinct⟩ := item
  have hEntries : Assoc.update [] entries = entries :=
    @Assoc.update_of_nodup _ _ _ entries [] hDistinct.1
  unfold JsonObject.merge
  congr

theorem tupleEqual_eq (first second : List (JsonAtom ν)) :
    tupleEqual numbers first second =
      decide (first.map (pyNormal numbers.exact) = second.map (pyNormal numbers.exact)) := by
  induction first generalizing second with
  | nil => cases second <;> simp [tupleEqual]
  | cons value first ih =>
      cases second with
      | nil => simp [tupleEqual]
      | cons other second =>
          rw [tupleEqual, ih, pyEqual_eq, List.map_cons, List.map_cons, ← Bool.decide_and]
          exact decide_eq_decide.mpr (by rw [List.cons.injEq])

theorem normal_keyOf (item : Item ν) :
    (keyOf numbers keys item).map (pyNormal numbers.exact) =
      tupleNormal numbers (keyValues keys item) :=
  List.map_map

theorem getNestedValues_ok {item : Item ν} (hExist : ∀ path ∈ keys, (path.eval? item).isSome) :
    getNestedValues numbers keys item = .ok (keyOf numbers keys item) := by
  unfold getNestedValues keyOf keyValues
  induction keys with
  | nil => rfl
  | cons path keys ih =>
      obtain ⟨hHere, hRest⟩ := List.forall_mem_cons.mp hExist
      obtain ⟨value, hValue⟩ := Option.isSome_iff_exists.mp hHere
      rw [List.mapM_cons, hValue, List.filterMap_cons, hValue]
      dsimp only
      rw [ih hRest]
      rfl

theorem seenOf_ok (hExist : PathsExist keys items) :
    seenOf numbers keys items = .ok (Grouping.collect (tupleEqual numbers) JsonObject.merge
      (items.map fun item => (keyOf numbers keys item, item))) := by
  have hFold (seen : Seen ν) : items.foldlM (fun seen item => do
      let key ← getNestedValues numbers keys item
      return Grouping.add (tupleEqual numbers) JsonObject.merge (key, item) seen) seen =
      (.ok ((items.map fun item => (keyOf numbers keys item, item)).foldl
        (fun groups entry => Grouping.add (tupleEqual numbers) JsonObject.merge entry groups)
        seen) : Except DeduplicateError (Seen ν)) := by
    induction items generalizing seen with
    | nil => rfl
    | cons item items ih =>
        obtain ⟨hHere, hRest⟩ := List.forall_mem_cons.mp hExist
        rw [List.foldlM_cons, getNestedValues_ok hHere]
        exact ih hRest _
  exact hFold []

variable (numbers) in
/-- What the code compares of items. -/
def codeKey (keys : List (KeyPath ν)) (item : Item ν) : List (Option (ℚ ⊕ String)) :=
  tupleNormal numbers (keyValues keys item)

theorem collect_items :
    Grouping.collect (tupleEqual numbers) JsonObject.merge
        (items.map fun item => (keyOf numbers keys item, item)) =
      (firsts (sameKey (codeKey numbers keys)) items).map fun item =>
        (keyOf numbers keys item, mergeAll (items.filter (sameKey (codeKey numbers keys) item))) := by
  have hKeys : (fun first second : Item ν => sameKey
      (fun entry : List (JsonAtom ν) × Item ν => entry.1.map (pyNormal numbers.exact))
      (keyOf numbers keys first, first) (keyOf numbers keys second, second)) =
        sameKey (codeKey numbers keys) := by
    funext first second
    refine decide_eq_decide.mpr ?_
    show (keyOf numbers keys first).map (pyNormal numbers.exact) =
      (keyOf numbers keys second).map (pyNormal numbers.exact) ↔ _
    rw [normal_keyOf, normal_keyOf]
    rfl
  rw [Grouping.collect_eq tupleEqual_eq merge_emptyItem, Grouping.firsts_map, List.map_map, hKeys]
  apply List.map_congr_left
  intro item _
  show (_, _) = (_, _)
  rw [List.filter_map, List.map_map]
  have hMembers : items.filter ((sameKey fun entry : List (JsonAtom ν) × Item ν =>
      entry.1.map (pyNormal numbers.exact)) (keyOf numbers keys item, item) ∘
        fun other => (keyOf numbers keys other, other)) =
      items.filter (sameKey (codeKey numbers keys) item) :=
    congrArg (fun related => items.filter (related item)) hKeys
  rw [hMembers]
  show (_, (List.map id _).foldl _ _) = (_, _)
  rw [List.map_id]
  rfl

theorem deduplicate_ok (hExist : PathsExist keys items) :
    deduplicate numbers keys items = .ok (groups (sameKey (codeKey numbers keys)) items) := by
  unfold deduplicate
  cases items with
  | nil => rfl
  | cons item items =>
      rw [List.isEmpty_cons, if_neg Bool.false_ne_true, seenOf_ok hExist, collect_items]
      show Except.ok (List.map Prod.snd (List.map _ _)) = _
      rw [List.map_map]
      rfl

/-! ### A call on its own result -/

theorem eval?_merge {path : KeyPath ν} {item other : Item ν}
    (hExist : (path.eval? other).isSome) : path.eval? (item.merge other) = path.eval? other := by
  obtain ⟨found, hFound⟩ := Option.isSome_iff_exists.mp hExist
  obtain ⟨value, hValue, hRest⟩ := Option.bind_eq_some_iff.mp hFound
  have hLookup : (item.merge other).entries.lookup path.field = some value := by
    show (Assoc.update item.entries other.entries).lookup path.field = _
    rw [Assoc.lookup_update, Assoc.lookup_reverse other.distinct.1, hValue, Option.some_or]
  unfold KeyPath.eval?
  rw [hLookup, hValue]

/-- The last member of a group decides the values at the key paths. -/
theorem eval?_mergeAll {path : KeyPath ν} {members : List (Item ν)} {last : Item ν}
    (hExist : (path.eval? last).isSome) :
    path.eval? (mergeAll (members ++ [last])) = path.eval? last := by
  rw [mergeAll, List.foldl_append]
  exact eval?_merge hExist

theorem mergeAll_spec (hExist : PathsExist keys items) {item : Item ν} (hItem : item ∈ items) :
    (∀ path ∈ keys,
      (path.eval? (mergeAll (items.filter (sameKey (codeKey numbers keys) item)))).isSome) ∧
    codeKey numbers keys (mergeAll (items.filter (sameKey (codeKey numbers keys) item))) =
      codeKey numbers keys item := by
  have hMember : item ∈ items.filter (sameKey (codeKey numbers keys) item) :=
    List.mem_filter.mpr ⟨hItem, decide_eq_true rfl⟩
  obtain ⟨members, last, hMembers⟩ :=
    (List.eq_nil_or_concat' (items.filter (sameKey (codeKey numbers keys) item))).resolve_left
      (List.ne_nil_of_mem hMember)
  have hLast : last ∈ items.filter (sameKey (codeKey numbers keys) item) := by
    rw [hMembers]
    exact List.mem_append_right _ (List.mem_singleton_self _)
  obtain ⟨hLastItem, hLastKey⟩ := List.mem_filter.mp hLast
  have hEval : ∀ path ∈ keys, path.eval? (mergeAll (members ++ [last])) = path.eval? last :=
    fun path hPath => eval?_mergeAll (hExist last hLastItem path hPath)
  have hValues : keyValues keys (mergeAll (members ++ [last])) = keyValues keys last :=
    List.filterMap_congr hEval
  rw [hMembers]
  refine ⟨fun path hPath => ?_, ?_⟩
  · rw [hEval path hPath]
    exact hExist last hLastItem path hPath
  · rw [codeKey, hValues]
    exact (of_decide_eq_true hLastKey).symm

theorem deduplicate_of_nodup (hExist : PathsExist keys items)
    (hNodup : (items.map (codeKey numbers keys)).Nodup) :
    deduplicate numbers keys items = .ok items := by
  have hEntries : ((items.map fun item => (keyOf numbers keys item, item)).map fun entry =>
      entry.1.map (pyNormal numbers.exact)).Nodup := by
    rw [List.map_map]
    have hSame : ((fun entry : List (JsonAtom ν) × Item ν => entry.1.map (pyNormal numbers.exact)) ∘
        fun item => (keyOf numbers keys item, item)) = codeKey numbers keys :=
      funext fun item => normal_keyOf item
    rw [hSame]
    exact hNodup
  unfold deduplicate
  cases items with
  | nil => rfl
  | cons item items =>
      rw [List.isEmpty_cons, if_neg Bool.false_ne_true, seenOf_ok hExist,
        Grouping.collect_of_nodup tupleEqual_eq hEntries]
      show Except.ok (List.map Prod.snd (List.map _ _)) = _
      rw [List.map_map]
      exact congrArg Except.ok (List.map_id _)

theorem deduplicate_again (hExist : PathsExist keys items) :
    deduplicate numbers keys (groups (sameKey (codeKey numbers keys)) items) =
      .ok (groups (sameKey (codeKey numbers keys)) items) := by
  have hFirst : ∀ item ∈ firsts (sameKey (codeKey numbers keys)) items, item ∈ items :=
    fun item hItem => (Grouping.firsts_sublist items).subset hItem
  apply deduplicate_of_nodup
  · intro group hGroup
    obtain ⟨item, hItem, rfl⟩ := List.mem_map.mp hGroup
    exact (mergeAll_spec hExist (hFirst item hItem)).1
  · have hKeys : (groups (sameKey (codeKey numbers keys)) items).map (codeKey numbers keys) =
        (firsts (sameKey (codeKey numbers keys)) items).map (codeKey numbers keys) := by
      rw [groups, List.map_map]
      apply List.map_congr_left
      intro item hItem
      exact (mergeAll_spec hExist (hFirst item hItem)).2
    rw [hKeys]
    exact Grouping.nodup_firsts items

/-! ### The groups of items -/

theorem groupOf_eq_iff {item other : Item ν} (hItem : item ∈ items) :
    groupOf numbers (Grouping.collect (tupleEqual numbers) JsonObject.merge
        (items.map fun item => (keyOf numbers keys item, item))) (keyOf numbers keys item) =
      groupOf numbers (Grouping.collect (tupleEqual numbers) JsonObject.merge
        (items.map fun item => (keyOf numbers keys item, item))) (keyOf numbers keys other) ↔
    codeKey numbers keys item = codeKey numbers keys other := by
  have hGroup (entry : Item ν) : groupOf numbers (Grouping.collect (tupleEqual numbers)
      JsonObject.merge (items.map fun item => (keyOf numbers keys item, item)))
        (keyOf numbers keys entry) =
      (firsts (sameKey (codeKey numbers keys)) items).findIdx fun first =>
        decide (codeKey numbers keys first = codeKey numbers keys entry) := by
    rw [collect_items, groupOf, List.findIdx_map]
    congr 1
    funext first
    show tupleEqual numbers (keyOf numbers keys first) (keyOf numbers keys entry) = _
    rw [tupleEqual_eq, normal_keyOf, normal_keyOf]
    rfl
  rw [hGroup, hGroup]
  constructor
  · intro hSame
    obtain ⟨first, hFirst, hKey⟩ := @Grouping.exists_first _ _ _ (codeKey numbers keys) _ _ hItem
    have hBound := @List.findIdx_lt_length_of_exists _ (fun first : Item ν =>
      decide (codeKey numbers keys first = codeKey numbers keys item)) _
      ⟨first, hFirst, decide_eq_true hKey⟩
    have hHere := List.findIdx_getElem (w := hBound)
    have hThere := List.findIdx_getElem (w := hSame ▸ hBound)
    rw [decide_eq_true_eq] at hHere hThere
    rw [← hHere, ← hThere]
    simp only [hSame]
  · intro hSame
    rw [hSame]

/-- Without a store, the law of a call holds exactly where no key values are misjudged. -/
theorem mergesEqualKeys_iff (hExist : PathsExist keys items) :
    MergesEqualKeys numbers keys items ↔ ∀ item ∈ items, ∀ other ∈ items,
      ¬ Misjudged numbers (keyValues keys item) (keyValues keys other) := by
  have hAgree (item other : Item ν) :
      (codeKey numbers keys item = codeKey numbers keys other ↔
        equalKeys numbers keys item other = true) ↔
      ¬ Misjudged numbers (keyValues keys item) (keyValues keys other) :=
    tupleNormal_agrees_iff fun _ hValue => distinct_keyValues hValue
  constructor
  · intro hLaw item hItem other hOther
    rw [← hAgree, ← hLaw.sameGroup _ (seenOf_ok hExist) item hItem other hOther]
    exact (groupOf_eq_iff hItem).symm
  · intro hFair
    have hSame : ∀ item ∈ items, ∀ other ∈ items,
        sameKey (codeKey numbers keys) item other = equalKeys numbers keys item other := by
      intro item hItem other hOther
      rw [Bool.eq_iff_iff, ← (hAgree item other).mpr (hFair item hItem other hOther)]
      exact decide_eq_true_iff
    have hGroups : groups (sameKey (codeKey numbers keys)) items =
        groups (equalKeys numbers keys) items := by
      unfold groups
      rw [Grouping.firsts_congr hSame]
      apply List.map_congr_left
      intro item hItem
      rw [List.filter_congr fun other hOther =>
        hSame item ((Grouping.firsts_sublist items).subset hItem) other hOther]
    refine ⟨?_, ?_, ?_⟩
    · intro seen hSeen item hItem other hOther
      rw [seenOf_ok hExist] at hSeen
      rw [← Except.ok.inj hSeen, groupOf_eq_iff hItem]
      exact (hAgree item other).mpr (hFair item hItem other hOther)
    · rw [deduplicate_ok hExist, hGroups]
    · intro out hOut
      rw [deduplicate_ok hExist] at hOut
      rw [← Except.ok.inj hOut]
      exact deduplicate_again hExist

/-! ## Calls with a store -/

variable {δ : Type} [DecidableEq δ] {sha256 : String → δ}

/-- The rows of values that calls in the past returned a group for, and the times up to
which that counts. -/
abbrev ReturnLog (ν : Type) : Type := List (List (Value ν) × ℚ)

variable (numbers) in
/-- A group with these values was returned by a call that has not expired. -/
def ReturnLog.recent (log : ReturnLog ν) (now : ℚ) (values : List (Value ν)) : Bool :=
  log.any fun entry => equalValues numbers entry.1 values && decide (now < entry.2)

variable (numbers) in
/-- The first items of the groups that a call is to return. -/
def freshItems (call : Call ν) (log : ReturnLog ν) : List (Item ν) :=
  (firsts (equalKeys numbers call.keys) call.items).filter fun item =>
    !ReturnLog.recent numbers log call.now (keyValues call.keys item)

variable (numbers) in
/-- A call as it is meant: it returns the groups of equal key values, except the ones that
were returned before. -/
def specCall (call : Call ν) (log : ReturnLog ν) : List (Item ν) × ReturnLog ν :=
  ((freshItems numbers call log).map fun item =>
      mergeAll (call.items.filter (equalKeys numbers call.keys item)),
    log ++ (freshItems numbers call log).map fun item =>
      (keyValues call.keys item, call.now + call.expireSeconds))

variable (numbers) in
def specCalls : List (Call ν) → ReturnLog ν → List (List (Item ν))
  | [], _ => []
  | call :: calls, log =>
      (specCall numbers call log).1 :: specCalls calls (specCall numbers call log).2

variable (numbers) in
/-- Rows of values whose digests are equal though they are not, or the other way. -/
def DigestMisjudged (values others : List (Value ν)) : Prop :=
  (List.Forall₂ (fun value other => hashable numbers value = hashable numbers other) values others ∧
      ∃ pair ∈ values.zip others, Confusable numbers pair.1 pair.2) ∨
    (List.Forall₂ (JsonEq numbers) values others ∧
      ∃ pair ∈ values.zip others, sortKeys pair.1 ≠ sortKeys pair.2)

/-- The rows of values of a call. -/
def Call.rows (call : Call ν) : List (List (Value ν)) := call.items.map (keyValues call.keys)

variable (numbers) in
/-- No row of values is misjudged: not within a call, and not by its digest. -/
structure FairCalls (calls : List (Call ν)) : Prop where
  within : ∀ call ∈ calls, ∀ item ∈ call.items, ∀ other ∈ call.items,
    ¬ Misjudged numbers (keyValues call.keys item) (keyValues call.keys other)
  across : ∀ call ∈ calls, ∀ later ∈ calls, ∀ values ∈ call.rows, ∀ others ∈ later.rows,
    ¬ DigestMisjudged numbers values others

theorem hashable_of_jsonEq {value other : Value ν} (hEqual : JsonEq numbers value other)
    (hSpelled : sortKeys value = sortKeys other) :
    hashable numbers value = hashable numbers other := by
  by_cases hValue : IsContainer value
  · by_cases hOther : IsContainer other
    · rw [hashable_container hValue, hashable_container hOther, dumps_eq_iff.mpr hSpelled]
    · exact absurd hEqual (not_jsonEq_mixed ⟨fun _ => hOther, fun _ => hValue⟩)
  · obtain ⟨atom, rfl⟩ := exists_atom hValue
    by_cases hOther : IsContainer other
    · exact absurd hEqual (not_jsonEq_mixed ⟨fun hNone => absurd hNone hValue,
        fun hNot => absurd hOther hNot⟩)
    · obtain ⟨atom', rfl⟩ := exists_atom hOther
      rw [sortKeys, sortKeys] at hSpelled
      rw [hSpelled]

theorem map_hashable_iff {values others : List (Value ν)}
    (hDistinct : ∀ other ∈ others, other.DistinctKeys)
    (hFair : ¬ DigestMisjudged numbers values others) :
    values.map (hashable numbers) = others.map (hashable numbers) ↔
      equalValues numbers values others = true := by
  rw [equalValues_iff, ← List.forall₂_eq_eq_eq, List.forall₂_map_left_iff,
    List.forall₂_map_right_iff]
  constructor
  · intro hSame
    obtain ⟨hLength, hPairs⟩ := List.forall₂_iff_zip.mp hSame
    refine List.forall₂_iff_zip.mpr ⟨hLength, fun {value other} hPair => ?_⟩
    have hTaken : Taken numbers value other :=
      (pyNormal_hashable_iff (hDistinct other (List.of_mem_zip hPair).2)).mp
        (congrArg (pyNormal numbers.exact) (hPairs hPair))
    rcases hTaken with hConfusable | ⟨hEqual, -⟩
    · exact absurd (Or.inl ⟨hSame, _, hPair, hConfusable⟩) hFair
    · exact hEqual
  · intro hEqual
    obtain ⟨hLength, hPairs⟩ := List.forall₂_iff_zip.mp hEqual
    refine List.forall₂_iff_zip.mpr ⟨hLength, fun {value other} hPair => ?_⟩
    refine hashable_of_jsonEq (hPairs hPair) ?_
    by_contra hApart
    exact hFair (Or.inr ⟨hEqual, _, hPair, hApart⟩)

theorem sortItems_atoms (key : List (JsonAtom ν)) :
    JsonText.sortItems (key.map fun value => (.node (.atom value) : Value ν)) =
      key.map fun value => .node (.atom value) := by
  induction key with
  | nil => rfl
  | cons value key ih =>
      rw [List.map_cons, JsonText.sortItems, ih]
      rfl

theorem tupleText_injective : Function.Injective (tupleText numbers) := by
  intro first second hText
  have hSort := dumps_eq_iff.mp hText
  rw [sortKeys, sortKeys, sortItems_atoms, sortItems_atoms] at hSort
  have hItems := JsonNode.list.inj (JsonTree.node.inj hSort)
  exact List.map_injective_iff.mpr
    (fun value other hSame => JsonNode.atom.inj (JsonTree.node.inj hSame)) hItems

theorem alive_append_of_ne {store : DigestStore δ} {now until' : ℚ} {digest other : δ}
    (hApart : other ≠ digest) :
    DigestStore.alive (store ++ [(other, until')]) now digest = store.alive now digest := by
  unfold DigestStore.alive
  rw [List.any_append, List.any_cons, decide_eq_false hApart, Bool.false_and, List.any_nil,
    Bool.false_or, Bool.or_false]

theorem createDigests_eq (now : ℚ) (expireSeconds : Nat) {digests : List δ}
    (hNodup : digests.Nodup) (store : DigestStore δ) :
    createDigests now expireSeconds digests store =
      (digests.map fun digest => !store.alive now digest,
        store ++ (digests.filter fun digest => !store.alive now digest).map fun digest =>
          (digest, now + expireSeconds)) := by
  induction digests generalizing store with
  | nil => exact Prod.ext rfl (List.append_nil store).symm
  | cons digest digests ih =>
      obtain ⟨hHere, hRest⟩ := List.nodup_cons.mp hNodup
      rw [createDigests, List.map_cons, List.filter_cons]
      by_cases hAlive : store.alive now digest = true
      · rw [if_pos hAlive, ih hRest, hAlive, Bool.not_true, if_neg Bool.false_ne_true]
      · have hSame : ∀ other ∈ digests, (!DigestStore.alive
            (store ++ [(digest, now + (expireSeconds : ℚ))]) now other) =
              !store.alive now other := by
          intro other hOther
          rw [alive_append_of_ne (ne_of_mem_of_not_mem hOther hHere).symm]
        rw [if_neg hAlive, ih hRest, List.map_congr_left hSame, List.filter_congr hSame,
          Bool.eq_false_of_not_eq_true hAlive, Bool.not_false, if_pos rfl, List.append_assoc]
        rfl

/-- The digests of the groups that were returned. -/
def storeOf (numbers : NumberFormat ν) (sha256 : String → δ) (log : ReturnLog ν) :
    DigestStore δ :=
  log.map fun entry => (sha256 (tupleText numbers (entry.1.map (hashable numbers))), entry.2)

/-- The rows of the log and of a call, and none of them is misjudged. -/
structure FairLog (numbers : NumberFormat ν) (call : Call ν) (log : ReturnLog ν) : Prop where
  within : ∀ item ∈ call.items, ∀ other ∈ call.items,
    ¬ Misjudged numbers (keyValues call.keys item) (keyValues call.keys other)
  across : ∀ entry ∈ log, ∀ values ∈ call.rows, ¬ DigestMisjudged numbers entry.1 values

theorem distinct_row {call : Call ν} {values : List (Value ν)} (hValues : values ∈ call.rows) :
    ∀ value ∈ values, value.DistinctKeys := by
  obtain ⟨item, -, rfl⟩ := List.mem_map.mp hValues
  exact fun value hValue => distinct_keyValues hValue

theorem alive_storeOf (hSha : Function.Injective sha256) {call : Call ν} {log : ReturnLog ν}
    (hFair : FairLog numbers call log) {values : List (Value ν)} (hValues : values ∈ call.rows) :
    (storeOf numbers sha256 log).alive call.now
        (sha256 (tupleText numbers (values.map (hashable numbers)))) =
      ReturnLog.recent numbers log call.now values := by
  have hEntry : ∀ entry ∈ log,
      (sha256 (tupleText numbers (entry.1.map (hashable numbers))) =
        sha256 (tupleText numbers (values.map (hashable numbers)))) ↔
      equalValues numbers entry.1 values = true := by
    intro entry hEntry
    rw [hSha.eq_iff, tupleText_injective.eq_iff]
    exact map_hashable_iff (distinct_row hValues) (hFair.across entry hEntry values hValues)
  unfold DigestStore.alive storeOf ReturnLog.recent
  rw [List.any_map, Bool.eq_iff_iff, List.any_eq_true, List.any_eq_true]
  constructor
  · rintro ⟨entry, hMem, hBoth⟩
    obtain ⟨hDigest, hTime⟩ := Bool.and_eq_true_iff.mp hBoth
    exact ⟨entry, hMem, Bool.and_eq_true_iff.mpr
      ⟨(hEntry entry hMem).mp (of_decide_eq_true hDigest), hTime⟩⟩
  · rintro ⟨entry, hMem, hBoth⟩
    obtain ⟨hEqual, hTime⟩ := Bool.and_eq_true_iff.mp hBoth
    exact ⟨entry, hMem, Bool.and_eq_true_iff.mpr
      ⟨decide_eq_true ((hEntry entry hMem).mpr hEqual), hTime⟩⟩

omit [DecidableEq δ] in
theorem nodup_digests (hSha : Function.Injective sha256) :
    ((firsts (sameKey (codeKey numbers keys)) items).map fun item =>
      sha256 (tupleText numbers (keyOf numbers keys item))).Nodup := by
  have hKeys : ((firsts (sameKey (codeKey numbers keys)) items).map (keyOf numbers keys)).Nodup := by
    refine List.Nodup.of_map (List.map (pyNormal numbers.exact)) ?_
    have hCode : List.map (pyNormal numbers.exact) ∘ keyOf numbers keys = codeKey numbers keys :=
      funext normal_keyOf
    rw [List.map_map, hCode]
    exact Grouping.nodup_firsts items
  have hText : Function.Injective (tupleText numbers) := tupleText_injective
  have hDigests := hKeys.map (hSha.comp hText)
  rw [List.map_map] at hDigests
  exact hDigests

theorem deduplicatePersistent_eq {α : Type} {members : List α} {key : α → List (JsonAtom ν)}
    {group : α → Item ν} (now : ℚ) (expireSeconds : Nat) (store : DigestStore δ)
    (hNodup : (members.map fun item => sha256 (tupleText numbers (key item))).Nodup) :
    deduplicatePersistent numbers sha256 (members.map fun item => (key item, group item)) now
        expireSeconds store =
      ((members.filter fun item =>
          !store.alive now (sha256 (tupleText numbers (key item)))).map group,
        store ++ (members.filter fun item =>
          !store.alive now (sha256 (tupleText numbers (key item)))).map fun item =>
            (sha256 (tupleText numbers (key item)), now + expireSeconds)) := by
  have hDigests : computeDigests numbers sha256 (members.map fun item => (key item, group item)) =
      members.map fun item => sha256 (tupleText numbers (key item)) :=
    List.map_map
  unfold deduplicatePersistent
  rw [hDigests, createDigests_eq now expireSeconds hNodup]
  refine Prod.ext ?_ ?_
  · show ((List.map Prod.snd (List.map _ members)).zip (List.map _ (List.map _ members))).filterMap
      _ = _
    rw [List.map_map, List.map_map, List.zip_map', List.filterMap_map, ← List.filterMap_eq_map,
      List.filterMap_filter]
    rfl
  · show store ++ ((List.map _ members).filter _).map _ = _
    rw [List.filter_map, List.map_map]
    rfl

theorem groups_of_fair {call : Call ν} {log : ReturnLog ν} (hFair : FairLog numbers call log) :
    ∀ item ∈ call.items, ∀ other ∈ call.items,
      sameKey (codeKey numbers call.keys) item other = equalKeys numbers call.keys item other := by
  intro item hItem other hOther
  rw [Bool.eq_iff_iff]
  exact decide_eq_true_iff.trans ((tupleNormal_agrees_iff fun _ hValue =>
    distinct_keyValues hValue).mpr (hFair.within item hItem other hOther))

theorem deduplicateCall_eq (hSha : Function.Injective sha256) {call : Call ν} {log : ReturnLog ν}
    (hExist : PathsExist call.keys call.items) (hFair : FairLog numbers call log) :
    deduplicateCall numbers sha256 call (storeOf numbers sha256 log) =
      (.ok (specCall numbers call log).1, storeOf numbers sha256 (specCall numbers call log).2) := by
  have hGroups := groups_of_fair hFair
  have hFirsts : firsts (equalKeys numbers call.keys) call.items =
      firsts (sameKey (codeKey numbers call.keys)) call.items :=
    (Grouping.firsts_congr hGroups).symm
  have hFirst : ∀ item ∈ firsts (sameKey (codeKey numbers call.keys)) call.items,
      item ∈ call.items := fun item hItem => (Grouping.firsts_sublist call.items).subset hItem
  have hFresh : freshItems numbers call log =
      (firsts (sameKey (codeKey numbers call.keys)) call.items).filter fun item =>
        !(storeOf numbers sha256 log).alive call.now
          (sha256 (tupleText numbers (keyOf numbers call.keys item))) := by
    unfold freshItems
    rw [hFirsts]
    apply List.filter_congr
    intro item hItem
    rw [keyOf, alive_storeOf hSha hFair (List.mem_map_of_mem (hFirst item hItem))]
  have hStore : storeOf numbers sha256 (specCall numbers call log).2 =
      storeOf numbers sha256 log ++ (freshItems numbers call log).map fun item =>
        (sha256 (tupleText numbers (keyOf numbers call.keys item)), call.now + call.expireSeconds) := by
    unfold storeOf specCall
    rw [List.map_append, List.map_map]
    rfl
  have hResult : (specCall numbers call log).1 = (freshItems numbers call log).map fun item =>
      mergeAll (call.items.filter (sameKey (codeKey numbers call.keys) item)) := by
    apply List.map_congr_left
    intro item hItem
    rw [hFresh] at hItem
    rw [List.filter_congr fun other hOther =>
      (hGroups item (hFirst item (List.mem_filter.mp hItem).1) other hOther).symm]
  rw [hStore, hResult, hFresh]
  unfold deduplicateCall
  cases hItems : call.items with
  | nil => exact Prod.ext rfl (List.append_nil _).symm
  | cons item items =>
      rw [← hItems, seenOf_ok hExist, collect_items, hItems, List.isEmpty_cons,
        if_neg Bool.false_ne_true, ← hItems]
      dsimp only
      rw [deduplicatePersistent_eq call.now call.expireSeconds _ (nodup_digests hSha)]

theorem mem_specCall_log {call : Call ν} {log : ReturnLog ν} {entry : List (Value ν) × ℚ}
    (hEntry : entry ∈ (specCall numbers call log).2) : entry ∈ log ∨ entry.1 ∈ call.rows := by
  rcases List.mem_append.mp hEntry with hOld | hNew
  · exact Or.inl hOld
  · obtain ⟨item, hItem, rfl⟩ := List.mem_map.mp hNew
    exact Or.inr (List.mem_map_of_mem
      ((Grouping.firsts_sublist call.items).subset (List.mem_filter.mp hItem).1))

theorem runCalls_eq (hSha : Function.Injective sha256) {calls : List (Call ν)} {log : ReturnLog ν}
    (hExist : ∀ call ∈ calls, PathsExist call.keys call.items) (hFair : FairCalls numbers calls)
    (hLog : ∀ entry ∈ log, ∀ call ∈ calls, ∀ values ∈ call.rows,
      ¬ DigestMisjudged numbers entry.1 values) :
    runCalls numbers sha256 calls (storeOf numbers sha256 log) =
      (specCalls numbers calls log).map .ok := by
  induction calls generalizing log with
  | nil => rfl
  | cons call calls ih =>
      have hHere := List.mem_cons_self (a := call) (l := calls)
      have hFairLog : FairLog numbers call log :=
        ⟨hFair.within call hHere, fun entry hEntry => hLog entry hEntry call hHere⟩
      have hFairRest : FairCalls numbers calls :=
        ⟨fun later hLater => hFair.within later (List.mem_cons_of_mem _ hLater),
          fun first hFirst later hLater =>
            hFair.across first (List.mem_cons_of_mem _ hFirst) later (List.mem_cons_of_mem _ hLater)⟩
      rw [runCalls, deduplicateCall_eq hSha (hExist call hHere) hFairLog, specCalls, List.map_cons]
      dsimp only
      rw [ih (fun later hLater => hExist later (List.mem_cons_of_mem _ hLater)) hFairRest]
      intro entry hEntry later hLater values hValues
      rcases mem_specCall_log hEntry with hOld | hNew
      · exact hLog entry hOld later (List.mem_cons_of_mem _ hLater) values hValues
      · exact hFair.across call hHere later (List.mem_cons_of_mem _ hLater) entry.1 hNew values
          hValues

theorem digit_mem_numberChars {char : Char} (hDigit : char.isDigit = true) :
    char ∈ numberChars := by
  obtain ⟨hLow, hHigh⟩ := Bool.and_eq_true_iff.mp hDigit
  have hLower : 48 ≤ char.toNat := of_decide_eq_true hLow
  have hUpper : char.toNat ≤ 57 := of_decide_eq_true hHigh
  rw [← Char.ofNat_toNat char]
  generalize char.toNat = code at hLower hUpper
  interval_cases code <;> decide

/-- Natural numbers, written in decimal. -/
def naturals : NumberFormat ℕ where
  exact := fun number => number
  repr := Nat.toDigits 10
  repr_injective := fun first second hSame => by
    rw [← Nat.ofDigitChars_ten_toDigits (n := first), hSame, Nat.ofDigitChars_ten_toDigits]
  repr_ne_nil := fun _ => Nat.toDigits_ne_nil
  repr_chars := fun _ _ hChar =>
    digit_mem_numberChars (Nat.isDigit_of_mem_toDigits (by decide) (by decide) hChar)

def fieldPath (field : String) : KeyPath ν where
  key := field
  field := field
  rest := some
  distinct := fun _ _ hDistinct hSome => Option.some.inj hSome ▸ hDistinct

def fieldItem (field : String) (value : JsonAtom ν) : Item ν where
  entries := [(field, .node (.atom value))]
  distinct := ⟨List.nodup_singleton _, trivial, trivial⟩

theorem naturals_fair {values others : List (Value ℕ)}
    (hValues : ∀ value ∈ values, ∃ number, value = .node (.atom (.number number)))
    (hOthers : ∀ other ∈ others, ∃ number, other = .node (.atom (.number number))) :
    ¬ Misjudged naturals values others ∧ ¬ DigestMisjudged naturals values others := by
  have hPlain : ∀ pair ∈ values.zip others, ¬ Confusable naturals pair.1 pair.2 := by
    intro pair hPair hConfusable
    obtain ⟨number, hNumber⟩ := hValues pair.1 (List.of_mem_zip hPair).1
    obtain ⟨other, hOther⟩ := hOthers pair.2 (List.of_mem_zip hPair).2
    rw [hNumber, hOther] at hConfusable
    cases hConfusable
  have hSpelled : ∀ pair ∈ values.zip others, JsonEq naturals pair.1 pair.2 →
      sortKeys pair.1 = sortKeys pair.2 := by
    intro pair hPair hEqual
    obtain ⟨number, hNumber⟩ := hValues pair.1 (List.of_mem_zip hPair).1
    obtain ⟨other, hOther⟩ := hOthers pair.2 (List.of_mem_zip hPair).2
    rw [hNumber, hOther] at hEqual ⊢
    have hCast : (number : ℚ) = other := of_decide_eq_true hEqual
    rw [Nat.cast_injective hCast]
  have hEqualPairs (hEqual : List.Forall₂ (JsonEq naturals) values others) :
      ∀ pair ∈ values.zip others, JsonEq naturals pair.1 pair.2 :=
    fun pair hPair => (List.forall₂_iff_zip.mp hEqual).2 hPair
  constructor
  · rintro (⟨-, pair, hPair, hConfusable⟩ | ⟨hEqual, pair, hPair, hRespelled⟩)
    · exact hPlain pair hPair hConfusable
    · exact hRespelled.2.2 (hSpelled pair hPair (hEqualPairs hEqual pair hPair))
  · rintro (⟨-, pair, hPair, hConfusable⟩ | ⟨hEqual, pair, hPair, hApart⟩)
    · exact hPlain pair hPair hConfusable
    · exact hApart (hSpelled pair hPair (hEqualPairs hEqual pair hPair))

/-- A call on three items, two of which have the same key. -/
def numberedCall (now : ℚ) : Call ℕ where
  now := now
  expireSeconds := 3600
  keys := [fieldPath "k"]
  items := [fieldItem "k" (.number 1), fieldItem "k" (.number 2), fieldItem "k" (.number 1)]

theorem numberedCall_fields (now : ℚ) :
    ∀ item ∈ (numberedCall now).items, ∃ number, item = fieldItem "k" (.number number) := by
  intro item hItem
  simp only [numberedCall, List.mem_cons, List.not_mem_nil, or_false] at hItem
  rcases hItem with rfl | rfl | rfl <;> exact ⟨_, rfl⟩

theorem numberedCall_exist (now : ℚ) :
    PathsExist (numberedCall now).keys (numberedCall now).items := by
  intro item hItem path hPath
  obtain ⟨number, rfl⟩ := numberedCall_fields now item hItem
  rw [List.mem_singleton.mp hPath]
  rfl

theorem numberedCall_row {now : ℚ} {item : Item ℕ} (hItem : item ∈ (numberedCall now).items) :
    ∀ value ∈ keyValues (numberedCall now).keys item,
      ∃ number, value = .node (.atom (.number number)) := by
  intro value hValue
  obtain ⟨number, rfl⟩ := numberedCall_fields now item hItem
  exact ⟨number, List.mem_singleton.mp hValue⟩

theorem numberedCalls_fair : FairCalls naturals [numberedCall 0, numberedCall 60] := by
  have hCall : ∀ call ∈ [numberedCall 0, numberedCall 60], ∃ now, call = numberedCall now := by
    intro call hCall
    simp only [List.mem_cons, List.not_mem_nil, or_false] at hCall
    rcases hCall with rfl | rfl <;> exact ⟨_, rfl⟩
  constructor
  · intro call hMem item hItem other hOther
    obtain ⟨now, rfl⟩ := hCall call hMem
    exact (naturals_fair (numberedCall_row hItem) (numberedCall_row hOther)).1
  · intro call hMem later hLater values hValues others hOthers
    obtain ⟨now, rfl⟩ := hCall call hMem
    obtain ⟨then', rfl⟩ := hCall later hLater
    obtain ⟨item, hItem, rfl⟩ := List.mem_map.mp hValues
    obtain ⟨other, hOther, rfl⟩ := List.mem_map.mp hOthers
    exact (naturals_fair (numberedCall_row hItem) (numberedCall_row hOther)).2

end Transform
end Tracecat
