import Mathlib.Data.List.ReduceOption

/-!
# Gathering outcomes that arrive in any order

A gather has one slot for each of its awaitables, in their order.  An awaitable
that ends fills its own slot; when all slots are filled, they are the outcomes
in the order of the awaitables, whatever the order in which they came.
-/

namespace Tracecat

variable {α : Type}

/-- The values of a function at `count` numbers from `first` on. -/
def span (f : Nat → α) (first count : Nat) : List α :=
  (List.range count).map fun offset => f (first + offset)

@[simp] theorem length_span (f : Nat → α) (first count : Nat) :
    (span f first count).length = count := by
  rw [span, List.length_map, List.length_range]

@[simp] theorem span_zero (f : Nat → α) (first : Nat) : span f first 0 = [] := rfl

theorem span_append (f : Nat → α) (first count more : Nat) :
    span f first count ++ span f (first + count) more = span f first (count + more) := by
  rw [span, span, span, List.range_add, List.map_append, List.map_map]
  simp [Function.comp_def, Nat.add_assoc]

theorem span_concat (f : Nat → α) (first count : Nat) :
    span f first count ++ [f (first + count)] = span f first (count + 1) := by
  rw [← span_append]
  rfl

theorem getElem?_span {f : Nat → α} {first count offset : Nat} {value : α}
    (hGet : (span f first count)[offset]? = some value) :
    value = f (first + offset) ∧ offset < count := by
  rw [span, List.getElem?_map] at hGet
  obtain ⟨found, hFound, rfl⟩ := Option.map_eq_some_iff.mp hGet
  obtain ⟨hOffset, hEq⟩ := List.getElem?_eq_some_iff.mp hFound
  rw [List.getElem_range] at hEq
  rw [List.length_range] at hOffset
  exact ⟨by rw [hEq], hOffset⟩

theorem mem_span {f : Nat → α} {first count : Nat} {value : α} :
    value ∈ span f first count ↔ ∃ offset, offset < count ∧ f (first + offset) = value := by
  simp [span]

/-- A slot is empty until its awaitable has ended. -/
abbrev Slots (α : Type) : Type := List (Option α)

def settleSlot (slots : Slots α) (slot : Nat) (outcome : Option α) : Option (Slots α) :=
  match slots[slot]?, outcome with
  | some none, some value => some (slots.set slot (some value))
  | _, _ => none

/-- The slots of `count` awaitables with these outcomes. -/
structure SlotsOf (outcome : Nat → α) (count : Nat) (slots : Slots α) : Prop where
  length : slots.length = count
  settled : ∀ slot value, slots[slot]? = some (some value) → value = outcome slot

theorem settleSlot_eq_some {slots next : Slots α} {slot : Nat} {found : Option α}
    (hSettle : settleSlot slots slot found = some next) :
    ∃ value, found = some value ∧ slots[slot]? = some none ∧
      next = slots.set slot (some value) := by
  unfold settleSlot at hSettle
  split at hSettle
  · rename_i value hSlot
    exact ⟨value, rfl, hSlot, (Option.some.inj hSettle).symm⟩
  · cases hSettle

theorem settleSlot_of_empty {slots : Slots α} {slot : Nat} (hEmpty : slots[slot]? = some none)
    (value : α) : settleSlot slots slot (some value) = some (slots.set slot (some value)) := by
  simp only [settleSlot, hEmpty]

theorem countP_isNone_map_none {β : Type} (items : List β) :
    (items.map fun _ => (none : Option α)).countP Option.isNone = items.length := by
  induction items with
  | nil => rfl
  | cons item items ih =>
      rw [List.map_cons, List.countP_cons, ih, List.length_cons]
      rfl

theorem countP_isNone_map_some {β : Type} (value : β → α) (items : List β) :
    (items.map fun item => some (value item)).countP Option.isNone = 0 := by
  rw [List.countP_eq_zero]
  intro entry hEntry
  obtain ⟨item, _, rfl⟩ := List.mem_map.mp hEntry
  simp

theorem countP_isNone_settle {slots next : Slots α} {slot : Nat} {found : Option α}
    (hSettle : settleSlot slots slot found = some next) :
    next.countP Option.isNone < slots.countP Option.isNone := by
  obtain ⟨value, _, hEmpty, rfl⟩ := settleSlot_eq_some hSettle
  obtain ⟨hLength, hGet⟩ := List.getElem?_eq_some_iff.mp hEmpty
  have hPos : 0 < slots.countP Option.isNone :=
    List.countP_pos_iff.mpr ⟨none, List.mem_of_getElem? hEmpty, rfl⟩
  rw [List.countP_set hLength, hGet]
  simp only [Option.isNone_none, Option.isNone_some, if_true, Bool.false_eq_true, if_false]
  omega

namespace SlotsOf

variable {outcome : Nat → α} {count slot : Nat} {slots next : Slots α} {found : Option α}

theorem empty {β : Type} (items : List β) : SlotsOf outcome items.length (items.map fun _ => none) where
  length := List.length_map _
  settled slot value hSlot := by
    rw [List.getElem?_map] at hSlot
    obtain ⟨item, _, hValue⟩ := Option.map_eq_some_iff.mp hSlot
    cases hValue

theorem full {β : Type} {items : List β} {end_ : β → α}
    (hItems : ∀ slot item, items[slot]? = some item → end_ item = outcome slot) :
    SlotsOf outcome items.length (items.map fun item => some (end_ item)) where
  length := List.length_map _
  settled slot value hSlot := by
    rw [List.getElem?_map] at hSlot
    obtain ⟨item, hItem, hValue⟩ := Option.map_eq_some_iff.mp hSlot
    rw [← hItems slot item hItem]
    exact (Option.some.inj hValue).symm

theorem settle (hSlots : SlotsOf outcome count slots)
    (hFound : ∀ value, found = some value → value = outcome slot)
    (hSettle : settleSlot slots slot found = some next) : SlotsOf outcome count next := by
  obtain ⟨value, rfl, hEmpty, rfl⟩ := settleSlot_eq_some hSettle
  refine ⟨by rw [List.length_set, hSlots.length], fun other seen hOther => ?_⟩
  obtain ⟨hLength, _⟩ := List.getElem?_eq_some_iff.mp hEmpty
  rw [List.getElem?_set] at hOther
  by_cases hSame : slot = other
  · rw [if_pos hSame, if_pos hLength, Option.some.injEq, Option.some.injEq] at hOther
    rw [← hOther, ← hSame]
    exact hFound value rfl
  · rw [if_neg hSame] at hOther
    exact hSlots.settled other seen hOther

theorem complete (hSlots : SlotsOf outcome count slots) (hAll : slots.all Option.isSome) :
    slots.reduceOption = span outcome 0 count := by
  have hEq : slots = (List.range count).map fun slot => some (outcome slot) := by
    apply List.ext_getElem?
    intro slot
    rw [List.getElem?_map]
    by_cases hSlot : slot < count
    · rw [List.getElem?_range hSlot, Option.map_some]
      have hLength : slot < slots.length := by rwa [hSlots.length]
      have hGet := List.getElem?_eq_getElem hLength
      obtain ⟨value, hValue⟩ := Option.isSome_iff_exists.mp
        (List.all_eq_true.mp hAll _ (List.getElem_mem hLength))
      rw [hValue] at hGet
      rw [hGet, hSlots.settled slot value hGet]
    · have hLength : slots.length ≤ slot := by
        rw [hSlots.length]
        omega
      rw [List.getElem?_eq_none hLength, List.getElem?_eq_none (by simpa using hSlot),
        Option.map_none]
  rw [hEq, span]
  simp only [Nat.zero_add]
  generalize List.range count = indices
  induction indices with
  | nil => rfl
  | cons index indices ih => rw [List.map_cons, List.reduceOption_cons_of_some, ih, List.map_cons]

/-- A gather that is not complete waits for an awaitable. -/
theorem exists_empty (hSlots : SlotsOf outcome count slots) (hNot : ¬ slots.all Option.isSome) :
    ∃ slot, slot < count ∧ slots[slot]? = some none := by
  rw [List.all_eq_true] at hNot
  push Not at hNot
  obtain ⟨entry, hMem, hEntry⟩ := hNot
  obtain ⟨slot, hSlot⟩ := List.mem_iff_getElem?.mp hMem
  have hNone : entry = none := by simpa using hEntry
  refine ⟨slot, ?_, hNone ▸ hSlot⟩
  rw [← hSlots.length]
  exact (List.getElem?_eq_some_iff.mp hSlot).1

end SlotsOf

end Tracecat
