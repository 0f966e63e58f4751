import Mathlib.Data.List.Forall2
import Mathlib.Data.List.Induction

/-!
# Sequences of checks

A validation pass is a program in `Except`: it runs one check after another
and stops at the first failure.  The lemmas here read off what an accepting
pass has established.
-/

namespace Tracecat
namespace Checks

variable {ε α β : Type}

theorem bind_eq_ok {first : Except ε α} {rest : α → Except ε β} {result : β} :
    first >>= rest = .ok result ↔ ∃ value, first = .ok value ∧ rest value = .ok result := by
  cases first with
  | error error => simp [bind, Except.bind]
  | ok value => simp [bind, Except.bind]

theorem map_eq_ok {outcome : Except ε α} {f : α → β} {result : β} :
    outcome.map f = .ok result ↔ ∃ value, outcome = .ok value ∧ f value = result := by
  cases outcome with
  | error error => simp [Except.map]
  | ok value => simp [Except.map]

theorem then_eq_ok {check : Except ε Unit} {rest : Except ε β} {result : β} :
    (check >>= fun _ => rest) = .ok result ↔ check = .ok () ∧ rest = .ok result := by
  rw [bind_eq_ok]
  constructor
  · rintro ⟨⟨⟩, hCheck, hRest⟩
    exact ⟨hCheck, hRest⟩
  · rintro ⟨hCheck, hRest⟩
    exact ⟨(), hCheck, hRest⟩

theorem forM_eq_ok {check : α → Except ε Unit} {items : List α} :
    items.forM check = .ok () ↔ ∀ item ∈ items, check item = .ok () := by
  induction items with
  | nil => simp [List.forM, pure, Except.pure]
  | cons head rest ih =>
      rw [List.forM, bind_eq_ok]
      constructor
      · rintro ⟨⟨⟩, hHead, hRest⟩ item hItem
        rcases List.mem_cons.mp hItem with rfl | hItem
        · exact hHead
        · exact ih.mp hRest item hItem
      · intro hAll
        refine ⟨⟨⟩, hAll head List.mem_cons_self, ih.mpr fun item hItem => ?_⟩
        exact hAll item (List.mem_cons_of_mem _ hItem)

theorem throw_if_eq_ok {condition : Prop} [Decidable condition] {error : ε}
    {rest : Except ε α} {result : α} :
    (if condition then .error error else rest) = .ok result ↔
      ¬ condition ∧ rest = .ok result := by
  by_cases hCondition : condition <;> simp [hCondition]

theorem exists_right_of_forall₂ {R : α → β → Prop} {items : List α} {values : List β}
    (hRelated : List.Forall₂ R items values) {item : α} (hItem : item ∈ items) :
    ∃ value ∈ values, R item value := by
  induction hRelated with
  | nil => cases hItem
  | cons hHead _ ih =>
      rcases List.mem_cons.mp hItem with rfl | hItem
      · exact ⟨_, List.mem_cons_self, hHead⟩
      · obtain ⟨value, hValue, hPair⟩ := ih hItem
        exact ⟨value, List.mem_cons_of_mem _ hValue, hPair⟩

theorem exists_left_of_forall₂ {R : α → β → Prop} {items : List α} {values : List β}
    (hRelated : List.Forall₂ R items values) {value : β} (hValue : value ∈ values) :
    ∃ item ∈ items, R item value :=
  exists_right_of_forall₂ hRelated.flip hValue

theorem mapM_eq_ok_iff {step : α → Except ε β} {items : List α} {values : List β} :
    items.mapM step = .ok values ↔
      List.Forall₂ (fun item value => step item = .ok value) items values := by
  induction items generalizing values with
  | nil => simp [pure, Except.pure, eq_comm]
  | cons item items ih =>
      rw [List.mapM_cons, bind_eq_ok, List.forall₂_cons_left_iff]
      constructor
      · rintro ⟨value, hValue, hTail⟩
        obtain ⟨rest, hRest, hValues⟩ := bind_eq_ok.mp hTail
        cases hValues
        exact ⟨value, rest, hValue, ih.mp hRest, rfl⟩
      · rintro ⟨value, rest, hValue, hRest, rfl⟩
        exact ⟨value, hValue, bind_eq_ok.mpr ⟨rest, ih.mpr hRest, rfl⟩⟩

theorem mapM_eq_ok {step : α → Except ε β} {items : List α} {values : List β}
    (hSteps : List.Forall₂ (fun item value => step item = .ok value) items values) :
    items.mapM step = .ok values :=
  mapM_eq_ok_iff.mpr hSteps

theorem mapM_eq_map {step : α → Except ε β} {result : α → β} {items : List α}
    (hSteps : ∀ item ∈ items, step item = .ok (result item)) :
    items.mapM step = .ok (items.map result) := by
  rw [mapM_eq_ok_iff, List.forall₂_map_right_iff, List.forall₂_same]
  exact hSteps

theorem mapM_congr {step other : α → Except ε β} {items : List α}
    (hSame : ∀ item ∈ items, step item = other item) : items.mapM step = items.mapM other := by
  induction items with
  | nil => rfl
  | cons item items ih =>
      rw [List.mapM_cons, List.mapM_cons, hSame item List.mem_cons_self,
        ih fun later hLater => hSame later (List.mem_cons_of_mem _ hLater)]

/-- Two passes, one after the other, go through when both steps do for each item. -/
theorem mapM_mapM_eq_ok_iff {γ : Type} {first : α → Except ε β} {second : β → Except ε γ}
    {items : List α} {values : List γ} :
    (items.mapM first >>= fun found => found.mapM second) = .ok values ↔
      List.Forall₂ (fun item value => (first item >>= second) = .ok value) items values := by
  rw [bind_eq_ok]
  constructor
  · rintro ⟨found, hFirst, hSecond⟩
    rw [mapM_eq_ok_iff] at hFirst hSecond
    induction hFirst generalizing values with
    | nil =>
        cases hSecond
        exact .nil
    | cons hItem hItems ih =>
        cases hSecond with
        | cons hValue hValues => exact .cons (bind_eq_ok.mpr ⟨_, hItem, hValue⟩) (ih hValues)
  · intro hBoth
    induction hBoth with
    | nil => exact ⟨[], rfl, rfl⟩
    | cons hItem hItems ih =>
        obtain ⟨found, hFound, hValue⟩ := bind_eq_ok.mp hItem
        obtain ⟨founds, hFounds, hValues⟩ := ih
        rw [mapM_eq_ok_iff] at hFounds hValues
        exact ⟨found :: founds, mapM_eq_ok_iff.mpr (.cons hFound hFounds),
          mapM_eq_ok_iff.mpr (.cons hValue hValues)⟩

theorem mapError_eq_ok {ε' : Type} {outcome : Except ε α} {change : ε → ε'} {value : α} :
    outcome.mapError change = .ok value ↔ outcome = .ok value := by
  cases outcome with
  | error error => exact ⟨nofun, nofun⟩
  | ok found => exact ⟨fun hOk => by cases hOk; rfl, fun hOk => by cases hOk; rfl⟩

/-- An invariant of a fold over fallible updates: it is indexed by the items
already processed. -/
theorem foldlM_invariant {σ : Type} {update : σ → α → Except ε σ}
    (Inv : List α → σ → Prop)
    (hStep : ∀ {done : List α} {item : α} {state next : σ},
      Inv done state → update state item = .ok next → Inv (done ++ [item]) next)
    {items : List α} {done : List α} {state final : σ} (hInv : Inv done state)
    (hRun : items.foldlM update state = .ok final) : Inv (done ++ items) final := by
  induction items generalizing done state with
  | nil =>
      have hEq : state = final := by simpa [pure, Except.pure] using hRun
      simpa [hEq] using hInv
  | cons head rest ih =>
      rw [List.foldlM_cons, bind_eq_ok] at hRun
      obtain ⟨next, hNext, hRest⟩ := hRun
      have hDone := ih (hStep hInv hNext) hRest
      simpa using hDone

theorem foldlM_keeps {σ : Type} {update : σ → α → Except ε σ} (P : σ → Prop)
    (hStep : ∀ {item state next}, P state → update state item = .ok next → P next)
    {items : List α} {state final : σ} (hState : P state)
    (hRun : items.foldlM update state = .ok final) : P final :=
  @foldlM_invariant ε α σ update (fun _ => P) (fun hDone hNext => hStep hDone hNext)
    items [] state final hState hRun

/-- A fold whose every update succeeds, given an invariant of the items already
processed. -/
theorem foldlM_ok {σ : Type} {update : σ → α → Except ε σ} (Inv : List α → σ → Prop)
    {items : List α} {start : σ}
    (hStep : ∀ done item rest state, items = done ++ item :: rest → Inv done state →
      ∃ next, update state item = .ok next ∧ Inv (done ++ [item]) next)
    (hInv : Inv [] start) : ∃ final, items.foldlM update start = .ok final ∧ Inv items final := by
  suffices hSuffix : ∀ rest done state, items = done ++ rest → Inv done state →
      ∃ final, rest.foldlM update state = .ok final ∧ Inv items final from
    hSuffix items [] start rfl hInv
  intro rest
  induction rest with
  | nil =>
      intro done state hItems hDone
      rw [List.append_nil] at hItems
      exact ⟨state, rfl, hItems ▸ hDone⟩
  | cons head rest ih =>
      intro done state hItems hDone
      obtain ⟨next, hNext, hHead⟩ := hStep done head rest state hItems hDone
      obtain ⟨final, hFinal, hAll⟩ := ih (done ++ [head]) next (by simp [hItems]) hHead
      refine ⟨final, ?_, hAll⟩
      rw [List.foldlM_cons, bind_eq_ok]
      exact ⟨next, hNext, hFinal⟩

/-- A property of every state that the fold goes through, from a step that may
use how the fold has come to the state. -/
theorem foldlM_reached {σ : Type} {update : σ → α → Except ε σ} (P : σ → Prop)
    {items : List α} {start : σ} (hStart : P start)
    (hStep : ∀ {done item rest state next}, items = done ++ item :: rest →
      done.foldlM update start = .ok state → P state → update state item = .ok next → P next)
    {done rest : List α} {state : σ} (hItems : items = done ++ rest)
    (hRun : done.foldlM update start = .ok state) : P state := by
  induction done using List.reverseRecOn generalizing rest state with
  | nil =>
      have hEq : start = state := by simpa [pure, Except.pure] using hRun
      exact hEq ▸ hStart
  | append_singleton done item ih =>
      rw [List.foldlM_append, bind_eq_ok] at hRun
      obtain ⟨middle, hDone, hLast⟩ := hRun
      have hNext : update middle item = .ok state := by simpa using hLast
      rw [List.append_assoc, List.singleton_append] at hItems
      exact hStep hItems hDone (ih hItems hDone) hNext

theorem foldlM_eq_error {σ : Type} {update : σ → α → Except ε σ} {items : List α} {start : σ}
    {error : ε} : items.foldlM update start = .error error ↔
      ∃ done item rest state, items = done ++ item :: rest ∧
        done.foldlM update start = .ok state ∧ update state item = .error error := by
  induction items generalizing start with
  | nil =>
      constructor
      · intro hRun
        cases hRun
      · rintro ⟨done, item, rest, state, hItems, -, -⟩
        simp at hItems
  | cons head tail ih =>
      rw [List.foldlM_cons]
      cases hHead : update start head with
      | error failure =>
          constructor
          · intro hRun
            exact ⟨[], head, tail, start, rfl, rfl, hHead.trans hRun⟩
          · rintro ⟨done, item, rest, state, hItems, hDone, hItem⟩
            cases done with
            | nil =>
                obtain ⟨rfl, rfl⟩ := List.cons.inj hItems
                cases hDone
                exact hHead.symm.trans hItem
            | cons first done =>
                obtain ⟨rfl, -⟩ := List.cons.inj hItems
                rw [List.foldlM_cons, hHead] at hDone
                cases hDone
      | ok middle =>
          show tail.foldlM update middle = .error error ↔ _
          rw [ih]
          constructor
          · rintro ⟨done, item, rest, state, rfl, hDone, hItem⟩
            refine ⟨head :: done, item, rest, state, rfl, ?_, hItem⟩
            rw [List.foldlM_cons, hHead]
            exact hDone
          · rintro ⟨done, item, rest, state, hItems, hDone, hItem⟩
            cases done with
            | nil =>
                obtain ⟨rfl, rfl⟩ := List.cons.inj hItems
                cases hDone
                rw [hHead] at hItem
                cases hItem
            | cons first done =>
                obtain ⟨rfl, rfl⟩ := List.cons.inj hItems
                rw [List.foldlM_cons, hHead] at hDone
                exact ⟨done, item, rest, state, rfl, hDone, hItem⟩

end Checks
end Tracecat
