import Mathlib.Control.Basic

/-!
# Code that may raise and that changes a state

Runs of `ExceptT ε (StateM σ)`: the state stays as it is when the code raises, so
that what was changed before is seen.
-/

namespace Tracecat

variable {ε σ α β : Type}

/-- Code that may raise and that changes a state. -/
abbrev Stateful (ε σ α : Type) : Type := ExceptT ε (StateM σ) α

namespace Stateful

def exec (code : Stateful ε σ α) (state : σ) : Except ε α × σ := code.run.run state

def lift : Except ε α → Stateful ε σ α
  | .ok value => pure value
  | .error error => throw error

variable {code : Stateful ε σ α} {rest : α → Stateful ε σ β} {state next : σ} {value : α} {error : ε}

theorem exec_pure (value : α) (state : σ) :
    exec (pure value : Stateful ε σ α) state = (.ok value, state) := rfl

theorem exec_throw (error : ε) (state : σ) :
    exec (throw error : Stateful ε σ α) state = (.error error, state) := rfl

theorem exec_get (state : σ) : exec (get : Stateful ε σ σ) state = (.ok state, state) := rfl

theorem exec_set (new state : σ) : exec (set new : Stateful ε σ PUnit) state = (.ok ⟨⟩, new) := rfl

theorem exec_lift (outcome : Except ε α) (state : σ) :
    exec (lift outcome) state = (outcome, state) := by
  cases outcome <;> rfl

theorem exec_bind_ok (hCode : exec code state = (.ok value, next)) :
    exec (code >>= rest) state = exec (rest value) next := by
  unfold exec at hCode ⊢
  simp only [ExceptT.run_bind, StateT.run_bind]
  rw [hCode]
  rfl

theorem exec_bind_error (hCode : exec code state = (.error error, next)) :
    exec (code >>= rest) state = (.error error, next) := by
  unfold exec at hCode ⊢
  simp only [ExceptT.run_bind, StateT.run_bind]
  rw [hCode]
  rfl

theorem exec_bind_eq_ok {result : β} {final : σ} :
    exec (code >>= rest) state = (.ok result, final) ↔
      ∃ value next, exec code state = (.ok value, next) ∧
        exec (rest value) next = (.ok result, final) := by
  cases hCode : exec code state with
  | mk outcome middle =>
      cases outcome with
      | error error =>
          rw [exec_bind_error hCode]
          constructor
          · intro hError
            cases hError
          · rintro ⟨value, next, hError, -⟩
            cases hError
      | ok value =>
          rw [exec_bind_ok hCode]
          constructor
          · exact fun hRest => ⟨value, middle, rfl, hRest⟩
          · rintro ⟨other, next, hOther, hRest⟩
            cases hOther
            exact hRest

theorem exec_map_eq_ok {change : α → β} {result : β} {final : σ} :
    exec (change <$> code) state = (.ok result, final) ↔
      ∃ value, exec code state = (.ok value, final) ∧ change value = result := by
  rw [map_eq_pure_bind, exec_bind_eq_ok]
  constructor
  · rintro ⟨value, next, hCode, hPure⟩
    cases hPure
    exact ⟨value, hCode, rfl⟩
  · rintro ⟨value, hCode, rfl⟩
    exact ⟨value, final, hCode, rfl⟩

/-- A handler that raises lets nothing but the value of the code return. -/
theorem exec_tryCatch_throw {raised : ε → ε} {result : α} {final : σ} :
    exec (tryCatch code fun error => throw (raised error)) state = (.ok result, final) ↔
      exec code state = (.ok result, final) := by
  unfold exec
  simp only [tryCatch, tryCatchThe, MonadExceptOf.tryCatch, ExceptT.tryCatch, ExceptT.run_mk,
    StateT.run_bind]
  cases hCode : StateT.run code.run state with
  | mk outcome middle =>
      rw [show StateT.run code state = _ from hCode]
      cases outcome with
      | ok value => exact Iff.rfl
      | error error =>
          constructor
          · intro hError
            cases hError
          · intro hError
            cases hError

/-! ## What code keeps -/

/-- From a state with `P` the code leaves one, whether it raises or not, and what it
returns has `Q`. -/
def Ensures (P : σ → Prop) (code : Stateful ε σ α) (Q : α → Prop) : Prop :=
  ∀ state, P state → P (exec code state).2 ∧ ∀ value, (exec code state).1 = .ok value → Q value

namespace Ensures

variable {P : σ → Prop} {Q : α → Prop} {R : β → Prop}

theorem pure (hValue : Q value) : Ensures P (pure value : Stateful ε σ α) Q := fun state hState =>
  ⟨hState, fun result hResult => by cases hResult; exact hValue⟩

theorem throw (error : ε) : Ensures P (throw error : Stateful ε σ α) Q := fun state hState =>
  ⟨hState, fun result hResult => by cases hResult⟩

theorem lift {outcome : Except ε α} (hValue : ∀ value, outcome = .ok value → Q value) :
    Ensures P (lift outcome : Stateful ε σ α) Q := by
  intro state hState
  rw [exec_lift]
  exact ⟨hState, hValue⟩

theorem get : Ensures P (get : Stateful ε σ σ) P := fun state hState =>
  ⟨hState, fun result hResult => by cases hResult; exact hState⟩

theorem set {new : σ} (hNew : P new) : Ensures P (set new : Stateful ε σ PUnit) fun _ => True :=
  fun _ _ => ⟨hNew, fun _ _ => trivial⟩

theorem bind (hCode : Ensures P code Q) (hRest : ∀ value, Q value → Ensures P (rest value) R) :
    Ensures P (code >>= rest) R := by
  intro state hState
  obtain ⟨hKept, hValue⟩ := hCode state hState
  cases hRun : exec code state with
  | mk outcome next =>
      rw [hRun] at hKept hValue
      cases outcome with
      | error error =>
          rw [exec_bind_error hRun]
          exact ⟨hKept, fun result hResult => by cases hResult⟩
      | ok value =>
          rw [exec_bind_ok hRun]
          exact hRest value (hValue value rfl) next hKept

theorem forM {items : List α} {step : α → Stateful ε σ PUnit}
    (hStep : ∀ item ∈ items, Ensures P (step item) fun _ => True) :
    Ensures P (items.forM step) fun _ => True := by
  induction items with
  | nil => exact pure trivial
  | cons item items ih =>
      exact (hStep item List.mem_cons_self).bind fun _ _ =>
        ih fun other hMem => hStep other (List.mem_cons_of_mem _ hMem)

end Ensures

end Stateful

end Tracecat
