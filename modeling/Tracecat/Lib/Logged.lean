import Mathlib.Data.List.Infix

/-!
# Logged computations

Computations that read and change a world, may fail, and log what they do.  The
log and the world stay when a computation fails, so that a run says how far it
came.
-/

namespace Tracecat

variable {σ ω ε α β : Type}

/-- What a run leaves: the result, the log and the world. -/
structure LoggedRun (σ ω ε α : Type) where
  result : Except ε α
  log : List ω
  world : σ

namespace LoggedRun

/-- A run that follows one with this log. -/
def after (log : List ω) (run : LoggedRun σ ω ε α) : LoggedRun σ ω ε α where
  result := run.result
  log := log ++ run.log
  world := run.world

@[simp] theorem after_result (log : List ω) (run : LoggedRun σ ω ε α) :
    (run.after log).result = run.result := rfl

@[simp] theorem after_log (log : List ω) (run : LoggedRun σ ω ε α) :
    (run.after log).log = log ++ run.log := rfl

@[simp] theorem after_world (log : List ω) (run : LoggedRun σ ω ε α) :
    (run.after log).world = run.world := rfl

@[simp] theorem after_nil (run : LoggedRun σ ω ε α) : run.after [] = run := rfl

end LoggedRun

/-- A computation from a world. -/
def Logged (σ ω ε α : Type) : Type := σ → LoggedRun σ ω ε α

namespace Logged

/-- One computation after another; a failure ends the run. -/
def andThen (first : Logged σ ω ε α) (rest : α → Logged σ ω ε β) : Logged σ ω ε β := fun world =>
  match first world with
  | ⟨.error error, log, world⟩ => ⟨.error error, log, world⟩
  | ⟨.ok value, log, world⟩ => (rest value world).after log

instance : Monad (Logged σ ω ε) where
  pure value := fun world => ⟨.ok value, [], world⟩
  bind := andThen

/-- A step of the world that logs one entry, whatever its result. -/
def call (entry : ω) (step : σ → Except ε α × σ) : Logged σ ω ε α := fun world =>
  ⟨(step world).1, [entry], (step world).2⟩

/-- A step of the world that logs nothing. -/
def silent (step : σ → Except ε α × σ) : Logged σ ω ε α := fun world =>
  ⟨(step world).1, [], (step world).2⟩

def tell (entry : ω) : Logged σ ω ε Unit := call entry fun world => (.ok (), world)

def raise (error : ε) : Logged σ ω ε α := fun world => ⟨.error error, [], world⟩

def all : List (Logged σ ω ε α) → Logged σ ω ε (List α)
  | [] => pure []
  | computation :: computations => do
      let value ← computation
      let values ← all computations
      return value :: values

variable {first : Logged σ ω ε α} {rest : α → Logged σ ω ε β} {world next : σ} {log : List ω}
  {value : α} {error : ε}

@[simp] theorem pure_apply (value : α) (world : σ) :
    (pure value : Logged σ ω ε α) world = ⟨.ok value, [], world⟩ := rfl

@[simp] theorem tell_apply (entry : ω) (world : σ) :
    (tell entry : Logged σ ω ε Unit) world = ⟨.ok (), [entry], world⟩ := rfl

theorem bind_ok (hFirst : first world = ⟨.ok value, log, next⟩) :
    (first >>= rest) world = (rest value next).after log := by
  change andThen first rest world = _
  rw [andThen, hFirst]

theorem bind_error (hFirst : first world = ⟨.error error, log, next⟩) :
    (first >>= rest) world = ⟨.error error, log, next⟩ := by
  change andThen first rest world = _
  rw [andThen, hFirst]

theorem bind_silent (step : σ → Except ε α × σ) (world : σ) {value : α} {next : σ}
    (hStep : step world = (.ok value, next)) : (silent step >>= rest) world = rest value next := by
  have hFirst : (silent step : Logged σ ω ε α) world = ⟨.ok value, [], next⟩ := by
    rw [silent, hStep]
  rw [bind_ok hFirst, LoggedRun.after_nil]

/-- A loop that keeps an invariant of what is left to do and of the world. -/
theorem forM_of_invariant {item : Type} {code : item → Logged σ ω ε Unit}
    (Inv : List item → σ → Prop) (Good : ω → Prop)
    (hStep : ∀ {first rest world}, Inv (first :: rest) world → ∃ log next,
      code first world = ⟨.ok (), log, next⟩ ∧ Inv rest next ∧ ∀ entry ∈ log, Good entry)
    {items : List item} {world : σ} (hStart : Inv items world) :
    ∃ log final, (items.forM code) world = ⟨.ok (), log, final⟩ ∧ Inv [] final ∧
      ∀ entry ∈ log, Good entry := by
  induction items generalizing world with
  | nil => exact ⟨[], world, rfl, hStart, by simp⟩
  | cons first rest ih =>
      obtain ⟨log, next, hFirst, hNext, hGood⟩ := hStep hStart
      obtain ⟨later, final, hRest, hFinal, hLater⟩ := ih hNext
      refine ⟨log ++ later, final, ?_, hFinal, ?_⟩
      · change (code first >>= fun _ => rest.forM code) world = _
        rw [bind_ok hFirst, hRest]
        rfl
      · rw [List.forall_mem_append]
        exact ⟨hGood, hLater⟩

def mapError (change : ε → ε) (computation : Logged σ ω ε α) : Logged σ ω ε α := fun world =>
  match computation world with
  | ⟨.error error, log, world⟩ => ⟨.error (change error), log, world⟩
  | run => run

/-- A program in `Except` that touches no world. -/
def ofExcept {δ : Type} (fault : δ → ε) (outcome : Except δ α) : Logged σ ω ε α :=
  match outcome with
  | .ok value => pure value
  | .error error => raise (fault error)

@[simp] theorem ofExcept_ok {δ : Type} (fault : δ → ε) (value : α) :
    (ofExcept fault (.ok value) : Logged σ ω ε α) = pure value := rfl

@[simp] theorem ofExcept_error {δ : Type} (fault : δ → ε) (error : δ) :
    (ofExcept fault (.error error) : Logged σ ω ε α) = raise (fault error) := rfl

@[simp] theorem pure_then (value : α) (rest : α → Logged σ ω ε β) :
    ((pure value : Logged σ ω ε α) >>= rest) = rest value := rfl

@[simp] theorem raise_then (error : ε) (rest : α → Logged σ ω ε β) :
    ((raise error : Logged σ ω ε α) >>= rest) = raise error := rfl

end Logged

/-! ## What a computation logs -/

/-- A computation logs such entries only, from every world. -/
def Logged.LogsOnly (Good : ω → Prop) (computation : Logged σ ω ε α) : Prop :=
  ∀ world, ∀ entry ∈ (computation world).log, Good entry

namespace Logged
namespace LogsOnly

variable {Good : ω → Prop} {first : Logged σ ω ε α}

theorem pure (value : α) : LogsOnly Good (Pure.pure value : Logged σ ω ε α) :=
  fun _ _ hEntry => absurd hEntry List.not_mem_nil

theorem raise (error : ε) : LogsOnly Good (Logged.raise error : Logged σ ω ε α) :=
  fun _ _ hEntry => absurd hEntry List.not_mem_nil

theorem tell {entry : ω} (hEntry : Good entry) :
    LogsOnly Good (Logged.tell entry : Logged σ ω ε Unit) := by
  intro _ other hOther
  rw [List.mem_singleton.mp hOther]
  exact hEntry

theorem ofExcept {δ : Type} (fault : δ → ε) (outcome : Except δ α) :
    LogsOnly Good (Logged.ofExcept fault outcome : Logged σ ω ε α) := by
  cases outcome with
  | ok value => exact pure value
  | error error => exact raise (fault error)

/-- What follows needs to log such entries only after a value that can come. -/
theorem bind (hFirst : LogsOnly Good first) {next : α → Logged σ ω ε β}
    (hNext : ∀ world value, (first world).result = .ok value → LogsOnly Good (next value)) :
    LogsOnly Good (first >>= next) := by
  intro world entry hEntry
  cases hRun : first world with
  | mk result log after =>
      have hLog := hFirst world
      rw [hRun] at hLog
      cases result with
      | error error =>
          rw [bind_error hRun] at hEntry
          exact hLog entry hEntry
      | ok value =>
          rw [bind_ok hRun, LoggedRun.after_log, List.mem_append] at hEntry
          rcases hEntry with hEarlier | hLater
          · exact hLog entry hEarlier
          · exact hNext world value (by rw [hRun]) after entry hLater

theorem foldlM {item : Type} {step : β → item → Logged σ ω ε β} {items : List item}
    (hStep : ∀ state, ∀ entry ∈ items, LogsOnly Good (step state entry)) (start : β) :
    LogsOnly Good (items.foldlM step start) := by
  induction items generalizing start with
  | nil => exact pure start
  | cons head tail ih =>
      rw [List.foldlM_cons]
      refine bind (hStep start head List.mem_cons_self) fun _ state _ => ?_
      exact ih (fun state entry hEntry => hStep state entry (List.mem_cons_of_mem _ hEntry)) state

theorem mapError (change : ε → ε) (hFirst : LogsOnly Good first) :
    LogsOnly Good (Logged.mapError change first) := by
  intro world entry hEntry
  refine hFirst world entry ?_
  unfold Logged.mapError at hEntry
  split at hEntry
  · rename_i hRun
    rw [hRun]
    exact hEntry
  · exact hEntry

end LogsOnly
end Logged

/-! ## Runs that differ in their errors only -/

/-- The runs log the same, leave the same world, and have the same value or related errors. -/
structure LoggedRun.Alike (R : ε → ε → Prop) (first second : LoggedRun σ ω ε α) : Prop where
  log : first.log = second.log
  world : first.world = second.world
  result : (∃ value, first.result = .ok value ∧ second.result = .ok value) ∨
    ∃ error other, first.result = .error error ∧ second.result = .error other ∧ R error other

/-- The computations have such runs from every world. -/
def Logged.Alike (R : ε → ε → Prop) (first second : Logged σ ω ε α) : Prop :=
  ∀ world, LoggedRun.Alike R (first world) (second world)

namespace Logged
namespace Alike

variable {R : ε → ε → Prop} {left right : Logged σ ω ε α}

theorem raise {error other : ε} (hErrors : R error other) :
    Alike R (Logged.raise error : Logged σ ω ε α) (Logged.raise other) :=
  fun _ => ⟨rfl, rfl, .inr ⟨error, other, rfl, rfl, hErrors⟩⟩

theorem refl (hRefl : ∀ error, R error error) (computation : Logged σ ω ε α) :
    Alike R computation computation := by
  intro world
  refine ⟨rfl, rfl, ?_⟩
  cases hResult : (computation world).result with
  | ok value => exact .inl ⟨value, rfl, rfl⟩
  | error error => exact .inr ⟨error, error, rfl, rfl, hRefl error⟩

theorem bind (hFirst : Alike R left right) {next next' : α → Logged σ ω ε β}
    (hNext : ∀ value, Alike R (next value) (next' value)) :
    Alike R (left >>= next) (right >>= next') := by
  intro world
  obtain ⟨hLog, hWorld, hResult⟩ := hFirst world
  change LoggedRun.Alike R (andThen left next world) (andThen right next' world)
  unfold andThen
  cases hLeft : left world with
  | mk result log after =>
      cases hRight : right world with
      | mk result' log' after' =>
          rw [hLeft, hRight] at hLog hWorld hResult
          obtain rfl : log = log' := hLog
          obtain rfl : after = after' := hWorld
          rcases hResult with ⟨value, hOk, hOk'⟩ | ⟨error, other, hError, hError', hErrors⟩
          · obtain rfl : result = .ok value := hOk
            obtain rfl : result' = .ok value := hOk'
            obtain ⟨hLater, hFinal, hEnd⟩ := hNext value after
            exact ⟨congrArg (log ++ ·) hLater, hFinal, hEnd⟩
          · obtain rfl : result = .error error := hError
            obtain rfl : result' = .error other := hError'
            exact ⟨rfl, rfl, .inr ⟨error, other, rfl, rfl, hErrors⟩⟩

theorem foldlM {item : Type} {step step' : β → item → Logged σ ω ε β} {items : List item}
    (hStep : ∀ state, ∀ entry ∈ items, Alike R (step state entry) (step' state entry)) (start : β) :
    Alike R (items.foldlM step start) (items.foldlM step' start) := by
  induction items generalizing start with
  | nil => exact fun _ => ⟨rfl, rfl, .inl ⟨start, rfl, rfl⟩⟩
  | cons first rest ih =>
      rw [List.foldlM_cons, List.foldlM_cons]
      refine bind (hStep start first (List.mem_cons_self ..)) fun state => ?_
      exact ih (fun other entry hEntry => hStep other entry (List.mem_cons_of_mem _ hEntry)) state

theorem mapError {change : ε → ε} (hChange : ∀ error other, R error other → R error (change other))
    (hAlike : Alike R left right) : Alike R left (mapError change right) := by
  intro world
  obtain ⟨hLog, hWorld, hResult⟩ := hAlike world
  unfold Logged.mapError
  cases hRight : right world with
  | mk result log after =>
      rw [hRight] at hLog hWorld hResult
      cases result with
      | ok value => exact ⟨hLog, hWorld, hResult⟩
      | error other =>
          refine ⟨hLog, hWorld, .inr ?_⟩
          rcases hResult with ⟨value, -, hOk⟩ | ⟨error, other', hError, hOther, hErrors⟩
          · cases hOk
          · cases hOther
            exact ⟨error, _, hError, rfl, hChange error other hErrors⟩

end Alike
end Logged

end Tracecat
