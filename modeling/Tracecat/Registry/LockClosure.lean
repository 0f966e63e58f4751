import Tracecat.Lib.Search
import Tracecat.Registry.Lock

/-!
# The work-list of a registry lock

The resolution binds the requested actions and the step actions of the templates
that they reach, each to the one selected origin that has it, and it needs no
more turns than it is given.
-/

namespace Tracecat
namespace Registry
namespace Registries

variable {registries : Registries}

/-! ## Matching origins -/

theorem mem_matchingOrigins {action origin : String} :
    origin ∈ registries.matchingOrigins action ↔
      ∃ manifest, registries.originManifests.lookup origin = some manifest ∧
        (manifest.lookup action).isSome := by
  have hNodup : (registries.originManifests.map Prod.fst).Nodup := Assoc.nodup_ofPairs _
  unfold matchingOrigins
  simp only [List.mem_map, List.mem_filter, Prod.exists]
  constructor
  · rintro ⟨_, manifest, ⟨hEntry, hAction⟩, rfl⟩
    exact ⟨manifest, (Assoc.lookup_eq_some_iff hNodup).mpr hEntry, hAction⟩
  · rintro ⟨manifest, hLookup, hAction⟩
    exact ⟨origin, manifest, ⟨(Assoc.lookup_eq_some_iff hNodup).mp hLookup, hAction⟩, rfl⟩

theorem stepActions_of_matching {action origin : String}
    (hMatching : registries.matchingOrigins action = [origin]) :
    registries.stepActions action =
      (registries.templateSteps origin action).map ActionStep.action := by
  unfold stepActions
  rw [hMatching]

theorem stepActions_outside {action : String} (hOutside : action ∉ registries.selectedActions) :
    registries.stepActions action = [] := by
  unfold stepActions
  split
  · rename_i origin hMatching
    have hOrigin : origin ∈ registries.matchingOrigins action := hMatching ▸ List.mem_singleton_self _
    obtain ⟨manifest, hManifest, hAction⟩ := mem_matchingOrigins.mp hOrigin
    have hNodup : (registries.originManifests.map Prod.fst).Nodup := Assoc.nodup_ofPairs _
    exfalso
    apply hOutside
    unfold selectedActions
    rw [List.mem_dedup, List.mem_flatMap]
    exact ⟨(origin, manifest), (Assoc.lookup_eq_some_iff hNodup).mp hManifest,
      Assoc.lookup_isSome_iff.mp hAction⟩
  · rfl

/-! ## The loop -/

/-- What the work-list has bound so far. -/
structure Bound (registries : Registries) (names queue : List String)
    (actions : List (String × String)) : Prop where
  sound : Search.Sound registries.stepActions names queue (actions.map Prod.fst)
  only : ∀ action origin, actions.lookup action = some origin →
    registries.matchingOrigins action = [origin]

theorem Bound.start (names : List String) : Bound registries names names [] where
  sound := .start
  only action origin hLookup := by cases hLookup

theorem Bound.skip {names queue : List String} {actions : List (String × String)} {action : String}
    (hBound : Bound registries names (action :: queue) actions)
    (hDone : (actions.lookup action).isSome) : Bound registries names queue actions where
  sound := hBound.sound.skip (Assoc.lookup_isSome_iff.mp hDone)
  only := hBound.only

theorem Bound.bind {names queue : List String} {actions : List (String × String)}
    {action origin : String} (hBound : Bound registries names (action :: queue) actions)
    (hMatching : registries.matchingOrigins action = [origin]) :
    Bound registries names
      (queue ++ ((registries.templateSteps origin action).filter fun step =>
        ((Assoc.set action origin actions).lookup step.action).isNone).map ActionStep.action)
      (Assoc.set action origin actions) where
  sound := by
    have hSteps := stepActions_of_matching hMatching
    have hKeys (other : String) : other ∈ (Assoc.set action origin actions).map Prod.fst ↔
        other ∈ action :: actions.map Prod.fst := by
      rw [Assoc.mem_keys_set, List.mem_cons]
    refine Search.Sound.congr (hBound.sound.pop ?kept ?waiting ?next) hKeys
    case kept => exact fun other hOther => List.mem_append_left _ hOther
    case waiting =>
      intro other hOther
      rw [hSteps]
      refine (List.mem_append.mp hOther).imp_right fun hFresh => ?_
      obtain ⟨step, hStep, rfl⟩ := List.mem_map.mp hFresh
      exact List.mem_map_of_mem (List.mem_of_mem_filter hStep)
    case next =>
      intro target hTarget
      rw [hSteps] at hTarget
      obtain ⟨step, hStep, rfl⟩ := List.mem_map.mp hTarget
      by_cases hKnown : ((Assoc.set action origin actions).lookup step.action).isSome
      · exact Or.inl ((hKeys _).mp (Assoc.lookup_isSome_iff.mp hKnown))
      · right
        apply List.mem_append_right
        exact List.mem_map_of_mem (List.mem_filter.mpr ⟨hStep, by simpa using hKnown⟩)
  only other found hLookup := by
    rcases Assoc.lookup_set_cases hLookup with hOld | ⟨rfl, rfl⟩
    · exact hBound.only other found hOld
    · exact hMatching

/-- A resolution that returns has bound everything that it met. -/
theorem Bound.run {names : List String} {fuel : Nat} {queue : List String}
    {actions resolved : List (String × String)} (hBound : Bound registries names queue actions)
    (hRun : registries.resolveActions fuel queue actions = some (.ok resolved)) :
    Bound registries names [] resolved := by
  induction fuel generalizing queue actions with
  | zero =>
      cases queue with
      | nil =>
          obtain rfl := Except.ok.inj (Option.some.inj hRun)
          exact hBound
      | cons action queue => cases hRun
  | succ fuel ih =>
      cases queue with
      | nil =>
          obtain rfl := Except.ok.inj (Option.some.inj hRun)
          exact hBound
      | cons action queue =>
          unfold resolveActions at hRun
          by_cases hDone : (actions.lookup action).isSome
          · rw [if_pos hDone] at hRun
            exact ih (hBound.skip hDone) hRun
          · rw [if_neg hDone] at hRun
            split at hRun
            · split at hRun <;> cases hRun
            · rename_i origin hMatching
              dsimp only at hRun
              split at hRun
              · cases hRun
              · exact ih (hBound.bind hMatching) hRun
            · cases hRun

/-- Binding an action takes its steps off the steps left. -/
theorem edgesLeft_set (registries : Registries) {action : String}
    {actions : List (String × String)} (origin : String)
    (hFresh : action ∉ actions.map Prod.fst) :
    Search.edgesLeft registries.stepActions registries.selectedActions
        ((Assoc.set action origin actions).map Prod.fst) +
      (registries.stepActions action).length =
    Search.edgesLeft registries.stepActions registries.selectedActions
      (actions.map Prod.fst) := by
  have hNodup : registries.selectedActions.Nodup := List.nodup_dedup _
  rw [← Search.edgesLeft_cons hNodup hFresh fun hOutside => stepActions_outside hOutside]
  unfold Search.edgesLeft
  congr 3
  refine List.filter_congr fun other _ => decide_eq_decide.mpr (not_congr ?_)
  rw [Assoc.mem_keys_set, List.mem_cons]

/-- A turn for each queued action and each step left is enough. -/
theorem resolveActions_isSome {fuel : Nat} {queue : List String}
    {actions : List (String × String)}
    (hFuel : queue.length +
      Search.edgesLeft registries.stepActions registries.selectedActions (actions.map Prod.fst) ≤
        fuel) :
    (registries.resolveActions fuel queue actions).isSome := by
  induction fuel generalizing queue actions with
  | zero =>
      have hEmpty : queue = [] := List.length_eq_zero_iff.mp (by omega)
      subst hEmpty
      rfl
  | succ fuel ih =>
      cases queue with
      | nil => rfl
      | cons action queue =>
          rw [List.length_cons] at hFuel
          unfold resolveActions
          by_cases hDone : (actions.lookup action).isSome
          · rw [if_pos hDone]
            exact ih (by omega)
          · rw [if_neg hDone]
            split
            · split <;> rfl
            · rename_i origin hMatching
              dsimp only
              split
              · rfl
              · apply ih
                have hFresh : action ∉ actions.map Prod.fst := fun hMem =>
                  hDone (Assoc.lookup_isSome_iff.mpr hMem)
                have hEdges := registries.edgesLeft_set origin hFresh
                have hSteps := congrArg List.length (stepActions_of_matching hMatching)
                rw [List.length_map] at hSteps
                have hQueued := List.length_filter_le
                  (fun step => ((Assoc.set action origin actions).lookup step.action).isNone)
                  (registries.templateSteps origin action)
                rw [List.length_append, List.length_map]
                omega
            · rfl

theorem resolveLockWithBindings_isSome (fingerprint : Manifest → String) (names : List String) :
    (registries.resolveLockWithBindings fingerprint names).isSome := by
  unfold resolveLockWithBindings
  split
  · rfl
  · rw [Option.isSome_map]
    apply resolveActions_isSome
    have hLeft : Search.edgesLeft registries.stepActions registries.selectedActions [] =
        registries.stepCount := by
      simp [Search.edgesLeft, stepCount]
    rw [List.map_nil, hLeft]

end Registries
end Registry
end Tracecat
