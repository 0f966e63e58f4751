import Mathlib.Data.Finset.Dedup
import Mathlib.Data.Finset.Lattice.Basic
import Tracecat.Executor.Templates
import Tracecat.Lib.Acyclic
import Tracecat.Registry.Lock

/-!
# The secrets of an action

`executor/registry_resolver.py` finds the implementation of an action in the
manifests that a registry lock names, and collects the secrets of an action and
of the steps of its templates before it runs.
-/

namespace Tracecat
namespace Templates

open Registry (RegistryLock defaultOrigin)

/-! ## Manifests -/

/-- `RegistryActionImpl`; of a template, the definition and its secrets. -/
inductive RegistryActionImpl (Expr Field Secret : Type)
  | udf (module name : String)
  | template (definition : TemplateActionDefinition Expr Field) (secrets : Option (List Secret))

/-- `RegistryVersionManifestAction`. -/
structure ManifestAction (Expr Field Secret : Type) where
  secrets : Option (List Secret)
  implementation : RegistryActionImpl Expr Field Secret

/-- `RegistryVersionManifest.actions`. -/
abbrev VersionManifest (Expr Field Secret : Type) : Type :=
  List (String × ManifestAction Expr Field Secret)

/-- The manifests in the database, by origin and version. -/
abbrev Manifests (Expr Field Secret : Type) : Type :=
  String → String → Option (VersionManifest Expr Field Secret)

variable {Expr Field Secret Value Fault : Type}

/-- The implementation that `_build_impl_index` has for an action. -/
def ManifestAction.actionImplementation (action : ManifestAction Expr Field Secret) :
    ActionImplementation Expr Field :=
  match action.implementation with
  | .udf _ _ => .udf
  | .template definition _ => .template definition

/-- The secrets that an action declares: a function in its manifest, a template in its
definition. -/
def ManifestAction.declared (action : ManifestAction Expr Field Secret) : List Secret :=
  match action.implementation with
  | .udf _ _ => action.secrets.getD []
  | .template _ secrets => secrets.getD []

def ManifestAction.stepActions (action : ManifestAction Expr Field Secret) : List String :=
  match action.implementation with
  | .udf _ _ => []
  | .template definition _ => definition.steps.map ActionStep.action

/-- What the resolution of a lock reads of an action. -/
def ManifestAction.lockImplementation (action : ManifestAction Expr Field Secret) :
    Registry.Implementation :=
  match action.implementation with
  | .udf module name => .udf module name
  | .template definition _ =>
      .template (definition.steps.map fun step => { ref := step.ref, action := step.action })

/-- What the resolution of a lock reads of a manifest. -/
def VersionManifest.forLock (manifest : VersionManifest Expr Field Secret) : Registry.Manifest :=
  manifest.map fun (name, action) => (name, action.lockImplementation)

/-! ## The resolution of an action -/

/-- `RegistryError`. -/
inductive RegistryError
  | notBound (action : String)
  | originNotFound (origin : String)
  | versionNotFound (origin version : String)
  | notInManifest (action origin version : String)
  deriving DecidableEq, Repr

/-- The message of a `RegistryError`. -/
def RegistryError.message : RegistryError → String
  | notBound action => s!"Action '{action}' not bound in registry_lock"
  | originNotFound origin => s!"Origin '{origin}' not found in registry_lock"
  | versionNotFound origin version =>
      (if origin = defaultOrigin then "Platform registry" else "Registry") ++
        s!" version not found: origin='{origin}', version='{version}'"
  | notInManifest action origin version =>
      s!"Action '{action}' not found in manifest for origin='{origin}', version='{version}'"

variable (manifests : Manifests Expr Field Secret) (lock : RegistryLock)

/-- `resolve_manifest_action`. -/
def resolveManifestAction (action : String) :
    Except RegistryError (ManifestAction Expr Field Secret) :=
  match lock.actions.lookup action with
  | none => .error (.notBound action)
  | some origin =>
      match lock.origins.lookup origin with
      | none => .error (.originNotFound origin)
      | some version =>
          match manifests origin version with
          | none => .error (.versionNotFound origin version)
          | some manifest =>
              match manifest.lookup action with
              | none => .error (.notInManifest action origin version)
              | some manifestAction => .ok manifestAction

/-- `resolve_action`, as the executors use it. -/
def resolveAction (action : String) : Option (ActionImplementation Expr Field) :=
  (resolveManifestAction manifests lock action).toOption.map ManifestAction.actionImplementation

/-- What a run calls, with the actions of a lock. -/
def Services.ofLock (services : Services Expr Field Value Fault) :
    Services Expr Field Value Fault :=
  { services with load := resolveAction manifests lock }

/-! ## The collection -/

variable [DecidableEq Secret]

/-- `_collect_secrets_recursive`, on templates that are nested so deep; `none` when they are
nested deeper.  A step is skipped where the look-ups of `resolve_manifest_action` fail. -/
def collectSecretsRecursive : Nat → ManifestAction Expr Field Secret → Finset Secret →
    Option (Finset Secret)
  | 0, _, _ => none
  | depth + 1, action, secrets =>
      match action.implementation with
      | .udf _ _ => some (secrets ∪ (action.secrets.getD []).toFinset)
      | .template definition templateSecrets =>
          definition.steps.foldlM (fun secrets step =>
              match resolveManifestAction manifests lock step.action with
              | .error _ => some secrets
              | .ok stepAction => collectSecretsRecursive depth stepAction secrets)
            (secrets ∪ (templateSecrets.getD []).toFinset)

/-- `collect_action_secrets_from_manifest`; `none` when the templates are nested deeper than
the fuel. -/
def collectActionSecretsFromManifest (depth : Nat) (action : String) :
    Option (Except RegistryError (Finset Secret)) :=
  match resolveManifestAction manifests lock action with
  | .error error => some (.error error)
  | .ok manifestAction =>
      (collectSecretsRecursive manifests lock depth manifestAction ∅).map .ok

/-! ## Steps that are resolved -/

/-- The first action is a template with a step for the second, and both are resolved. -/
def StepEdge (action next : String) : Prop :=
  (∃ manifestAction, resolveManifestAction manifests lock action = .ok manifestAction ∧
    next ∈ manifestAction.stepActions) ∧
  ∃ manifestAction, resolveManifestAction manifests lock next = .ok manifestAction

variable {manifests lock}

omit [DecidableEq Secret] in
theorem stepEdge_of_resolved {action next : String}
    {manifestAction nextAction : ManifestAction Expr Field Secret}
    (hAction : resolveManifestAction manifests lock action = .ok manifestAction)
    (hNext : resolveManifestAction manifests lock next = .ok nextAction) :
    StepEdge manifests lock action next ↔ next ∈ manifestAction.stepActions := by
  constructor
  · rintro ⟨⟨other, hOther, hStep⟩, -⟩
    rw [hAction] at hOther
    obtain rfl := Except.ok.inj hOther
    exact hStep
  · exact fun hStep => ⟨⟨manifestAction, hAction, hStep⟩, nextAction, hNext⟩

omit [DecidableEq Secret] in
theorem mem_lock_of_resolved {action : String} {manifestAction : ManifestAction Expr Field Secret}
    (hAction : resolveManifestAction manifests lock action = .ok manifestAction) :
    action ∈ lock.actions.map Prod.fst := by
  rw [← Assoc.lookup_isSome_iff]
  unfold resolveManifestAction at hAction
  cases hBound : lock.actions.lookup action with
  | none =>
      rw [hBound] at hAction
      cases hAction
  | some origin => rfl

/-! ## The visit of the steps -/

section Visits

variable {visit : Finset Secret → ActionStep Expr → Option (Finset Secret)}
  {steps : List (ActionStep Expr)}

omit [DecidableEq Secret] in
theorem visits_isSome (ends : ActionStep Expr → Prop)
    (hVisit : ∀ secrets, ∀ step ∈ steps, (visit secrets step).isSome ↔ ends step)
    (secrets : Finset Secret) :
    (steps.foldlM visit secrets).isSome ↔ ∀ step ∈ steps, ends step := by
  induction steps generalizing secrets with
  | nil => simp
  | cons step rest ih =>
      have hStep := hVisit secrets step List.mem_cons_self
      have hRest := ih fun secrets step hMem => hVisit secrets step (List.mem_cons_of_mem _ hMem)
      rw [List.foldlM_cons, List.forall_mem_cons, ← hStep]
      cases hFirst : visit secrets step with
      | none => simp
      | some collected => simpa using hRest collected

omit [DecidableEq Secret] in
theorem visits_collect (needs : ActionStep Expr → Secret → Prop)
    (hVisit : ∀ secrets, ∀ step ∈ steps, ∀ collected, visit secrets step = some collected →
      secrets ⊆ collected ∧ ∀ secret, needs step secret → secret ∈ collected)
    {secrets collected : Finset Secret} (hRun : steps.foldlM visit secrets = some collected) :
    secrets ⊆ collected ∧
      ∀ step ∈ steps, ∀ secret, needs step secret → secret ∈ collected := by
  induction steps generalizing secrets with
  | nil =>
      obtain rfl : secrets = collected := Option.some.inj hRun
      exact ⟨Finset.Subset.refl _, fun _ hMem => absurd hMem List.not_mem_nil⟩
  | cons step rest ih =>
      rw [List.foldlM_cons] at hRun
      obtain ⟨after, hFirst, hRest⟩ := Option.bind_eq_some_iff.mp hRun
      obtain ⟨hGrows, hNeeds⟩ := hVisit secrets step List.mem_cons_self after hFirst
      obtain ⟨hKeeps, hLater⟩ :=
        ih (fun secrets step hMem => hVisit secrets step (List.mem_cons_of_mem _ hMem)) hRest
      refine ⟨hGrows.trans hKeeps, ?_⟩
      rw [List.forall_mem_cons]
      exact ⟨fun secret hNeed => hKeeps (hNeeds secret hNeed), hLater⟩

end Visits

/-! ## What a collection has -/

/-- The collection ends exactly where the templates are not nested deeper. -/
theorem collect_isSome_iff {depth : Nat} {action : String}
    {manifestAction : ManifestAction Expr Field Secret} (secrets : Finset Secret)
    (hAction : resolveManifestAction manifests lock action = .ok manifestAction) :
    (collectSecretsRecursive manifests lock depth manifestAction secrets).isSome ↔
      ¬ Chain (StepEdge manifests lock) depth action := by
  induction depth generalizing action manifestAction secrets with
  | zero => exact iff_of_false Bool.false_ne_true fun hNone => hNone (.nil action)
  | succ depth ih =>
      have hChain : Chain (StepEdge manifests lock) (depth + 1) action ↔
          ∃ next ∈ manifestAction.stepActions,
            (∃ nextAction, resolveManifestAction manifests lock next = .ok nextAction) ∧
              Chain (StepEdge manifests lock) depth next := by
        constructor
        · intro hChain
          cases hChain with
          | @cons _ next _ hEdge hRest =>
              obtain ⟨nextAction, hNext⟩ := hEdge.2
              exact ⟨next, (stepEdge_of_resolved hAction hNext).mp hEdge, ⟨nextAction, hNext⟩, hRest⟩
        · rintro ⟨next, hStep, ⟨nextAction, hNext⟩, hRest⟩
          exact .cons ((stepEdge_of_resolved hAction hNext).mpr hStep) hRest
      rw [hChain]
      unfold collectSecretsRecursive ManifestAction.stepActions
      cases manifestAction.implementation with
      | udf module name => simp
      | template definition templateSecrets =>
          dsimp only
          rw [visits_isSome fun step => ∀ nextAction,
            resolveManifestAction manifests lock step.action = .ok nextAction →
              ¬ Chain (StepEdge manifests lock) depth step.action]
          · simp only [List.mem_map]
            constructor
            · rintro hSteps ⟨_, ⟨step, hStep, rfl⟩, ⟨nextAction, hNext⟩, hRest⟩
              exact hSteps step hStep nextAction hNext hRest
            · intro hNone step hStep nextAction hNext hRest
              exact hNone ⟨_, ⟨step, hStep, rfl⟩, ⟨nextAction, hNext⟩, hRest⟩
          · intro secrets step _
            cases hNext : resolveManifestAction manifests lock step.action with
            | error error => simp
            | ok nextAction => simpa using ih secrets hNext

/-- A collection has the secrets of every action that is reached through steps. -/
theorem collect_covers {depth : Nat} {action : String}
    {manifestAction : ManifestAction Expr Field Secret} {secrets collected : Finset Secret}
    (hAction : resolveManifestAction manifests lock action = .ok manifestAction)
    (hRun : collectSecretsRecursive manifests lock depth manifestAction secrets = some collected) :
    secrets ⊆ collected ∧
      ∀ other, Relation.ReflTransGen (StepEdge manifests lock) action other →
        ∀ called, resolveManifestAction manifests lock other = .ok called →
          ∀ secret ∈ called.declared, secret ∈ collected := by
  induction depth generalizing action manifestAction secrets collected with
  | zero => cases hRun
  | succ depth ih =>
      -- an action that is reached is this one, or reached from one of its steps
      have hSplit : ∀ other, Relation.ReflTransGen (StepEdge manifests lock) action other →
          other = action ∨ ∃ next ∈ manifestAction.stepActions,
            (∃ nextAction, resolveManifestAction manifests lock next = .ok nextAction) ∧
              Relation.ReflTransGen (StepEdge manifests lock) next other := by
        intro other hWalk
        rcases Relation.ReflTransGen.cases_head hWalk with rfl | ⟨next, hEdge, hRest⟩
        · exact .inl rfl
        · obtain ⟨nextAction, hNext⟩ := hEdge.2
          exact .inr ⟨next, (stepEdge_of_resolved hAction hNext).mp hEdge, ⟨nextAction, hNext⟩, hRest⟩
      have hOwn : ∀ called, resolveManifestAction manifests lock action = .ok called →
          called = manifestAction := by
        intro called hCalled
        rw [hAction] at hCalled
        exact (Except.ok.inj hCalled).symm
      unfold collectSecretsRecursive at hRun
      cases hKind : manifestAction.implementation with
      | udf module name =>
          rw [hKind] at hRun
          obtain rfl := Option.some.inj hRun
          refine ⟨Finset.subset_union_left, fun other hWalk called hCalled secret hSecret => ?_⟩
          rcases hSplit other hWalk with rfl | ⟨next, hStep, -⟩
          · rw [hOwn called hCalled, ManifestAction.declared, hKind] at hSecret
            exact Finset.mem_union_right _ (List.mem_toFinset.mpr hSecret)
          · rw [ManifestAction.stepActions, hKind] at hStep
            cases hStep
      | template definition templateSecrets =>
          rw [hKind] at hRun
          dsimp only at hRun
          obtain ⟨hKeeps, hSteps⟩ := visits_collect (fun step secret =>
            (∃ nextAction, resolveManifestAction manifests lock step.action = .ok nextAction) ∧
            ∃ other, Relation.ReflTransGen (StepEdge manifests lock) step.action other ∧
              ∃ called, resolveManifestAction manifests lock other = .ok called ∧
                secret ∈ called.declared) (by
              intro secrets step _ after hVisit
              cases hNext : resolveManifestAction manifests lock step.action with
              | error error =>
                  rw [hNext] at hVisit
                  obtain rfl := Option.some.inj hVisit
                  refine ⟨Finset.Subset.refl _, ?_⟩
                  rintro secret ⟨⟨nextAction, hOk⟩, -⟩
                  cases hOk
              | ok nextAction =>
                  rw [hNext] at hVisit
                  obtain ⟨hGrows, hCovers⟩ := ih hNext hVisit
                  refine ⟨hGrows, ?_⟩
                  rintro secret ⟨-, other, hWalk, called, hCalled, hSecret⟩
                  exact hCovers other hWalk called hCalled secret hSecret) hRun
          refine ⟨Finset.subset_union_left.trans hKeeps, fun other hWalk called hCalled secret
            hSecret => ?_⟩
          rcases hSplit other hWalk with rfl | ⟨next, hStep, hNext, hRest⟩
          · rw [hOwn called hCalled, ManifestAction.declared, hKind] at hSecret
            exact hKeeps (Finset.mem_union_right _ (List.mem_toFinset.mpr hSecret))
          · rw [ManifestAction.stepActions, hKind] at hStep
            obtain ⟨step, hMem, rfl⟩ := List.mem_map.mp hStep
            exact hSteps step hMem secret ⟨hNext, other, hRest, called, hCalled, hSecret⟩

end Templates
end Tracecat
