import Tracecat.Executor.SecretCollection

/-!
# Secrets are collected before templates run

A collection of secrets follows the steps that a run follows, and a run calls
nothing whose secrets are missing.  The collection keeps no set of the templates
that it has visited, so it ends exactly where no template that the action
reaches leads back to itself.
-/

namespace Tracecat
namespace Templates

open Registry (RegistryLock Registries)

variable {Expr Field Secret Value Fault : Type}

def Invocation.action : Invocation Value → String
  | .template action => action
  | .udf action _ => action

/-- A context that is made for a step of the parent's template. -/
def Prepares (services : Services Expr Field Value Fault)
    (parent step : ResolvedContext Expr Field Value) : Prop :=
  ∃ action args, (prepareStepContext services action args parent ()).result = .ok step

/-- The secrets of an action are collected, with those of all that a run of its template
calls, and every step in it has the secrets of the parent. -/
structure CollectsSecrets [DecidableEq Secret] (manifests : Manifests Expr Field Secret)
    (lock : RegistryLock) (action : String) : Prop where
  terminates : ∃ depth, (collectActionSecretsFromManifest manifests lock depth action).isSome
  own : ∀ depth secrets,
    collectActionSecretsFromManifest manifests lock depth action = some (.ok secrets) →
      ∃ called, resolveManifestAction manifests lock action = .ok called ∧
        ∀ secret ∈ called.declared, secret ∈ secrets
  covers : ∀ depth secrets,
    collectActionSecretsFromManifest manifests lock depth action = some (.ok secrets) →
      ∀ definition, resolveAction manifests lock action = some (.template definition) →
        ∀ (Value Fault : Type) (services : Services Expr Field Value Fault) (env : Option Value)
          (resolved : ResolvedContext Expr Field Value) (nesting : Nat),
          ∀ entry ∈ (executeTemplateAction (services.ofLock manifests lock) nesting env definition
            resolved ()).log,
            ∃ called, resolveManifestAction manifests lock entry.action = .ok called ∧
              ∀ secret ∈ called.declared, secret ∈ secrets
  reuses : ∀ (Value Fault : Type) (services : Services Expr Field Value Fault)
    (parent step : ResolvedContext Expr Field Value),
    Relation.ReflTransGen (Prepares (services.ofLock manifests lock)) parent step →
      step.secrets = parent.secrets

/-! ## The contexts of steps -/

theorem prepareStepContext_ok {services : Services Expr Field Value Fault} {action : String}
    {args : Arguments Value} {parent step : ResolvedContext Expr Field Value}
    (hStep : (prepareStepContext services action args parent ()).result = .ok step) :
    step.secrets = parent.secrets ∧ step.actionName = action ∧
      services.load action = some step.actionImpl := by
  unfold prepareStepContext at hStep
  cases hLoad : services.load action with
  | none =>
      rw [hLoad] at hStep
      cases hStep
  | some implementation =>
      rw [hLoad] at hStep
      dsimp only at hStep
      rw [Logged.pure_then] at hStep
      split at hStep
      · obtain rfl := Except.ok.inj hStep
        exact ⟨rfl, rfl, rfl⟩
      · cases hStep

theorem prepareStepContext_log {services : Services Expr Field Value Fault} {action : String}
    {args : Arguments Value} {parent : ResolvedContext Expr Field Value} :
    (prepareStepContext services action args parent ()).log = [] := by
  unfold prepareStepContext
  cases services.load action with
  | none => rfl
  | some implementation =>
      dsimp only
      rw [Logged.pure_then]
      split <;> rfl

theorem secrets_of_prepares {services : Services Expr Field Value Fault}
    {parent step : ResolvedContext Expr Field Value}
    (hWalk : Relation.ReflTransGen (Prepares services) parent step) :
    step.secrets = parent.secrets := by
  induction hWalk with
  | refl => rfl
  | tail _ hLast ih =>
      obtain ⟨action, args, hStep⟩ := hLast
      rw [(prepareStepContext_ok hStep).1, ih]

/-! ## What a run calls -/

/-- A template calls what the contexts of its steps call. -/
theorem executeTemplate_logsOnly {services : Services Expr Field Value Fault}
    {Good : Invocation Value → Prop} {env : Option Value}
    {invokeStep : ResolvedContext Expr Field Value → RunM Value Fault Value}
    {definition : TemplateActionDefinition Expr Field}
    (hInvoke : ∀ step ∈ definition.steps, ∀ context : ResolvedContext Expr Field Value,
      context.actionName = step.action → services.load step.action = some context.actionImpl →
        (invokeStep context).LogsOnly Good)
    (resolved : ResolvedContext Expr Field Value) :
    (executeTemplate services env invokeStep definition resolved).LogsOnly Good := by
  unfold executeTemplate executeTemplateSteps
  refine .bind ?_ fun _ inputs _ => .bind (.foldlM (fun steps step hStep => ?_) _)
    fun _ steps _ => .ofExcept _ _
  · unfold validatedInputArgs
    split
    · exact .pure _
    · exact .ofExcept _ _
  · refine .bind (.ofExcept _ _) fun _ args _ => .bind ?_ fun world context hContext => ?_
    · intro world entry hEntry
      rw [prepareStepContext_log] at hEntry
      cases hEntry
    · obtain ⟨-, hName, hLoad⟩ := prepareStepContext_ok hContext
      exact .bind (.mapError _ (hInvoke step hStep context hName hLoad)) fun _ _ _ => .pure _

section Runs

variable {manifests : Manifests Expr Field Secret} {lock : RegistryLock}

theorem stepActions_of_template {action : String}
    {definition : TemplateActionDefinition Expr Field}
    (hAction : resolveAction manifests lock action = some (.template definition)) :
    ∃ manifestAction, resolveManifestAction manifests lock action = .ok manifestAction ∧
      manifestAction.stepActions = definition.steps.map ActionStep.action := by
  obtain ⟨manifestAction, hOk, hKind⟩ := Option.map_eq_some_iff.mp hAction
  have hResolved : resolveManifestAction manifests lock action = .ok manifestAction := by
    cases hResult : resolveManifestAction manifests lock action with
    | error error =>
        rw [hResult] at hOk
        cases hOk
    | ok found =>
        rw [hResult] at hOk
        exact congrArg Except.ok (Option.some.inj hOk)
  refine ⟨manifestAction, hResolved, ?_⟩
  unfold ManifestAction.actionImplementation at hKind
  unfold ManifestAction.stepActions
  cases hImplementation : manifestAction.implementation with
  | udf module name =>
      rw [hImplementation] at hKind
      cases hKind
  | template other secrets =>
      rw [hImplementation] at hKind
      cases hKind
      rfl

theorem stepEdge_of_template {action : String} {definition : TemplateActionDefinition Expr Field}
    (hAction : resolveAction manifests lock action = some (.template definition))
    {step : ActionStep Expr} (hStep : step ∈ definition.steps)
    {implementation : ActionImplementation Expr Field}
    (hNext : resolveAction manifests lock step.action = some implementation) :
    StepEdge manifests lock action step.action := by
  obtain ⟨manifestAction, hResolved, hSteps⟩ := stepActions_of_template hAction
  refine ⟨⟨manifestAction, hResolved, ?_⟩, ?_⟩
  · rw [hSteps]
    exact List.mem_map_of_mem hStep
  · cases hResult : resolveManifestAction manifests lock step.action with
    | error error =>
        rw [resolveAction, hResult] at hNext
        cases hNext
    | ok nextAction => exact ⟨nextAction, rfl⟩

theorem invokeStep_logsOnly (services : Services Expr Field Value Fault) (env : Option Value)
    (nesting : Nat) {resolved : ResolvedContext Expr Field Value}
    (hLoad : resolveAction manifests lock resolved.actionName = some resolved.actionImpl) :
    (invokeStep (services.ofLock manifests lock) env nesting resolved).LogsOnly fun entry =>
      Relation.ReflTransGen (StepEdge manifests lock) resolved.actionName entry.action := by
  induction nesting generalizing resolved with
  | zero => exact .raise _
  | succ nesting ih =>
      unfold invokeStep
      cases hKind : resolved.actionImpl with
      | udf => exact .bind (.tell .refl) fun _ _ _ => .ofExcept _ _
      | template definition =>
          rw [hKind] at hLoad
          refine .bind (.tell .refl) fun _ _ _ => executeTemplate_logsOnly ?_ resolved
          intro step hStep context hName hContext
          have hEdge := stepEdge_of_template hLoad hStep hContext
          rw [← hName] at hEdge hContext
          intro world entry hEntry
          exact .head hEdge (ih hContext world entry hEntry)

theorem executeTemplateAction_logsOnly (services : Services Expr Field Value Fault)
    (env : Option Value) (nesting : Nat) {action : String}
    {definition : TemplateActionDefinition Expr Field}
    (hAction : resolveAction manifests lock action = some (.template definition))
    (resolved : ResolvedContext Expr Field Value) :
    (executeTemplateAction (services.ofLock manifests lock) nesting env definition
      resolved).LogsOnly fun entry =>
      Relation.TransGen (StepEdge manifests lock) action entry.action := by
  refine executeTemplate_logsOnly ?_ resolved
  intro step hStep context hName hContext
  have hEdge := stepEdge_of_template hAction hStep hContext
  rw [← hName] at hEdge hContext
  intro world entry hEntry
  exact .head' hEdge (invokeStep_logsOnly services env nesting hContext world entry hEntry)

end Runs

/-! ## The collection of an action -/

section Collections

variable [DecidableEq Secret] {manifests : Manifests Expr Field Secret} {lock : RegistryLock}
  {action : String}

theorem collect_of_resolved {manifestAction : ManifestAction Expr Field Secret}
    (hAction : resolveManifestAction manifests lock action = .ok manifestAction) (depth : Nat) :
    collectActionSecretsFromManifest manifests lock depth action =
      (collectSecretsRecursive manifests lock depth manifestAction ∅).map .ok := by
  unfold collectActionSecretsFromManifest
  rw [hAction]

/-- A collection that ends has the secrets of all that the action reaches. -/
theorem covered_of_collected {depth : Nat} {secrets : Finset Secret}
    (hCollected : collectActionSecretsFromManifest manifests lock depth action = some (.ok secrets)) :
    (∃ called, resolveManifestAction manifests lock action = .ok called) ∧
      ∀ other, Relation.ReflTransGen (StepEdge manifests lock) action other →
        ∀ called, resolveManifestAction manifests lock other = .ok called →
          ∀ secret ∈ called.declared, secret ∈ secrets := by
  cases hAction : resolveManifestAction manifests lock action with
  | error error =>
      rw [collectActionSecretsFromManifest, hAction] at hCollected
      cases hCollected
  | ok manifestAction =>
      rw [collect_of_resolved hAction] at hCollected
      obtain ⟨collected, hRun, hOk⟩ := Option.map_eq_some_iff.mp hCollected
      obtain rfl := Except.ok.inj hOk
      exact ⟨⟨manifestAction, rfl⟩, (collect_covers hAction hRun).2⟩

/-- The collection of an action ends exactly where it reaches no cycle of templates. -/
theorem collect_terminates_iff :
    (∃ depth, (collectActionSecretsFromManifest manifests lock depth action).isSome) ↔
      ∀ other, Relation.ReflTransGen (StepEdge manifests lock) action other →
        ¬ Relation.TransGen (StepEdge manifests lock) other other := by
  have hFinite : {name | name ∈ lock.actions.map Prod.fst}.Finite := List.finite_toSet _
  have hInto : ∀ name next, StepEdge manifests lock name next →
      next ∈ {name | name ∈ lock.actions.map Prod.fst} :=
    fun _ _ hEdge => mem_lock_of_resolved hEdge.2.choose_spec
  rw [← Chain.bounded_iff hFinite hInto action]
  cases hAction : resolveManifestAction manifests lock action with
  | ok manifestAction =>
      refine exists_congr fun depth => ?_
      rw [collect_of_resolved hAction, Option.isSome_map]
      exact collect_isSome_iff ∅ hAction
  | error error =>
      -- the error ends the collection, and nothing follows an action that is not resolved
      have hEnds : (collectActionSecretsFromManifest manifests lock 0 action).isSome := by
        rw [collectActionSecretsFromManifest, hAction]
        rfl
      refine iff_of_true ⟨0, hEnds⟩ ⟨1, fun hChain => ?_⟩
      cases hChain with
      | cons hEdge hRest =>
          obtain ⟨⟨manifestAction, hOk, -⟩, -⟩ := hEdge
          rw [hAction] at hOk
          cases hOk

/-- The secrets of an action are collected, completely and finitely, exactly where no template
that the action reaches through its steps leads back to itself. -/
theorem collectsSecrets_iff (manifests : Manifests Expr Field Secret) (lock : RegistryLock)
    (action : String) :
    CollectsSecrets manifests lock action ↔
      ∀ other, Relation.ReflTransGen (StepEdge manifests lock) action other →
        ¬ Relation.TransGen (StepEdge manifests lock) other other := by
  rw [← collect_terminates_iff]
  constructor
  · exact CollectsSecrets.terminates
  · intro hTerminates
    constructor
    case terminates => exact hTerminates
    case own =>
      intro depth secrets hCollected
      obtain ⟨⟨called, hCalled⟩, hCovers⟩ := covered_of_collected hCollected
      exact ⟨called, hCalled, hCovers action .refl called hCalled⟩
    case covers =>
      intro depth secrets hCollected definition hAction Value Fault services env resolved nesting
        entry hEntry
      have hReached := executeTemplateAction_logsOnly services env nesting hAction resolved () entry
        hEntry
      obtain ⟨last, -, hEdge⟩ := Relation.TransGen.tail'_iff.mp hReached
      obtain ⟨called, hCalled⟩ := hEdge.2
      refine ⟨called, hCalled, ?_⟩
      exact (covered_of_collected hCollected).2 entry.action hReached.to_reflTransGen called hCalled
    case reuses => exact fun _ _ _ _ _ hWalk => secrets_of_prepares hWalk

end Collections

/-! ## Two templates with steps for each other -/

namespace SecretSample

def oneStep (ref action : String) : ManifestAction Unit Unit String where
  secrets := none
  implementation := .template
    { action := ref
      expects := []
      steps := [{ ref := ref, action := action, args := () }]
      returns := () }
    (some ["credentials"])

/-- Two templates, each with a step for the other. -/
def manifest : VersionManifest Unit Unit String :=
  [("demo.ping", oneStep "pong" "demo.pong"), ("demo.pong", oneStep "ping" "demo.ping")]

def manifests : Manifests Unit Unit String := fun origin version =>
  if origin = Registry.defaultOrigin ∧ version = "1.0.0" then some manifest else none

def registries : Registries where
  platform :=
    [{ origin := Registry.defaultOrigin
       versions := [("1.0.0", manifest.forLock)]
       current := some ("1.0.0", manifest.forLock)
       nodup := by simp
       current_mem := by simp }]
  organization := []
  customRegistry := false
  platform_nodup := by decide
  organization_nodup := List.nodup_nil

def lock : RegistryLock where
  origins := [(Registry.defaultOrigin, "1.0.0")]
  actions := [("demo.ping", Registry.defaultOrigin), ("demo.pong", Registry.defaultOrigin)]
  originFingerprints := [(Registry.defaultOrigin, "")]

end SecretSample

/-- The resolution accepts two templates with steps for each other, and the collection of their
secrets does not end. -/
theorem mutual_templates_not_collected :
    SecretSample.registries.resolveLockWithBindings (fun _ => "") ["demo.ping"] =
        some (.ok SecretSample.lock) ∧
      ¬ CollectsSecrets SecretSample.manifests SecretSample.lock "demo.ping" := by
  have hPing : StepEdge SecretSample.manifests SecretSample.lock "demo.ping" "demo.pong" :=
    ⟨⟨_, rfl, List.mem_singleton_self _⟩, _, rfl⟩
  have hPong : StepEdge SecretSample.manifests SecretSample.lock "demo.pong" "demo.ping" :=
    ⟨⟨_, rfl, List.mem_singleton_self _⟩, _, rfl⟩
  refine ⟨by decide, fun hCollects => ?_⟩
  exact collect_terminates_iff.mp hCollects.terminates "demo.ping" .refl (.tail (.single hPing) hPong)

end Templates
end Tracecat
