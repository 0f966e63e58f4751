import Mathlib.Algebra.GroupWithZero.Nat
import Mathlib.Data.List.Dedup
import Mathlib.Data.List.Sort
import Mathlib.Data.String.Basic
import Tracecat.Lib.Assoc

/-!
# Registry locks

`RegistryLockService.resolve_lock_with_bindings` (`registry/lock/service.py`)
binds the actions of a workflow, and the step actions of its templates, to
registry origins and versions.  The executor
(`executor/registry_resolver.py`) reads the manifest of an origin and version.
-/

namespace Tracecat
namespace Registry

/-! ## Manifests and repositories -/

/-- `ActionStep`, without its arguments. -/
structure ActionStep where
  ref : String
  action : String
  deriving DecidableEq, Repr

/-- `RegistryActionImpl`. -/
inductive Implementation
  | udf (module name : String)
  | template (steps : List ActionStep)
  deriving DecidableEq, Repr

/-- `RegistryVersionManifest.actions`. -/
abbrev Manifest : Type := List (String × Implementation)

/-- A registry repository with its versions.  The current version is one of
them, and no two have the same version string. -/
structure Repository where
  origin : String
  versions : List (String × Manifest)
  current : Option (String × Manifest)
  nodup : (versions.map Prod.fst).Nodup
  current_mem : ∀ version ∈ current, version ∈ versions

/-- The repositories of the platform and of the organization, each with distinct
origins, and the custom registry entitlement. -/
structure Registries where
  platform : List Repository
  organization : List Repository
  customRegistry : Bool
  platform_nodup : (platform.map Repository.origin).Nodup
  organization_nodup : (organization.map Repository.origin).Nodup

/-- `DEFAULT_REGISTRY_ORIGIN`. -/
def defaultOrigin : String := "tracecat_registry"

/-- `PlatformAction.interface_actions`. -/
def interfaceActions : List String :=
  ["core.workflow.execute", "core.transform.scatter", "core.transform.gather", "core.loop.start",
    "core.loop.end", "ai.agent", "ai.preset_agent", "ai.action", "core.script.run_python"]

/-- `PlatformAction.is_template_step_supported`. -/
def isTemplateStepSupported (action : String) : Bool :=
  !interfaceActions.contains action || action = "core.script.run_python"

/-- A row of the lock queries: origin, version and manifest. -/
structure VersionRow where
  origin : String
  version : String
  manifest : Manifest

def Repository.row? (repository : Repository) : Option VersionRow :=
  repository.current.map fun (version, manifest) => ⟨repository.origin, version, manifest⟩

namespace Registries

variable (registries : Registries)

/-- `platform_rows`. -/
def platformRows : List VersionRow :=
  registries.platform.filterMap Repository.row?

/-- `org_rows`. -/
def orgRows : List VersionRow :=
  registries.organization.filterMap Repository.row?

/-- `rows`: the platform first, and the organization when it is entitled. -/
def rows : List VersionRow :=
  registries.platformRows ++ if registries.customRegistry then registries.orgRows else []

/-- `builtin_version`. -/
def builtinVersion : Option String :=
  (registries.platformRows.find? fun row => row.origin = defaultOrigin).map VersionRow.version

/-- `origins`, before the resolution. -/
def origins : List (String × String) :=
  Assoc.ofPairs (registries.rows.map fun row => (row.origin, row.version))

/-- `origin_manifests`. -/
def originManifests : List (String × Manifest) :=
  Assoc.ofPairs (registries.rows.map fun row => (row.origin, row.manifest))

/-- `excluded_custom_origin_manifests`. -/
def excludedCustomOriginManifests : List (String × Manifest) :=
  if registries.customRegistry then []
  else Assoc.ofPairs (registries.orgRows.map fun row => (row.origin, row.manifest))

end Registries

/-! ## The lock -/

/-- `RegistryLock`. -/
structure RegistryLock where
  origins : List (String × String)
  actions : List (String × String)
  originFingerprints : List (String × String)
  deriving DecidableEq, Repr

/-- What `resolve_lock_with_bindings` raises. -/
inductive LockError
  | builtinRegistryHasNoSelection
  | entitlementRequired (unavailableAction : String)
  | notFound (action : String) (available : List String)
  | ambiguous (action : String) (found : List String)
  | platformStep (template stepRef stepAction : String)
  deriving DecidableEq, Repr

/-- The message of an error of `resolve_lock_with_bindings`; `repr` is Python's of
a list of texts. -/
def LockError.message (repr : List String → String) : LockError → String
  | builtinRegistryHasNoSelection =>
      "Builtin registry sync is still in progress. Please retry shortly."
  | entitlementRequired unavailableAction =>
      "Feature 'custom_registry' requires an upgraded plan.\n\n" ++
        s!"Unavailable actions on your current plan:\n- {unavailableAction}"
  | notFound action available =>
      s!"Action '{action}' not found in any registry. Available registries: " ++ repr available
  | ambiguous action found =>
      s!"Ambiguous action '{action}' found in multiple registries: " ++ repr found ++
        ". Please specify the registry explicitly."
  | platformStep template stepRef stepAction =>
      s!"Template action '{template}' contains step '{stepRef}' using platform action '{stepAction}'. Platform actions cannot be used inside templates - use them directly in workflows instead."

namespace Registries

variable (registries : Registries)

/-! ## The resolution -/

/-- `matching_origins`. -/
def matchingOrigins (action : String) : List String :=
  (registries.originManifests.filter fun entry => (entry.2.lookup action).isSome).map Prod.fst

/-- `impl.template_action.definition.steps` of an action, as its origin has it. -/
def templateSteps (origin action : String) : List ActionStep :=
  match (registries.originManifests.lookup origin).bind (·.lookup action) with
  | some (.template steps) => steps
  | _ => []

/-- The work-list; `none` when the fuel runs out. -/
def resolveActions : Nat → List String → List (String × String) →
    Option (Except LockError (List (String × String)))
  | _, [], actions => some (.ok actions)
  | 0, _ :: _, _ => none
  | fuel + 1, action :: queue, actions =>
      if (actions.lookup action).isSome then resolveActions fuel queue actions
      else
        match registries.matchingOrigins action with
        | [] =>
            if registries.excludedCustomOriginManifests.any
                fun entry => (entry.2.lookup action).isSome then
              some (.error (.entitlementRequired action))
            else some (.error (.notFound action (registries.origins.map Prod.fst)))
        | [origin] =>
            let actions := Assoc.set action origin actions
            let steps := registries.templateSteps origin action
            match steps.find? fun step => !isTemplateStepSupported step.action with
            | some step => some (.error (.platformStep action step.ref step.action))
            | none =>
                let fresh := steps.filter fun step => (actions.lookup step.action).isNone
                resolveActions fuel (queue ++ fresh.map ActionStep.action) actions
        | first :: second :: others =>
            some (.error (.ambiguous action (first :: second :: others)))

/-- The actions that the work-list takes up after an action. -/
def stepActions (action : String) : List String :=
  match registries.matchingOrigins action with
  | [origin] => (registries.templateSteps origin action).map ActionStep.action
  | _ => []

def selectedActions : List String :=
  (registries.originManifests.flatMap fun entry => entry.2.map Prod.fst).dedup

/-- A turn for each step of an action that can be bound. -/
def stepCount : Nat :=
  (registries.selectedActions.map fun action => (registries.stepActions action).length).sum

/-- `deque(sorted(action_names))`. -/
def sortedNames (actionNames : List String) : List String :=
  actionNames.dedup.insertionSort (· ≤ ·)

def lockOf (fingerprint : Manifest → String) (builtinVersion : String)
    (actions : List (String × String)) : RegistryLock :=
  let used := actions.map Prod.snd
  let origins := Assoc.set defaultOrigin builtinVersion
    (registries.origins.filter fun entry => used.contains entry.1)
  let fingerprints := registries.originManifests.map fun entry => (entry.1, fingerprint entry.2)
  let builtinFingerprint := (registries.rows.find? fun row => row.origin = defaultOrigin).map
    fun row => fingerprint row.manifest
  let fingerprints :=
    match builtinFingerprint with
    | some value => Assoc.set defaultOrigin value fingerprints
    | none => fingerprints
  { origins := origins
    actions := actions
    originFingerprints := fingerprints.filter fun entry => (origins.lookup entry.1).isSome }

/-- `resolve_lock_with_bindings`. -/
def resolveLockWithBindings (fingerprint : Manifest → String) (actionNames : List String) :
    Option (Except LockError RegistryLock) :=
  match registries.builtinVersion with
  | none => some (.error .builtinRegistryHasNoSelection)
  | some builtinVersion =>
      let queue := sortedNames actionNames
      (registries.resolveActions (queue.length + registries.stepCount) queue []).map
        fun result => result.map (registries.lockOf fingerprint builtinVersion)

/-! ## The executor -/

/-- `_fetch_manifest`; `none` is the error for a version that is not found. -/
def fetchManifest (origin version : String) : Option Manifest :=
  let repositories :=
    if origin = defaultOrigin then registries.platform else registries.organization
  (repositories.find? fun repository => repository.origin = origin).bind
    fun repository => repository.versions.lookup version

/-- `resolve_action`: the implementation that runs for an action of a lock. -/
def resolveAction (lock : RegistryLock) (action : String) : Option Implementation := do
  let origin ← lock.actions.lookup action
  let version ← lock.origins.lookup origin
  let manifest ← registries.fetchManifest origin version
  manifest.lookup action

end Registries

end Registry
end Tracecat
