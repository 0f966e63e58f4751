import Tracecat.Registry.LockClosure

/-!
# Locks and the manifests that the executor loads

A lock is closed and unambiguous whatever the registries are.  The manifest that
the executor loads for a bound action is the one that bound it exactly when every
origin in use is mirrored: the builtin registry is always read from the platform,
and every other registry from the organization.
-/

namespace Tracecat
namespace Registry
namespace Registries

/-- The organization has an entitled registry of the origin, which is selected
over the platform's. -/
def Overridden (registries : Registries) (origin : String) : Prop :=
  registries.customRegistry = true ∧ ∃ own ∈ registries.orgRows, own.origin = origin

/-- The executor reads an origin where the lock took it from: an organization's
own builtin registry has the manifest of the platform's, and a platform registry
that is not the builtin one, when it is selected, is also among the repositories
of the organization, with the same manifest under the same version. -/
structure Mirrored (registries : Registries) (origin : String) : Prop where
  builtin : origin = defaultOrigin → registries.customRegistry = true →
    ∀ own ∈ registries.orgRows, own.origin = origin →
      ∀ row ∈ registries.platformRows, row.origin = origin → own.manifest = row.manifest
  platform : origin ≠ defaultOrigin → ¬registries.Overridden origin →
    ∀ row ∈ registries.platformRows, row.origin = origin →
      ∃ repository ∈ registries.organization,
        repository.origin = origin ∧ (row.version, row.manifest) ∈ repository.versions

/-- The manifest that the executor loads for an origin of a lock is the selected
one. -/
def Loads (registries : Registries) (lock : RegistryLock) (origin : String)
    (manifest : Manifest) : Prop :=
  registries.originManifests.lookup origin = some manifest ∧
    ∃ version, lock.origins.lookup origin = some version ∧
      registries.fetchManifest origin version = some manifest

/-- A lock has the requested actions and the steps of the templates that it
binds, each under the only selected origin that has it, with a version. -/
structure LockClosed (registries : Registries) (actionNames : List String)
    (lock : RegistryLock) : Prop where
  requested : ∀ name ∈ actionNames, (lock.actions.lookup name).isSome
  closed : ∀ action origin, lock.actions.lookup action = some origin →
    ∀ step ∈ registries.templateSteps origin action, (lock.actions.lookup step.action).isSome
  only : ∀ action origin, lock.actions.lookup action = some origin →
    registries.matchingOrigins action = [origin]
  pinned : ∀ action origin, lock.actions.lookup action = some origin →
    (lock.origins.lookup origin).isSome

/-- A closed lock, and the executor loads the manifests that bound its actions. -/
structure LockContract (registries : Registries) (actionNames : List String)
    (lock : RegistryLock) : Prop extends LockClosed registries actionNames lock where
  loaded : ∀ action origin, lock.actions.lookup action = some origin →
    ∃ manifest, registries.Loads lock origin manifest ∧ (manifest.lookup action).isSome

/-! ## Rows -/

theorem nodup_rows {repositories : List Repository}
    (hNodup : (repositories.map Repository.origin).Nodup) :
    ((repositories.filterMap Repository.row?).map VersionRow.origin).Nodup := by
  refine hNodup.sublist ?_
  induction repositories with
  | nil => exact List.Sublist.slnil
  | cons repository repositories ih =>
      rw [List.filterMap_cons]
      have hTail := ih (List.nodup_cons.mp hNodup).2
      cases hCurrent : repository.current with
      | none =>
          have hRow : repository.row? = none := by simp [Repository.row?, hCurrent]
          simpa [hRow] using hTail.cons repository.origin
      | some version =>
          have hRow : repository.row? = some ⟨repository.origin, version.1, version.2⟩ := by
            simp [Repository.row?, hCurrent]
          simpa [hRow] using hTail.cons_cons repository.origin

theorem lookup_row {repositories : List Repository}
    (hNodup : (repositories.map Repository.origin).Nodup) {row : VersionRow}
    (hRow : row ∈ repositories.filterMap Repository.row?) :
    (repositories.find? fun repository => repository.origin = row.origin).bind
      (fun repository => repository.versions.lookup row.version) = some row.manifest := by
  obtain ⟨repository, hRepository, hGives⟩ := List.mem_filterMap.mp hRow
  obtain ⟨version, hCurrent, rfl⟩ := Option.map_eq_some_iff.mp hGives
  have hFind := (Assoc.find?_key_eq_some hNodup).mpr ⟨hRepository, rfl⟩
  dsimp only
  rw [hFind, Option.bind_some, Assoc.lookup_eq_some_iff repository.nodup]
  exact repository.current_mem version hCurrent

variable {registries : Registries}

/-! ## What is selected -/

theorem find?_rows (origin : String) :
    (registries.rows.reverse.find? fun row => row.origin = origin) =
      ((if registries.customRegistry then registries.orgRows else []).reverse.find?
          fun row => row.origin = origin).or
        (registries.platformRows.reverse.find? fun row => row.origin = origin) := by
  unfold rows
  rw [List.reverse_append, List.find?_append]

theorem find?_platformRows {origin : String} {row : VersionRow} :
    (registries.platformRows.reverse.find? fun other => other.origin = origin) = some row ↔
      row ∈ registries.platformRows ∧ row.origin = origin := by
  rw [Assoc.find?_key_eq_some, List.mem_reverse]
  rw [List.map_reverse, List.nodup_reverse]
  exact nodup_rows registries.platform_nodup

theorem find?_orgRows {origin : String} {row : VersionRow} :
    (registries.orgRows.reverse.find? fun other => other.origin = origin) = some row ↔
      row ∈ registries.orgRows ∧ row.origin = origin := by
  rw [Assoc.find?_key_eq_some, List.mem_reverse]
  rw [List.map_reverse, List.nodup_reverse]
  exact nodup_rows registries.organization_nodup

theorem selected_iff {origin : String} {row : VersionRow} :
    (registries.rows.reverse.find? fun other => other.origin = origin) = some row ↔
      row.origin = origin ∧
        (registries.customRegistry = true ∧ row ∈ registries.orgRows ∨
          ¬registries.Overridden origin ∧ row ∈ registries.platformRows) := by
  rw [find?_rows]
  by_cases hOver : registries.Overridden origin
  · obtain ⟨own, hOwn, hOrigin⟩ := hOver.2
    rw [if_pos hOver.1, find?_orgRows.mpr ⟨hOwn, hOrigin⟩, Option.some_or,
      ← find?_orgRows.mpr ⟨hOwn, hOrigin⟩, find?_orgRows]
    simp only [hOver, hOver.1, not_true_eq_false, true_and, false_and, or_false]
    tauto
  · have hNone : ((if registries.customRegistry then registries.orgRows else []).reverse.find?
        fun other => other.origin = origin) = none := by
      rw [List.find?_eq_none]
      intro other hOther hOrigin
      rw [List.mem_reverse] at hOther
      split at hOther
      · rename_i hEntitled
        exact hOver ⟨hEntitled, other, hOther, by simpa using hOrigin⟩
      · cases hOther
    rw [hNone, Option.none_or, find?_platformRows]
    constructor
    · rintro ⟨hRow, hOrigin⟩
      exact ⟨hOrigin, Or.inr ⟨hOver, hRow⟩⟩
    · rintro ⟨hOrigin, hOwn | hPlatform⟩
      · exact absurd ⟨hOwn.1, row, hOwn.2, hOrigin⟩ hOver
      · exact ⟨hPlatform.2, hOrigin⟩

theorem lookup_originManifests (origin : String) :
    registries.originManifests.lookup origin =
      (registries.rows.reverse.find? fun row => row.origin = origin).map VersionRow.manifest :=
  Assoc.lookup_ofPairs_map VersionRow.origin VersionRow.manifest registries.rows origin

theorem lookup_origins (origin : String) :
    registries.origins.lookup origin =
      (registries.rows.reverse.find? fun row => row.origin = origin).map VersionRow.version :=
  Assoc.lookup_ofPairs_map VersionRow.origin VersionRow.version registries.rows origin

theorem builtinVersion_eq_some {version : String} :
    registries.builtinVersion = some version ↔
      ∃ row ∈ registries.platformRows, row.origin = defaultOrigin ∧ row.version = version := by
  unfold builtinVersion
  rw [Option.map_eq_some_iff]
  constructor
  · rintro ⟨row, hFind, hVersion⟩
    have hRow := (Assoc.find?_key_eq_some (nodup_rows registries.platform_nodup)).mp hFind
    exact ⟨row, hRow.1, hRow.2, hVersion⟩
  · rintro ⟨row, hRow, hOrigin, hVersion⟩
    exact ⟨row, (Assoc.find?_key_eq_some (nodup_rows registries.platform_nodup)).mpr ⟨hRow, hOrigin⟩,
      hVersion⟩

/-! ## The versions of a lock -/

variable {fingerprint : Manifest → String} {builtinVersion : String}
  {actions : List (String × String)}

/-- The builtin registry is pinned to the platform's version. -/
theorem lookup_lockOf_default :
    (registries.lockOf fingerprint builtinVersion actions).origins.lookup defaultOrigin =
      some builtinVersion := by
  unfold lockOf
  rw [Assoc.lookup_set, if_pos rfl]

theorem lookup_lockOf_used {action origin : String} (hOther : origin ≠ defaultOrigin)
    (hUsed : actions.lookup action = some origin) :
    (registries.lockOf fingerprint builtinVersion actions).origins.lookup origin =
      registries.origins.lookup origin := by
  have hContains : (actions.map Prod.snd).contains origin = true := by
    rw [List.contains_iff_mem]
    obtain ⟨before, after, rfl, -⟩ := List.lookup_eq_some_iff.mp hUsed
    simp
  unfold lockOf
  rw [Assoc.lookup_set, if_neg hOther, Assoc.lookup_filter_key, if_pos hContains]

theorem loads_iff {action origin : String} {row : VersionRow}
    (hBuiltin : registries.builtinVersion = some builtinVersion)
    (hUsed : actions.lookup action = some origin)
    (hRow : (registries.rows.reverse.find? fun other => other.origin = origin) = some row) :
    registries.Loads (registries.lockOf fingerprint builtinVersion actions) origin row.manifest ↔
      registries.Mirrored origin := by
  have hSelected : registries.originManifests.lookup origin = some row.manifest := by
    rw [lookup_originManifests, hRow, Option.map_some]
  obtain ⟨hOrigin, hFrom⟩ := selected_iff.mp hRow
  unfold Loads
  rw [and_iff_right hSelected]
  by_cases hDefault : origin = defaultOrigin
  · -- the builtin registry is pinned to, and read from, the platform
    obtain ⟨shipped, hShipped, hShippedOrigin, rfl⟩ := builtinVersion_eq_some.mp hBuiltin
    have hFetch : registries.fetchManifest origin shipped.version = some shipped.manifest := by
      have hLookup := lookup_row registries.platform_nodup hShipped
      rw [hShippedOrigin] at hLookup
      unfold fetchManifest
      rw [if_pos hDefault, hDefault]
      exact hLookup
    have hLoads : (∃ version, (registries.lockOf fingerprint shipped.version actions).origins.lookup
          origin = some version ∧ registries.fetchManifest origin version = some row.manifest) ↔
        shipped.manifest = row.manifest := by
      rw [hDefault, lookup_lockOf_default, ← hDefault]
      constructor
      · rintro ⟨version, hVersion, hLoaded⟩
        rw [← Option.some.inj hVersion, hFetch] at hLoaded
        exact Option.some.inj hLoaded
      · intro hSame
        exact ⟨shipped.version, rfl, hSame ▸ hFetch⟩
    rw [hLoads]
    constructor
    · intro hSame
      refine ⟨fun _ hEntitled own hOwn hOwnOrigin other hOther hOtherOrigin => ?_,
        fun hNot => absurd hDefault hNot⟩
      have hOwnSelected := selected_iff.mpr ⟨hOwnOrigin, Or.inl ⟨hEntitled, hOwn⟩⟩
      obtain rfl : own = row := Option.some.inj (hOwnSelected.symm.trans hRow)
      have hFound := find?_platformRows.mpr ⟨hOther, hOtherOrigin⟩
      rw [find?_platformRows.mpr ⟨hShipped, hShippedOrigin.trans hDefault.symm⟩] at hFound
      rw [← Option.some.inj hFound, hSame]
    · intro hMirrored
      rcases hFrom with ⟨hEntitled, hOwn⟩ | ⟨-, hPlatform⟩
      · exact (hMirrored.builtin hDefault hEntitled row hOwn hOrigin shipped hShipped
          (hShippedOrigin.trans hDefault.symm)).symm
      · have hFound := find?_platformRows.mpr ⟨hPlatform, hOrigin⟩
        rw [find?_platformRows.mpr ⟨hShipped, hShippedOrigin.trans hDefault.symm⟩] at hFound
        rw [Option.some.inj hFound]
  · -- any other registry keeps its version, and is read from the organization
    have hLoads : (∃ version, (registries.lockOf fingerprint builtinVersion actions).origins.lookup
          origin = some version ∧ registries.fetchManifest origin version = some row.manifest) ↔
        (registries.organization.find? fun repository => repository.origin = origin).bind
          (fun repository => repository.versions.lookup row.version) = some row.manifest := by
      rw [lookup_lockOf_used hDefault hUsed, lookup_origins, hRow, Option.map_some]
      unfold fetchManifest
      simp only [if_neg hDefault, Option.some.injEq, exists_eq_left']
    rw [hLoads]
    constructor
    · intro hFound
      refine ⟨fun hBuiltin => absurd hBuiltin hDefault, fun _ hOver other hOther hOtherOrigin => ?_⟩
      have hOtherSelected := selected_iff.mpr ⟨hOtherOrigin, Or.inr ⟨hOver, hOther⟩⟩
      obtain rfl : other = row := Option.some.inj (hOtherSelected.symm.trans hRow)
      obtain ⟨repository, hRepository, hLookup⟩ := Option.bind_eq_some_iff.mp hFound
      obtain ⟨hMem, hSame⟩ := (Assoc.find?_key_eq_some registries.organization_nodup).mp hRepository
      exact ⟨repository, hMem, hSame, (Assoc.lookup_eq_some_iff repository.nodup).mp hLookup⟩
    · intro hMirrored
      rcases hFrom with ⟨-, hOwn⟩ | ⟨hOver, hPlatform⟩
      · have hLookup := lookup_row registries.organization_nodup hOwn
        rw [hOrigin] at hLookup
        exact hLookup
      · obtain ⟨repository, hMem, hSame, hVersion⟩ :=
          hMirrored.platform hDefault hOver row hPlatform hOrigin
        rw [(Assoc.find?_key_eq_some registries.organization_nodup).mpr ⟨hMem, hSame⟩, Option.bind_some]
        exact (Assoc.lookup_eq_some_iff repository.nodup).mpr hVersion

/-! ## The lock of a workflow -/

theorem mem_sortedNames {names : List String} {name : String} :
    name ∈ sortedNames names ↔ name ∈ names := by
  unfold sortedNames
  rw [(List.perm_insertionSort _ _).mem_iff, List.mem_dedup]

section

variable {names : List String} {fuel : Nat}
  (hRun : registries.resolveActions fuel (sortedNames names) [] = some (.ok actions))
include hRun

theorem isSome_resolved {action : String} :
    (actions.lookup action).isSome ↔ Search.Reaches registries.stepActions names action := by
  have hBound := (Bound.start (sortedNames names)).run hRun
  rw [Assoc.lookup_isSome_iff, hBound.sound.mem_iff]
  exact exists_congr fun root => and_congr_left fun _ => mem_sortedNames

theorem selected_of_resolved {action origin : String}
    (hUsed : actions.lookup action = some origin) :
    ∃ row, (registries.rows.reverse.find? fun other => other.origin = origin) = some row ∧
      (row.manifest.lookup action).isSome := by
  have hBound := (Bound.start (sortedNames names)).run hRun
  have hMatching : origin ∈ registries.matchingOrigins action := by
    rw [hBound.only action origin hUsed]
    exact List.mem_singleton_self origin
  obtain ⟨manifest, hManifest, hAction⟩ := mem_matchingOrigins.mp hMatching
  rw [lookup_originManifests] at hManifest
  obtain ⟨row, hRow, rfl⟩ := Option.map_eq_some_iff.mp hManifest
  exact ⟨row, hRow, hAction⟩

theorem lockOf_closed :
    LockClosed registries names (registries.lockOf fingerprint builtinVersion actions) := by
  have hBound := (Bound.start (sortedNames names)).run hRun
  constructor
  case requested =>
    intro name hName
    exact (isSome_resolved hRun).mpr (.root hName)
  case closed =>
    intro action origin hUsed step hStep
    have hReached := (isSome_resolved hRun).mp (Option.isSome_iff_exists.mpr ⟨origin, hUsed⟩)
    apply (isSome_resolved hRun).mpr
    apply hReached.next
    rw [stepActions_of_matching (hBound.only action origin hUsed)]
    exact List.mem_map_of_mem hStep
  case only => exact hBound.only
  case pinned =>
    intro action origin hUsed
    change actions.lookup action = some origin at hUsed
    by_cases hDefault : origin = defaultOrigin
    · rw [hDefault, lookup_lockOf_default]
      rfl
    · obtain ⟨row, hRow, -⟩ := selected_of_resolved hRun hUsed
      rw [lookup_lockOf_used hDefault hUsed, lookup_origins, hRow]
      rfl

end

/-- The resolution terminates.  A lock that it returns has the requested actions
and the steps of every bound template, each under the only selected origin, with
a version; and the executor loads the manifest that bound an action, for all of
them, exactly when the origins of the actions reached are mirrored. -/
theorem resolveLockWithBindings_contract (registries : Registries)
    (fingerprint : Manifest → String) (actionNames : List String) :
    (registries.resolveLockWithBindings fingerprint actionNames).isSome ∧
      ∀ lock, registries.resolveLockWithBindings fingerprint actionNames = some (.ok lock) →
        LockClosed registries actionNames lock ∧
        (LockContract registries actionNames lock ↔
          ∀ action, Search.Reaches registries.stepActions actionNames action →
            ∀ origin ∈ registries.matchingOrigins action, registries.Mirrored origin) := by
  refine ⟨resolveLockWithBindings_isSome fingerprint actionNames, fun lock hLock => ?_⟩
  unfold resolveLockWithBindings at hLock
  cases hBuiltin : registries.builtinVersion with
  | none =>
      rw [hBuiltin] at hLock
      cases hLock
  | some builtinVersion =>
      rw [hBuiltin] at hLock
      obtain ⟨result, hRun, hOk⟩ := Option.map_eq_some_iff.mp hLock
      cases result with
      | error raised => cases hOk
      | ok actions =>
          obtain rfl := Except.ok.inj hOk
          have hClosed : LockClosed registries actionNames
              (registries.lockOf fingerprint builtinVersion actions) := lockOf_closed hRun
          refine ⟨hClosed, ?_⟩
          constructor
          · intro hContract action hReached origin hOrigin
            obtain ⟨bound, hUsed⟩ :=
              Option.isSome_iff_exists.mp ((isSome_resolved hRun).mpr hReached)
            rw [hClosed.only action bound hUsed, List.mem_singleton] at hOrigin
            obtain ⟨row, hRow, -⟩ := selected_of_resolved hRun hUsed
            obtain ⟨manifest, hLoads, -⟩ := hContract.loaded action bound hUsed
            have hManifest := hLoads.1
            rw [lookup_originManifests, hRow, Option.map_some, Option.some.injEq] at hManifest
            rw [hOrigin]
            exact (loads_iff hBuiltin hUsed hRow).mp (hManifest ▸ hLoads)
          · intro hMirrored
            refine ⟨hClosed, fun action origin hUsed => ?_⟩
            obtain ⟨row, hRow, hAction⟩ := selected_of_resolved hRun hUsed
            have hReached :=
              (isSome_resolved hRun).mp (Option.isSome_iff_exists.mpr ⟨origin, hUsed⟩)
            have hMatching : origin ∈ registries.matchingOrigins action := by
              rw [hClosed.only action origin hUsed]
              exact List.mem_singleton_self origin
            exact ⟨row.manifest,
              (loads_iff hBuiltin hUsed hRow).mpr (hMirrored action hReached origin hMatching),
              hAction⟩

/-- A platform with the builtin registry and the `local` one. -/
def twoPlatformRegistries : Registries where
  platform :=
    [{ origin := defaultOrigin
       versions := [("1.0.0", [("core.http_request", .udf "tracecat_registry.core.http" "http")])]
       current := some ("1.0.0", [("core.http_request", .udf "tracecat_registry.core.http" "http")])
       nodup := by simp
       current_mem := by simp },
     { origin := "local"
       versions := [("0.1.0", [("demo.run", .udf "demo" "run")])]
       current := some ("0.1.0", [("demo.run", .udf "demo" "run")])
       nodup := by simp
       current_mem := by simp }]
  organization := []
  customRegistry := false
  platform_nodup := by decide
  organization_nodup := List.nodup_nil

/-- The lock of an action of the platform's `local` registry names a version that
the executor looks for among the repositories of the organization. -/
theorem exists_lock_not_loaded :
    ∃ (registries : Registries) (actionNames : List String) (lock : RegistryLock),
      registries.resolveLockWithBindings (fun _ => "") actionNames = some (.ok lock) ∧
        ¬LockContract registries actionNames lock := by
  refine ⟨twoPlatformRegistries, ["demo.run"],
    { origins := [("local", "0.1.0"), (defaultOrigin, "1.0.0")]
      actions := [("demo.run", "local")]
      originFingerprints := [(defaultOrigin, ""), ("local", "")] }, by decide, ?_⟩
  intro hContract
  obtain ⟨manifest, ⟨-, version, -, hFetch⟩, -⟩ := hContract.loaded "demo.run" "local" rfl
  cases hFetch

end Registries
end Registry
end Tracecat
