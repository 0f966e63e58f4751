import Tracecat.Cases.AnchorRows

/-!
# Case durations along both paths

The queries and the scan of the events compute the same durations, whatever the
batch mixes.  The caches of the query path are sound because an anchor reads
nothing that its cache key leaves out.
-/

namespace Tracecat

/-! ## Cache keys -/

section CacheKey

theorem CaseDurationEventFilters.mem_frozenItems (filters : CaseDurationEventFilters)
    (item : String × FrozenFilter) :
    item ∈ filters.frozenItems ↔
      (filters.newValues ≠ [] ∧ item = ("new_values", .tuple filters.newValues)) ∨
      (filters.tagRefs ≠ [] ∧ item = ("tag_refs", .tuple filters.tagRefs)) ∨
      (filters.fieldIds ≠ [] ∧ item = ("field_ids", .tuple filters.fieldIds)) ∨
      (∃ definitionId, filters.dropdownDefinitionId = some definitionId ∧
        item = ("dropdown_definition_id", .text definitionId)) ∨
      (filters.dropdownOptionIds ≠ [] ∧
        item = ("dropdown_option_ids", .tuple filters.dropdownOptionIds)) := by
  have hTuple (key : String) (values : List String) :
      item ∈ (if values.isEmpty then [] else [(key, FrozenFilter.tuple values)]) ↔
        values ≠ [] ∧ item = (key, .tuple values) := by
    cases values <;> simp
  unfold frozenItems
  rw [List.mem_insertionSort]
  simp only [List.mem_append, hTuple, or_assoc]
  cases filters.dropdownDefinitionId <;> simp

theorem eq_of_tuple_iff {texts others : List String}
    (hIff : ∀ values, texts ≠ [] ∧ values = texts ↔ others ≠ [] ∧ values = others) :
    texts = others := by
  by_cases hEmpty : texts = []
  · by_contra hNe
    have hOthers : others ≠ [] := fun hEq => hNe (hEmpty.trans hEq.symm)
    exact ((hIff others).mpr ⟨hOthers, rfl⟩).1 hEmpty
  · exact ((hIff texts).mp ⟨hEmpty, rfl⟩).2

theorem CaseDurationEventFilters.frozenItems_injective :
    Function.Injective CaseDurationEventFilters.frozenItems := by
  intro filters others hItems
  have hMem (item : String × FrozenFilter) := by
    have hIff : item ∈ filters.frozenItems ↔ item ∈ others.frozenItems := by rw [hItems]
    rw [mem_frozenItems, mem_frozenItems] at hIff
    exact hIff
  have hNewValues : filters.newValues = others.newValues :=
    eq_of_tuple_iff fun values => by simpa using hMem ("new_values", .tuple values)
  have hTagRefs : filters.tagRefs = others.tagRefs :=
    eq_of_tuple_iff fun values => by simpa using hMem ("tag_refs", .tuple values)
  have hFieldIds : filters.fieldIds = others.fieldIds :=
    eq_of_tuple_iff fun values => by simpa using hMem ("field_ids", .tuple values)
  have hOptionIds : filters.dropdownOptionIds = others.dropdownOptionIds :=
    eq_of_tuple_iff fun values => by simpa using hMem ("dropdown_option_ids", .tuple values)
  have hDefinitionId : filters.dropdownDefinitionId = others.dropdownDefinitionId := by
    apply Option.ext
    intro definitionId
    simpa using hMem ("dropdown_definition_id", .text definitionId)
  cases filters
  cases others
  simp_all

/-- An anchor reads nothing in a query that its cache key leaves out. -/
theorem CaseEventStore.findMatchingEventsDb_congr {Id : Type} [LinearOrder Id]
    (store : CaseEventStore Id) {anchor other : CaseDurationEventAnchor}
    (hKey : anchor.cacheKey = other.cacheKey) (caseIds : List Id)
    (earliestAfterByCase : Option (Dict Id (Option Int))) :
    store.findMatchingEventsDb caseIds anchor earliestAfterByCase =
      store.findMatchingEventsDb caseIds other earliestAfterByCase := by
  unfold CaseDurationEventAnchor.cacheKey at hKey
  rw [AnchorCacheKey.mk.injEq] at hKey
  obtain ⟨hType, hSelection, hItems, hUnsupported⟩ := hKey
  have hFilters := CaseDurationEventFilters.frozenItems_injective hItems
  have hConditions : store.anchorConditions caseIds anchor = store.anchorConditions caseIds other := by
    funext bounded row
    unfold anchorConditions CaseDurationEventAnchor.acceptsType
      CaseDurationEventAnchor.sqlFilterConditions
    rw [hType, hFilters, hUnsupported]
  have hOrder : (anchor.order : List (BoundedEvent Id) → List (BoundedEvent Id)) =
      other.order := by
    funext rows
    unfold CaseDurationEventAnchor.order
    rw [hSelection]
  unfold findMatchingEventsDb
  rw [hConditions, hOrder]

end CacheKey

/-! ## The query path -/

namespace CaseEventStore

variable {Id : Type} [LinearOrder Id] (store : CaseEventStore Id)

/-- The matches of a start anchor. -/
def startMatches (caseIds : List Id) (anchor : CaseDurationEventAnchor) :
    Dict Id (DurationEventMatch Id) :=
  store.findMatchingEventsDb caseIds anchor none

/-- The bounds that the matches of a start anchor put on the end anchor. -/
def startBounds (caseIds : List Id) (anchor : CaseDurationEventAnchor) : Dict Id (Option Int) :=
  caseIds.foldl (fun bounds caseId => bounds.insert caseId
    (((store.startMatches caseIds anchor).lookup caseId).map Prod.snd)) ∅

/-- The matches of an end anchor, after those of the start anchor. -/
def endMatches (caseIds : List Id) (endAnchor startAnchor : CaseDurationEventAnchor) :
    Dict Id (DurationEventMatch Id) :=
  store.findMatchingEventsDb caseIds endAnchor (some (store.startBounds caseIds startAnchor))

/-- The computation of a definition in a case, with no cache. -/
def fastComputation (caseIds : List Id) (caseId : Id)
    (definition : CaseDurationDefinitionRead Id) : CaseDurationComputation Id :=
  definition.computation ((store.startMatches caseIds definition.startAnchor).lookup caseId)
    ((store.endMatches caseIds definition.endAnchor definition.startAnchor).lookup caseId)

/-- Every entry of the caches is what the query of its key returns. -/
structure CachesSound (caseIds : List Id) (state : FastState Id) : Prop where
  start : ∀ anchor found, state.startMatchCache.lookup anchor.cacheKey = some found →
    found = store.startMatches caseIds anchor
  finish : ∀ endAnchor startAnchor found,
    state.endMatchCache.lookup (endAnchor.cacheKey, startAnchor.cacheKey) = some found →
      found = store.endMatches caseIds endAnchor startAnchor

omit [LinearOrder Id] in
theorem cached_snd {K V : Type} [DecidableEq K] {cache : Dict K V} {key : K}
    {compute : Unit → V} (hSound : ∀ found, cache.lookup key = some found → found = compute ()) :
    (cached cache key compute).2 = compute () := by
  unfold cached
  cases hLookup : cache.lookup key with
  | none => rfl
  | some found => exact hSound found hLookup

omit [LinearOrder Id] in
theorem lookup_cached_fst {K V : Type} [DecidableEq K] {cache : Dict K V} {key other : K}
    {compute : Unit → V} {found : V}
    (hFound : (cached cache key compute).1.lookup other = some found) :
    cache.lookup other = some found ∨ other = key ∧ found = compute () := by
  unfold cached at hFound
  cases hLookup : cache.lookup key with
  | some => exact Or.inl (by simpa [hLookup] using hFound)
  | none =>
      simp only [hLookup, Dict.lookup_insert_eq] at hFound
      by_cases hOther : other = key
      · rw [if_pos hOther, Option.some.injEq] at hFound
        exact Or.inr ⟨hOther, hFound.symm⟩
      · rw [if_neg hOther] at hFound
        exact Or.inl hFound

theorem startBounds_congr {anchor other : CaseDurationEventAnchor}
    (hKey : anchor.cacheKey = other.cacheKey) (caseIds : List Id) :
    store.startBounds caseIds anchor = store.startBounds caseIds other := by
  unfold startBounds startMatches
  rw [store.findMatchingEventsDb_congr hKey]

/-- One turn of the loop: the caches stay sound, and each case of the batch gets
the computation of the definition. -/
theorem fastStep_eq {caseIds : List Id} {state : FastState Id}
    (hSound : store.CachesSound caseIds state) (definition : CaseDurationDefinitionRead Id) :
    store.CachesSound caseIds (store.fastStep caseIds state definition) ∧
      (store.fastStep caseIds state definition).resultsByCase =
        caseIds.foldl (fun results caseId => results.insert caseId (results.getD caseId [] ++
          [store.fastComputation caseIds caseId definition])) state.resultsByCase := by
  have hStart : (cached state.startMatchCache definition.startAnchor.cacheKey fun _ =>
      store.findMatchingEventsDb caseIds definition.startAnchor none).2 =
        store.startMatches caseIds definition.startAnchor :=
    cached_snd fun found hFound => hSound.start definition.startAnchor found hFound
  have hEnd : (cached state.endMatchCache
      (definition.endAnchor.cacheKey, definition.startAnchor.cacheKey) fun _ =>
        store.findMatchingEventsDb caseIds definition.endAnchor
          (some (store.startBounds caseIds definition.startAnchor))).2 =
        store.endMatches caseIds definition.endAnchor definition.startAnchor :=
    cached_snd fun found hFound =>
      hSound.finish definition.endAnchor definition.startAnchor found hFound
  refine ⟨⟨?_, ?_⟩, ?_⟩
  · intro anchor found hFound
    change (cached state.startMatchCache definition.startAnchor.cacheKey fun _ =>
      store.findMatchingEventsDb caseIds definition.startAnchor none).1.lookup
        anchor.cacheKey = some found at hFound
    rcases lookup_cached_fst hFound with hOld | ⟨hKey, rfl⟩
    · exact hSound.start anchor found hOld
    · exact store.findMatchingEventsDb_congr hKey.symm caseIds none
  · intro endAnchor startAnchor found hFound
    unfold fastStep at hFound
    simp only [hStart] at hFound
    rcases lookup_cached_fst hFound with hOld | ⟨hKey, rfl⟩
    · exact hSound.finish endAnchor startAnchor found hOld
    · rw [Prod.mk.injEq] at hKey
      unfold endMatches
      rw [store.startBounds_congr hKey.2]
      exact store.findMatchingEventsDb_congr hKey.1.symm caseIds _
  · unfold fastStep
    simp only [hStart]
    simp only [startBounds] at hEnd
    rw [hEnd]
    rfl

theorem foldl_fastStep {caseIds : List Id} (hNodup : caseIds.Nodup)
    (definitions : List (CaseDurationDefinitionRead Id)) {state : FastState Id}
    (computed : Id → List (CaseDurationComputation Id))
    (hSound : store.CachesSound caseIds state)
    (hKeys : ∀ caseId, caseId ∉ caseIds → state.resultsByCase.lookup caseId = none)
    (hComputed : ∀ caseId ∈ caseIds, state.resultsByCase.lookup caseId = some (computed caseId))
    (caseId : Id) :
    (definitions.foldl (store.fastStep caseIds) state).resultsByCase.lookup caseId =
      if caseId ∈ caseIds then
        some (computed caseId ++ definitions.map (store.fastComputation caseIds caseId))
      else none := by
  induction definitions generalizing state computed with
  | nil =>
      by_cases hCase : caseId ∈ caseIds
      · simp [hCase, hComputed caseId hCase]
      · simp [hCase, hKeys caseId hCase]
  | cons definition definitions ih =>
      obtain ⟨hNext, hResults⟩ := store.fastStep_eq hSound definition
      have hLookup (other : Id) :
          (store.fastStep caseIds state definition).resultsByCase.lookup other =
            if other ∈ caseIds then
              some (state.resultsByCase.getD other [] ++
                [store.fastComputation caseIds other definition])
            else state.resultsByCase.lookup other := by
        rw [hResults]
        exact Dict.lookup_foldl_update (fun caseId entries =>
          entries.getD [] ++ [store.fastComputation caseIds caseId definition]) hNodup _ other
      rw [List.foldl_cons, ih (fun caseId =>
        computed caseId ++ [store.fastComputation caseIds caseId definition]) hNext]
      · simp
      · intro other hOther
        rw [hLookup, if_neg hOther, hKeys other hOther]
      · intro other hOther
        rw [hLookup, if_pos hOther]
        unfold Dict.getD
        rw [hComputed other hOther, Option.getD_some]

theorem lookup_computeDurationsFast {caseIds : List Id} (hNodup : caseIds.Nodup)
    (definitions : List (CaseDurationDefinitionRead Id)) (caseId : Id) :
    (store.computeDurationsFastFromDbForCases caseIds definitions).lookup caseId =
      if caseId ∈ caseIds then
        some (definitions.map (store.fastComputation caseIds caseId))
      else none := by
  have hEmpty (other : Id) : (caseIds.foldl (fun results caseId => results.insert caseId [])
      (∅ : Dict Id (List (CaseDurationComputation Id)))).lookup other =
        if other ∈ caseIds then some [] else none := by
    rw [Dict.lookup_foldl_update (fun _ _ => []) hNodup]
    simp
  unfold computeDurationsFastFromDbForCases
  by_cases hNone : caseIds.isEmpty = true
  · rw [if_pos hNone]
    simp [List.isEmpty_iff.mp hNone]
  · rw [if_neg hNone]
    refine store.foldl_fastStep hNodup definitions (fun _ => []) ⟨?_, ?_⟩ ?_ ?_ caseId
    · intro anchor found hFound
      simp at hFound
    · intro endAnchor startAnchor found hFound
      simp at hFound
    · intro other hOther
      rw [hEmpty, if_neg hOther]
    · intro other hOther
      rw [hEmpty, if_pos hOther]

end CaseEventStore

/-! ## The scan path -/

/-- The computation of a definition from the events of a case. -/
def scanComputation {Id ω : Type} [PyAttributes ω] [EventAttributes Id ω]
    (parse : Json → Option Int) (events : List (CaseEvent Id))
    (definition : CaseDurationDefinitionRead Id) : CaseDurationComputation Id :=
  let startMatch := definition.startAnchor.findMatchingEvent parse events none
  let endMatch := definition.endAnchor.findMatchingEvent parse events (startMatch.map Prod.snd)
  definition.computation (startMatch.map fun found => (found.1.id, found.2))
    (endMatch.map fun found => (found.1.id, found.2))

theorem computeDurationsFromEvents_eq_map {Id ω : Type} [PyAttributes ω] [EventAttributes Id ω]
    (parse : Json → Option Int) (events : List (CaseEvent Id))
    (definitions : List (CaseDurationDefinitionRead Id)) :
    computeDurationsFromEvents parse events definitions =
      definitions.map (scanComputation parse events) := rfl

/-- The computations of two parts of the definitions, merged by the ids of the
definitions, are the computations in the order of the definitions. -/
theorem merge_eq_map {Id : Type} [DecidableEq Id]
    {definitions : List (CaseDurationDefinitionRead Id)}
    (hDefinitions : (definitions.map CaseDurationDefinitionRead.id).Nodup)
    {computation : CaseDurationDefinitionRead Id → CaseDurationComputation Id}
    (hId : ∀ definition, (computation definition).durationId = definition.id)
    (select : CaseDurationDefinitionRead Id → Bool) :
    (definitions.filterMap fun definition =>
      (((definitions.filter fun definition => !select definition).map computation ++
        (definitions.filter select).map computation).foldl
          (fun byDefinition computation =>
            byDefinition.insert computation.durationId computation)
          (∅ : Dict Id (CaseDurationComputation Id))).lookup definition.id) =
      definitions.map computation := by
  have hPerm : ((definitions.filter fun definition => !select definition) ++
      definitions.filter select).Perm definitions :=
    List.perm_append_comm.trans (List.filter_append_perm select definitions)
  rw [← List.map_append]
  have hKeys : ((((definitions.filter fun definition => !select definition) ++
      definitions.filter select).map computation).map
        CaseDurationComputation.durationId).Nodup := by
    rw [List.map_map, show CaseDurationComputation.durationId ∘ computation =
      CaseDurationDefinitionRead.id from funext hId]
    exact (hPerm.map _).nodup_iff.mpr hDefinitions
  rw [List.filterMap_eq_map_iff_forall_eq_some]
  intro definition hDefinition
  rw [← hId definition]
  exact Dict.lookup_foldl_insert_of_mem CaseDurationComputation.durationId id _ ∅ hKeys
    (List.mem_map_of_mem (hPerm.mem_iff.mpr hDefinition))

namespace CaseEventStore

variable {Id ω : Type} [LinearOrder Id] [PyAttributes ω] [EventAttributes Id ω]
  {store : CaseEventStore Id}
  (hIds : (store.rows.map CaseEvent.surrogateId).Nodup)
  (hConforms : ∀ event ∈ store.rows, event.Conforms)
include hIds hConforms

theorem fastComputation_eq {caseIds : List Id} (hNodup : caseIds.Nodup) {caseId : Id}
    (hCase : caseId ∈ caseIds) {definition : CaseDurationDefinitionRead Id}
    (hFast : definition.requiresEventScan = false) (parse : Json → Option Int) :
    store.fastComputation caseIds caseId definition =
      scanComputation parse (store.listCaseEventsForCases caseIds caseId) definition := by
  unfold CaseDurationDefinitionRead.requiresEventScan
    CaseDurationEventAnchor.requiresEventScan at hFast
  simp only [ne_eq, decide_not, Bool.or_eq_false_iff, Bool.not_eq_eq_eq_not, Bool.not_false,
    decide_eq_true_eq] at hFast
  obtain ⟨⟨hStartPath, hStartFilters⟩, hEndPath, hEndFilters⟩ := hFast
  have hStart : (store.startMatches caseIds definition.startAnchor).lookup caseId =
      (store.anchorEvent caseId definition.startAnchor none).map fun event =>
        (event.id, event.createdAt) :=
    lookup_findMatchingEventsDb hIds hConforms hNodup hCase hStartFilters none
  have hBound : (store.startBounds caseIds definition.startAnchor).getD caseId none =
      (store.anchorEvent caseId definition.startAnchor none).map CaseEvent.createdAt := by
    unfold Dict.getD startBounds
    rw [Dict.lookup_foldl_update (fun caseId _ =>
      ((store.startMatches caseIds definition.startAnchor).lookup caseId).map Prod.snd) hNodup,
      if_pos hCase, hStart, Option.getD_some, Option.map_map]
    rfl
  have hEnd : (store.endMatches caseIds definition.endAnchor definition.startAnchor).lookup
      caseId = (store.anchorEvent caseId definition.endAnchor
        ((store.anchorEvent caseId definition.startAnchor none).map CaseEvent.createdAt)).map
          fun event => (event.id, event.createdAt) := by
    unfold endMatches
    rw [lookup_findMatchingEventsDb hIds hConforms hNodup hCase hEndFilters, Option.bind_some,
      hBound]
  unfold fastComputation scanComputation
  simp only [hStart, hEnd, findMatchingEvent_eq hIds hCase hStartPath,
    findMatchingEvent_eq hIds hCase hEndPath, Option.map_map, Function.comp_def]

omit hIds hConforms in
theorem lookup_computeDurationsFromEvents {caseIds : List Id} (hNodup : caseIds.Nodup)
    (parse : Json → Option Int) (definitions : List (CaseDurationDefinitionRead Id))
    (caseId : Id) :
    (store.computeDurationsFromEventsForCases parse caseIds definitions).lookup caseId =
      if caseId ∈ caseIds then
        some (computeDurationsFromEvents parse (store.listCaseEventsForCases caseIds caseId)
          definitions)
      else none := by
  unfold computeDurationsFromEventsForCases
  by_cases hNone : caseIds.isEmpty = true
  · simp [List.isEmpty_iff.mp hNone]
  · rw [if_neg hNone, Dict.lookup_foldl_update (fun caseId _ =>
      computeDurationsFromEvents parse (store.listCaseEventsForCases caseIds caseId)
        definitions) hNodup, AList.lookup_empty]

omit hIds hConforms in
theorem lookup_emptyResults {cases : List Id} {caseId : Id}
    {results : Dict Id (List (CaseDurationComputation Id))}
    (hCase : caseId ∈ cases ∨ results.lookup caseId = some []) :
    (cases.foldl (fun results caseId => results.insert caseId []) results).lookup caseId =
      some [] := by
  induction cases generalizing results with
  | nil => simpa using hCase
  | cons first cases ih =>
      rw [List.foldl_cons]
      apply ih
      rw [Dict.lookup_insert_eq]
      by_cases hFirst : caseId = first
      · exact Or.inr (if_pos hFirst)
      · rw [if_neg hFirst]
        simpa [hFirst] using hCase

/-- When no definition needs the scan, the results of both paths are the same. -/
theorem lookup_fast_eq_lookup_events {caseIds : List Id} (hNodup : caseIds.Nodup)
    {definitions : List (CaseDurationDefinitionRead Id)}
    (hFast : ∀ definition ∈ definitions, definition.requiresEventScan = false)
    (parse : Json → Option Int) (caseId : Id) :
    (store.computeDurationsFastFromDbForCases caseIds definitions).lookup caseId =
      (store.computeDurationsFromEventsForCases parse caseIds definitions).lookup caseId := by
  rw [lookup_computeDurationsFast store hNodup, lookup_computeDurationsFromEvents hNodup]
  by_cases hCase : caseId ∈ caseIds
  · rw [if_pos hCase, if_pos hCase, computeDurationsFromEvents_eq_map]
    congr 1
    apply List.map_congr_left
    intro definition hDefinition
    exact fastComputation_eq hIds hConforms hNodup hCase (hFast definition hDefinition) parse
  · rw [if_neg hCase, if_neg hCase]

/-- A batch that mixes definitions gets, for each case, the computations of the
scan in the order of the definitions. -/
theorem lookup_computeDurationsFromDb {caseIds : List Id} (hNodup : caseIds.Nodup) {caseId : Id}
    (hCase : caseId ∈ caseIds) {definitions : List (CaseDurationDefinitionRead Id)}
    (hDefinitions : (definitions.map CaseDurationDefinitionRead.id).Nodup)
    (parse : Json → Option Int) :
    (store.computeDurationsFromDbForCases parse caseIds definitions).lookup caseId =
      some (computeDurationsFromEvents parse (store.listCaseEventsForCases caseIds caseId)
        definitions) := by
  unfold computeDurationsFromDbForCases
  by_cases hNone : (definitions.filter fun definition => definition.requiresEventScan).isEmpty
  · have hFast : ∀ definition ∈ definitions, definition.requiresEventScan = false := by
      intro definition hDefinition
      have hNot := List.filter_eq_nil_iff.mp (List.isEmpty_iff.mp hNone) definition hDefinition
      simpa using hNot
    rw [if_pos hNone, lookup_fast_eq_lookup_events hIds hConforms hNodup hFast parse,
      lookup_computeDurationsFromEvents hNodup, if_pos hCase]
  · rw [if_neg hNone]
    have hMerged := Dict.lookup_foldl_insert_of_mem (K := Id) id (fun caseId =>
      definitions.filterMap fun definition =>
        (((store.computeDurationsFastFromDbForCases caseIds (definitions.filter fun definition =>
            !definition.requiresEventScan)).getD caseId [] ++
          (store.computeDurationsFromEventsForCases parse caseIds (definitions.filter
            fun definition => definition.requiresEventScan)).getD caseId []).foldl
          (fun byDefinition computation =>
            byDefinition.insert computation.durationId computation)
          (∅ : Dict Id (CaseDurationComputation Id))).lookup definition.id) caseIds ∅
      (by simpa using hNodup) hCase
    have hFastResults : (store.computeDurationsFastFromDbForCases caseIds
        (definitions.filter fun definition => !definition.requiresEventScan)).getD caseId [] =
          (definitions.filter fun definition => !definition.requiresEventScan).map
            (scanComputation parse (store.listCaseEventsForCases caseIds caseId)) := by
      unfold Dict.getD
      rw [lookup_fast_eq_lookup_events hIds hConforms hNodup _ parse,
        lookup_computeDurationsFromEvents hNodup, if_pos hCase, Option.getD_some]
      · rfl
      · intro definition hDefinition
        simpa using (List.mem_filter.mp hDefinition).2
    have hFallbackResults : (store.computeDurationsFromEventsForCases parse caseIds
        (definitions.filter fun definition => definition.requiresEventScan)).getD caseId [] =
          (definitions.filter fun definition => definition.requiresEventScan).map
            (scanComputation parse (store.listCaseEventsForCases caseIds caseId)) := by
      unfold Dict.getD
      rw [lookup_computeDurationsFromEvents hNodup, if_pos hCase, Option.getD_some]
      rfl
    refine hMerged.trans (congrArg some ?_)
    rw [hFastResults, hFallbackResults]
    exact merge_eq_map hDefinitions (fun _ => rfl) _

/-- The durations of a batch are those of the scan, one for each definition and in
the order of the definitions; the query path alone agrees with the scan on
definitions that need no scan. -/
theorem durations_along_both_paths (parse : Json → Option Int) (cases : List Id)
    {definitions : List (CaseDurationDefinitionRead Id)}
    (hDefinitions : (definitions.map CaseDurationDefinitionRead.id).Nodup) :
    (∀ caseId ∈ cases,
      (store.computeDurations parse cases definitions).lookup caseId =
        some (computeDurationsFromEvents parse
          (store.listCaseEventsForCases (Sql.distinctOn id cases) caseId) definitions) ∧
      (computeDurationsFromEvents parse
        (store.listCaseEventsForCases (Sql.distinctOn id cases) caseId) definitions).map
          CaseDurationComputation.durationId = definitions.map CaseDurationDefinitionRead.id) ∧
    ((∀ definition ∈ definitions, definition.requiresEventScan = false) → ∀ caseId,
      (store.computeDurationsFastFromDbForCases (Sql.distinctOn id cases) definitions).lookup
          caseId =
        (store.computeDurationsFromEventsForCases parse (Sql.distinctOn id cases)
          definitions).lookup caseId) := by
  have hNodup : (Sql.distinctOn id cases).Nodup := by
    rw [← List.map_id (Sql.distinctOn id cases)]
    exact Sql.nodup_distinctFrom [] cases
  refine ⟨fun caseId hCase => ⟨?_, ?_⟩, fun hFast caseId => ?_⟩
  · unfold computeDurations
    have hCases : cases.isEmpty = false := by
      cases cases with
      | nil => cases hCase
      | cons => rfl
    rw [hCases, if_neg Bool.false_ne_true]
    by_cases hNone : definitions.isEmpty
    · rw [if_pos hNone, List.isEmpty_iff.mp hNone]
      exact lookup_emptyResults (Or.inl hCase)
    · rw [if_neg hNone]
      exact lookup_computeDurationsFromDb hIds hConforms hNodup
        (Sql.mem_distinctOn_id.mpr hCase) hDefinitions parse
  · rw [computeDurationsFromEvents_eq_map, List.map_map]
    rfl
  · exact lookup_fast_eq_lookup_events hIds hConforms hNodup hFast parse caseId

end CaseEventStore

namespace CaseDurationSample

/-- Case 1 is closed twice at one instant, and case 2 is never closed. -/
def store : CaseEventStore Nat where
  workspaceId := 0
  rows :=
    [ { workspaceId := 0, surrogateId := 1, id := 11, caseId := 1, type := .caseCreated
        data := some (.obj [("wf_exec_id", .null)]), userId := none, createdAt := 10
        updatedAt := 10 },
      { workspaceId := 0, surrogateId := 4, id := 14, caseId := 1, type := .caseClosed
        data := some (.obj [("old", .str "new"), ("new", .str "closed")]), userId := none
        createdAt := 30, updatedAt := 35 },
      { workspaceId := 0, surrogateId := 3, id := 13, caseId := 1, type := .caseClosed
        data := some (.obj [("old", .str "new"), ("new", .str "closed")]), userId := none
        createdAt := 30, updatedAt := 40 },
      { workspaceId := 0, surrogateId := 2, id := 12, caseId := 2, type := .caseCreated
        data := none, userId := none, createdAt := 20, updatedAt := 20 } ]

/-- From the creation to the last closing, by the queries and by the scan. -/
def definitions : List (CaseDurationDefinitionRead Nat) :=
  [ { id := 5, name := "Resolved", description := none
      startAnchor := { eventType := .caseCreated }
      endAnchor := { eventType := .statusChanged, filters := { newValues := ["closed"] }
                     selection := .last } },
    { id := 6, name := "Touched", description := none
      startAnchor := { eventType := .caseCreated }
      endAnchor := { eventType := .caseClosed, selection := .last
                     timestampPath := "updated_at" } } ]

theorem conforms : ∀ event ∈ store.rows, event.Conforms := by
  intro event hEvent
  simp only [store, List.mem_cons, List.not_mem_nil, or_false] at hEvent
  rcases hEvent with rfl | rfl | rfl | rfl <;>
    simp [CaseEvent.Conforms, CaseEventType.payloadFields, PayloadKind.Admits]

/-- The batch of both cases, the first given twice. -/
theorem batch_along_both_paths :
    (store.computeDurations (fun _ => none) [1, 2, 1] definitions).lookup 1 =
      some (computeDurationsFromEvents (fun _ => none)
        (store.listCaseEventsForCases [1, 2] 1) definitions) := by
  have hIds : (store.rows.map CaseEvent.surrogateId).Nodup := by decide
  have hDefinitions : (definitions.map CaseDurationDefinitionRead.id).Nodup := by decide
  have hBoth := CaseEventStore.durations_along_both_paths hIds conforms (fun _ => none) [1, 2, 1]
    hDefinitions
  exact (hBoth.1 1 (by decide)).1

end CaseDurationSample

end Tracecat
