import Tracecat.Cases.LegacyFilters

/-!
# Filters of earlier versions

A stored mapping matches the same events as the anchor that is read from it, except where
the values under a known path mix texts with other values: the typed filters keep only the
texts.  Typed filters come back from storage as they were.
-/

namespace Tracecat

variable {Id : Type} {columns : AnchorColumns}

/-! ## Typed filters -/

theorem mapM_textOf (texts : List String) : (texts.map Json.str).mapM textOf = some texts := by
  induction texts with
  | nil => rfl
  | cons text texts ih => simp [List.mapM_cons, ih, textOf]

theorem lookup_listEntry (key other : String) (texts : List String) :
    (listEntry key texts).lookup other =
      if other = key ∧ texts ≠ [] then some (.arr (texts.map .str)) else none := by
  unfold listEntry
  cases texts with
  | nil => simp
  | cons text texts =>
      by_cases hKey : other = key
      · simp [hKey]
      · simp [hKey, List.lookup_cons, beq_eq_false_iff_ne.mpr hKey]

theorem validateList_eq {rawFilters : List (String × Json)} {key : String} {texts : List String}
    (hLookup : rawFilters.lookup key =
      if texts ≠ [] then some (.arr (texts.map .str)) else none) :
    validateList rawFilters key = some texts := by
  unfold validateList
  rw [hLookup]
  by_cases hEmpty : texts = []
  · simp [hEmpty]
  · simp only [hEmpty, ne_eq, not_false_eq_true, if_true]
    exact mapM_textOf texts

theorem lookup_definitionEntry (definitionId : Option String) (key : String) :
    (definitionEntry definitionId).lookup key =
      if key = "dropdown_definition_id" then definitionId.map .str else none := by
  unfold definitionEntry
  cases definitionId with
  | none => simp
  | some definitionId =>
      by_cases hKey : key = "dropdown_definition_id"
      · simp [hKey]
      · simp [hKey, List.lookup_cons, beq_eq_false_iff_ne.mpr hKey]

theorem modelValidate_filtersToStorage (filters : CaseDurationEventFilters) :
    modelValidate (filtersToStorage filters) = some filters := by
  have hNewValues : validateList (filtersToStorage filters) "new_values" =
      some filters.newValues := by
    apply validateList_eq
    simp [filtersToStorage, List.lookup_append, lookup_listEntry, lookup_definitionEntry]
  have hTagRefs : validateList (filtersToStorage filters) "tag_refs" = some filters.tagRefs := by
    apply validateList_eq
    simp [filtersToStorage, List.lookup_append, lookup_listEntry, lookup_definitionEntry]
  have hFieldIds : validateList (filtersToStorage filters) "field_ids" =
      some filters.fieldIds := by
    apply validateList_eq
    simp [filtersToStorage, List.lookup_append, lookup_listEntry, lookup_definitionEntry]
  have hOptionIds : validateList (filtersToStorage filters) "dropdown_option_ids" =
      some filters.dropdownOptionIds := by
    apply validateList_eq
    simp [filtersToStorage, List.lookup_append, lookup_listEntry, lookup_definitionEntry]
  have hDefinitionId : (filtersToStorage filters).lookup "dropdown_definition_id" =
      filters.dropdownDefinitionId.map .str := by
    simp [filtersToStorage, List.lookup_append, lookup_listEntry, lookup_definitionEntry]
  unfold modelValidate
  rw [hNewValues, hTagRefs, hFieldIds, hOptionIds, hDefinitionId]
  cases hFilters : filters.dropdownDefinitionId with
  | none => rw [Option.map_none]; cases filters; simp_all
  | some definitionId => rw [Option.map_some]; cases filters; simp_all

theorem storageFiltersAreTyped_filtersToStorage (filters : CaseDurationEventFilters) :
    storageFiltersAreTyped (filtersToStorage filters) = true := by
  have hList (key : String) (texts : List String) (hKey : key ∈ typedKeys) :
      (listEntry key texts).all (fun entry => decide (entry.1 ∈ typedKeys)) = true := by
    unfold listEntry
    split <;> simp [hKey]
  unfold storageFiltersAreTyped filtersToStorage
  simp only [List.all_append, Bool.and_eq_true]
  refine ⟨⟨⟨⟨hList _ _ (by decide), hList _ _ (by decide)⟩, hList _ _ (by decide)⟩, ?_⟩,
    hList _ _ (by decide)⟩
  unfold definitionEntry
  cases filters.dropdownDefinitionId with
  | none => rfl
  | some definitionId => simp [typedKeys]

/-- Typed filters come back from storage. -/
theorem filtersFromStorage_filtersToStorage (eventType : CaseEventType)
    (filters : CaseDurationEventFilters) :
    filtersFromStorage eventType (filtersToStorage filters) = some (filters, false) := by
  unfold filtersFromStorage
  by_cases hEmpty : (filtersToStorage filters).isEmpty = true
  · have hValid := modelValidate_filtersToStorage filters
    rw [List.isEmpty_iff.mp hEmpty] at hValid
    obtain rfl := Option.some.inj hValid
    rw [if_pos hEmpty]
  · rw [if_neg hEmpty, if_pos (storageFiltersAreTyped_filtersToStorage filters),
      modelValidate_filtersToStorage]
    rfl

/-! ## One legacy filter -/

section Filters

variable {ω : Type} [PyAttributes ω]

theorem matchesFilter_singleton (actual : Option (AttrValue ω)) (text : String) :
    matchesFilter actual (.arr [.str text]) = matchesFilter actual (.str text) := by
  unfold matchesFilter
  cases actual.map AttrValue.normalize with
  | none => rfl
  | some value =>
      cases value with
      | json value =>
          cases value with
          | null => rfl
          | bool | int | float | str | arr | obj => simp [AttrValue.items?]
      | time | enum | list | object => simp [AttrValue.items?]

theorem map_filterMap_textOf {items : List Json} (hTexts : ∀ item ∈ items, textOf item ≠ none) :
    (items.filterMap textOf).map Json.str = items := by
  induction items with
  | nil => rfl
  | cons item items ih =>
      have hRest := ih fun other hOther => hTexts other (List.mem_cons_of_mem _ hOther)
      have hItem := hTexts item (List.mem_cons_self ..)
      cases item with
      | str text => simp [textOf, hRest]
      | null | bool | int | float | arr | obj => exact absurd rfl hItem

/-- The values mix texts with others. -/
def Mixed : Json → Prop
  | .arr items => (∃ item ∈ items, textOf item ≠ none) ∧ ∃ item ∈ items, textOf item = none
  | _ => False

theorem not_mixed_of_normalize_nil {value : Json} (hEmpty : normalizeStringFilterValues value = []) :
    ¬ Mixed value := by
  cases value with
  | arr items =>
      rintro ⟨⟨item, hItem, hText⟩, -⟩
      obtain ⟨text, hText⟩ := Option.ne_none_iff_exists'.mp hText
      have hMem : text ∈ items.filterMap textOf := List.mem_filterMap.mpr ⟨item, hItem, hText⟩
      rw [normalizeStringFilterValues] at hEmpty
      rw [hEmpty] at hMem
      cases hMem
  | str | null | bool | int | float | obj => exact id

/-- The texts of a value filter like the value unless it mixes them with others. -/
theorem matchesFilter_normalize {value : Json} (hMixed : ¬ Mixed value)
    (hSome : normalizeStringFilterValues value ≠ []) (actual : Option (AttrValue ω)) :
    matchesFilter actual (.arr ((normalizeStringFilterValues value).map .str)) =
      matchesFilter actual value := by
  cases value with
  | str text => exact matchesFilter_singleton actual text
  | arr items =>
      have hTexts : ∀ item ∈ items, textOf item ≠ none := by
        intro item hItem hNone
        apply hMixed
        refine ⟨?_, item, hItem, hNone⟩
        obtain ⟨text, hText⟩ := List.exists_mem_of_ne_nil _ hSome
        obtain ⟨other, hOther, hEq⟩ := List.mem_filterMap.mp hText
        exact ⟨other, hOther, by rw [hEq]; simp⟩
      simp only [normalizeStringFilterValues, map_filterMap_textOf hTexts]
  | null | bool | int | float | obj => exact absurd rfl hSome

/-- A list of one value, in the place of a value that is no text among texts, is matched
before the conversion only. -/
theorem matchesFilter_mixed {items : List Json} {item : Json} (hItem : item ∈ items)
    (hNone : textOf item = none) (hDistinct : item.Distinct) :
    matchesFilter (some (.json (.arr [item]) : AttrValue ω)) (.arr items) = true ∧
      matchesFilter (some (.json (.arr [item]) : AttrValue ω))
        (.arr ((normalizeStringFilterValues (.arr items)).map .str)) = false := by
  constructor
  · simp only [matchesFilter, Option.map_some, AttrValue.normalize, AttrValue.items?, List.map_cons,
      List.map_nil, List.any_cons, List.any_nil, Bool.or_false]
    exact List.any_eq_true.mpr ⟨item, hItem, item.pyEq_self hDistinct⟩
  · simp only [matchesFilter, Option.map_some, AttrValue.normalize, AttrValue.items?, List.map_cons,
      List.map_nil, List.any_cons, List.any_nil, Bool.or_false]
    rw [List.any_eq_false]
    intro expected hExpected hEq
    obtain ⟨text, -, rfl⟩ := List.mem_map.mp hExpected
    rw [(Json.pyEq_str item text).mp hEq] at hNone
    cases hNone

end Filters

/-! ## One path -/

variable {ω : Type} [PyAttributes ω] [EventAttributes Id ω]

theorem matchesFilters_legacy {anchor : CaseDurationEventAnchor}
    (hUnsupported : anchor.hasUnsupportedFilters = true) (event : CaseEvent Id) :
    anchor.matchesFilters event = matchesMapping event anchor.legacyFieldFilters := by
  unfold CaseDurationEventAnchor.matchesFilters CaseDurationEventAnchor.fieldFilters
  rw [if_pos hUnsupported]

theorem matchesFilters_typed {anchor : CaseDurationEventAnchor}
    (hSupported : anchor.hasUnsupportedFilters = false) (event : CaseEvent Id) :
    anchor.matchesFilters event = matchesMapping event anchor.filters.fieldFilters := by
  unfold CaseDurationEventAnchor.matchesFilters CaseDurationEventAnchor.fieldFilters
  rw [hSupported, if_neg Bool.false_ne_true]

/-- The mapping and the anchor that is read from it match the same events. -/
def FiltersKept (Id : Type) {ω : Type} [PyAttributes ω] [EventAttributes Id ω]
    (columns : AnchorColumns) : Prop :=
  ∃ anchor, anchorFromEntity columns = some anchor ∧ ∀ event : CaseEvent Id,
    anchor.matchesFilters event = matchesMapping event columns.fieldFilters

theorem eq_singleton_of_keysAre {rawFilters : List (String × Json)} {path : String}
    (hNodup : (rawFilters.map Prod.fst).Nodup) (hKeys : keysAre rawFilters [path] = true) :
    ∃ value, rawFilters = [(path, value)] := by
  rw [keysAre, Bool.and_eq_true, List.all_eq_true, List.all_eq_true] at hKeys
  cases rawFilters with
  | nil => simpa using hKeys.2 path (by simp)
  | cons first rest =>
      have hFirst : first.1 = path := by simpa using hKeys.1 first (by simp)
      cases rest with
      | nil => exact ⟨first.2, by rw [← hFirst]⟩
      | cons second rest =>
          have hSecond : second.1 = path := by simpa using hKeys.1 second (by simp)
          simp [hFirst, hSecond] at hNodup

theorem eq_pair_of_keysAre {rawFilters : List (String × Json)} {path other : String}
    (hNodup : (rawFilters.map Prod.fst).Nodup) (hNe : path ≠ other)
    (hKeys : keysAre rawFilters [path, other] = true) :
    ∃ value value', rawFilters = [(path, value), (other, value')] ∨
      rawFilters = [(other, value'), (path, value)] := by
  rw [keysAre, Bool.and_eq_true, List.all_eq_true, List.all_eq_true] at hKeys
  have hKey : ∀ entry ∈ rawFilters, entry.1 = path ∨ entry.1 = other := by
    intro entry hEntry
    simpa using hKeys.1 entry hEntry
  have hPath : path ∈ rawFilters.map Prod.fst := of_decide_eq_true (hKeys.2 path (by simp))
  have hOther : other ∈ rawFilters.map Prod.fst := of_decide_eq_true (hKeys.2 other (by simp))
  rcases rawFilters with _ | ⟨⟨key, value⟩, _ | ⟨⟨key', value'⟩, _ | ⟨⟨key'', value''⟩, rest⟩⟩⟩
  · cases hPath
  · obtain rfl : path = key := by simpa using hPath
    exact absurd (by simpa using hOther) hNe.symm
  · have hDistinct : key ≠ key' := by simpa using hNodup
    rcases hKey (key, value) (by simp) with rfl | rfl
    · obtain rfl : key' = other :=
        (hKey (key', value') (by simp)).resolve_left hDistinct.symm
      exact ⟨value, value', .inl rfl⟩
    · obtain rfl : key' = path :=
        (hKey (key', value') (by simp)).resolve_right hDistinct.symm
      exact ⟨value', value, .inr rfl⟩
  · -- three keys without repetitions are not two
    have hFirst := hKey (key, value) (by simp)
    have hSecond := hKey (key', value') (by simp)
    have hThird := hKey (key'', value'') (by simp)
    simp only [List.map_cons, List.nodup_cons, List.mem_cons, not_or] at hNodup
    obtain ⟨⟨hNe₁, hNe₂, -⟩, ⟨hNe₃, -⟩, -⟩ := hNodup
    rcases hFirst with rfl | rfl <;> rcases hSecond with rfl | rfl <;>
      rcases hThird with rfl | rfl <;> simp_all

/-! ## The anchor of a legacy mapping -/

/-- Filters that an earlier version stored: not all keys are those of typed filters. -/
def IsLegacy (rawFilters : List (String × Json)) : Prop :=
  rawFilters = [] ∨ storageFiltersAreTyped rawFilters = false

theorem IsLegacy.of_keysAre {rawFilters : List (String × Json)} {keys : List String}
    (hLegacy : IsLegacy rawFilters) (hKeys : keysAre rawFilters keys = true) (hSome : keys ≠ []) :
    storageFiltersAreTyped rawFilters = false := by
  refine hLegacy.resolve_left ?_
  rintro rfl
  obtain ⟨key, hKey⟩ := List.exists_mem_of_ne_nil _ hSome
  rw [keysAre, Bool.and_eq_true, List.all_eq_true, List.all_eq_true] at hKeys
  simpa using hKeys.2 key hKey

theorem filtersKept_of_unknown (hLegacy : IsLegacy columns.fieldFilters)
    (hUnknown : knownLegacyFiltersToTyped columns.eventType columns.fieldFilters = none) :
    FiltersKept Id columns := by
  by_cases hEmpty : columns.fieldFilters = []
  · have hAnchor : anchorFromEntity columns = some (anchorOf columns {} false) := by
      unfold anchorFromEntity filtersFromStorage
      rw [hEmpty]
      rfl
    refine ⟨_, hAnchor, fun event => ?_⟩
    rw [matchesFilters_typed, hEmpty]
    · rfl
    · simp [anchorOf, hEmpty, activeFilterFields]
  · have hTyped := hLegacy.resolve_left hEmpty
    have hAnchor : anchorFromEntity columns = some (anchorOf columns {} true) := by
      unfold anchorFromEntity filtersFromStorage
      rw [if_neg (by simpa using hEmpty), hTyped, hUnknown]
      rfl
    exact ⟨_, hAnchor, matchesFilters_legacy rfl⟩

section

variable {filters : CaseDurationEventFilters}
  (hTyped : storageFiltersAreTyped columns.fieldFilters = false)
  (hKnown : knownLegacyFiltersToTyped columns.eventType columns.fieldFilters = some filters)
include hTyped

theorem fieldFilters_ne_nil : columns.fieldFilters.isEmpty = false := by
  cases hFilters : columns.fieldFilters with
  | nil => simp [hFilters, storageFiltersAreTyped] at hTyped
  | cons => rfl

include hKnown

theorem anchorFromEntity_of_known :
    anchorFromEntity columns = some (anchorOf columns filters false) := by
  unfold anchorFromEntity filtersFromStorage
  rw [fieldFilters_ne_nil hTyped, hTyped, hKnown]
  rfl

theorem filtersKept_of_invalid (hInvalid : filtersAreValid columns.eventType filters = false) :
    FiltersKept Id columns := by
  refine ⟨_, anchorFromEntity_of_known hTyped hKnown, matchesFilters_legacy ?_⟩
  simp [anchorOf, hInvalid, fieldFilters_ne_nil hTyped]

theorem filtersKept_of_valid (hValid : filtersAreValid columns.eventType filters = true) :
    FiltersKept Id columns ↔ ∀ event : CaseEvent Id,
      matchesMapping event filters.fieldFilters = matchesMapping event columns.fieldFilters := by
  have hMatches : ∀ event : CaseEvent Id, (anchorOf columns filters false).matchesFilters event =
      matchesMapping event filters.fieldFilters :=
    matchesFilters_typed (by simp [anchorOf, hValid])
  constructor
  · rintro ⟨anchor, hAnchor, hKept⟩ event
    rw [anchorFromEntity_of_known hTyped hKnown] at hAnchor
    obtain rfl := Option.some.inj hAnchor
    rw [← hMatches, hKept]
  · intro hKept
    exact ⟨_, anchorFromEntity_of_known hTyped hKnown, fun event => by rw [hMatches, hKept]⟩

end

/-! ## Conversions -/

def payloadEvent (Id : Type) [Inhabited Id] (data : Json) : CaseEvent Id where
  workspaceId := default
  surrogateId := 0
  id := default
  caseId := default
  type := .statusChanged
  data := some data
  userId := none
  createdAt := 0
  updatedAt := 0

theorem filtersKept_path [Inhabited Id] {path : String}
    (typed : List String → CaseDurationEventFilters)
    (hJson : (Json.obj columns.fieldFilters).Distinct) (hLegacy : IsLegacy columns.fieldFilters)
    (hKnown : knownLegacyFiltersToTyped columns.eventType columns.fieldFilters =
      pathToTyped columns.fieldFilters path typed)
    (hFields : ∀ values, values ≠ [] →
      (typed values).fieldFilters = [(path, .arr (values.map .str))])
    (hValid : ∀ values, values ≠ [] → filtersAreValid columns.eventType (typed values) = true)
    (hPayload : isPayloadPath path = true) (hEvent : ∀ item, ∃ event : CaseEvent Id,
      event.field? path = some (.json (.arr [item]))) :
    FiltersKept Id columns ↔
      ¬ ∃ value, (if keysAre columns.fieldFilters [path] then columns.fieldFilters.lookup path
        else none) = some value ∧ Mixed value := by
  by_cases hKeys : keysAre columns.fieldFilters [path] = true
  · obtain ⟨value, hRaw⟩ := eq_singleton_of_keysAre hJson.1 hKeys
    have hTyped := hLegacy.of_keysAre hKeys (by simp)
    have hLookup : columns.fieldFilters.lookup path = some value := by simp [hRaw]
    have hDistinct : value.Distinct :=
      Json.distinctEntries_iff.mp hJson.2 (path, value) (by simp [hRaw])
    rw [if_pos hKeys, hLookup]
    simp only [Option.some.injEq, exists_eq_left']
    have hPath : pathToTyped columns.fieldFilters path typed =
        if normalizeStringFilterValues value = [] then none
        else some (typed (normalizeStringFilterValues value)) := by
      unfold pathToTyped
      rw [if_pos hKeys, hLookup]
      by_cases hEmpty : normalizeStringFilterValues value = [] <;> simp [hEmpty]
    by_cases hEmpty : normalizeStringFilterValues value = []
    · rw [hPath, if_pos hEmpty] at hKnown
      exact iff_of_true (filtersKept_of_unknown hLegacy hKnown) (not_mixed_of_normalize_nil hEmpty)
    · rw [hPath, if_neg hEmpty] at hKnown
      rw [filtersKept_of_valid hTyped hKnown (hValid _ hEmpty), hFields _ hEmpty, hRaw]
      have hMapping (event : CaseEvent Id) (expected : Json) :
          matchesMapping event [(path, expected)] =
            matchesFilter (event.field? path) expected := by
        rw [matchesMapping_eq_all event (by simp [hPayload])]
        simp
      simp only [hMapping]
      constructor
      · intro hKept hMixed
        cases value with
        | arr items =>
            obtain ⟨-, item, hItem, hNone⟩ := hMixed
            obtain ⟨event, hResolve⟩ := hEvent item
            have hBefore := @matchesFilter_mixed ω _ _ _ hItem hNone
              (Json.distinctItems_iff.mp hDistinct item hItem)
            have hSame := hKept event
            rw [hResolve, hBefore.1, hBefore.2] at hSame
            cases hSame
        | str | null | bool | int | float | obj => exact hMixed
      · intro hMixed event
        exact matchesFilter_normalize hMixed hEmpty _
  · have hPath : pathToTyped columns.fieldFilters path typed = none := by
      unfold pathToTyped
      rw [if_neg hKeys]
    rw [hPath] at hKnown
    refine iff_of_true (filtersKept_of_unknown hLegacy hKnown) ?_
    simp [hKeys]

/-- The values of a mapping for dropdowns that are converted: the definition is a text that
is not empty. -/
def convertedOptions (rawFilters : List (String × Json)) : Option Json :=
  if keysAre rawFilters ["data.definition_id", "data.new_option_id"] &&
      ((rawFilters.lookup "data.definition_id").bind textOf).any (· ≠ "") then
    rawFilters.lookup "data.new_option_id"
  else none

theorem filtersKept_dropdown [Inhabited Id] (hJson : (Json.obj columns.fieldFilters).Distinct)
    (hLegacy : IsLegacy columns.fieldFilters) (hType : columns.eventType = .dropdownValueChanged) :
    FiltersKept Id columns ↔
      ¬ ∃ value, convertedOptions columns.fieldFilters = some value ∧ Mixed value := by
  by_cases hKeys : keysAre columns.fieldFilters ["data.definition_id", "data.new_option_id"] = true
  · obtain ⟨definition, options, hRaw⟩ := eq_pair_of_keysAre hJson.1 (by decide) hKeys
    have hTyped := hLegacy.of_keysAre hKeys (by simp)
    have hDefinition : columns.fieldFilters.lookup "data.definition_id" = some definition := by
      rcases hRaw with hRaw | hRaw <;> simp [hRaw, List.lookup_cons]
    have hOptions : columns.fieldFilters.lookup "data.new_option_id" = some options := by
      rcases hRaw with hRaw | hRaw <;> simp [hRaw, List.lookup_cons]
    have hDistinct : options.Distinct := by
      refine Json.distinctEntries_iff.mp hJson.2 ("data.new_option_id", options) ?_
      rcases hRaw with hRaw | hRaw <;> simp [hRaw]
    have hPayload : isPayloadPath "data.definition_id" = true ∧
        isPayloadPath "data.new_option_id" = true := by decide
    have hPair (event : CaseEvent Id) (id options : Json) : matchesMapping event
        [("data.definition_id", id), ("data.new_option_id", options)] =
          (matchesFilter (event.field? "data.definition_id") id &&
            matchesFilter (event.field? "data.new_option_id") options) := by
      rw [matchesMapping_eq_all event (by simp [hPayload])]
      simp
    -- the order of the two entries does not matter
    have hMapping (event : CaseEvent Id) : matchesMapping event columns.fieldFilters =
        (matchesFilter (event.field? "data.definition_id") definition &&
          matchesFilter (event.field? "data.new_option_id") options) := by
      rcases hRaw with hRaw | hRaw
      · rw [hRaw, hPair]
      · rw [hRaw, matchesMapping_eq_all event (by simp [hPayload])]
        simp [Bool.and_comm]
    have hConverted : convertedOptions columns.fieldFilters =
        if (textOf definition).any (· ≠ "") then some options else none := by
      unfold convertedOptions
      rw [hKeys, hDefinition, hOptions, Bool.true_and, Option.bind_some]
    have hKnown : knownLegacyFiltersToTyped columns.eventType columns.fieldFilters =
        (textOf definition).bind fun definitionId =>
          if normalizeStringFilterValues options = [] then none
          else some {
            dropdownDefinitionId := some definitionId
            dropdownOptionIds := normalizeStringFilterValues options } := by
      unfold knownLegacyFiltersToTyped
      rw [hType]
      simp only [hKeys, if_true, hDefinition, hOptions, Option.bind_some]
      cases textOf definition with
      | none => rfl
      | some definitionId => simp
    rw [hConverted]
    cases definition with
    | null | bool | int | float | arr | obj =>
        exact iff_of_true (filtersKept_of_unknown hLegacy hKnown) (by simp [textOf])
    | str definitionId =>
        by_cases hEmpty : normalizeStringFilterValues options = []
        · have hUnknown := hKnown
          simp only [textOf, Option.bind_some, hEmpty, if_true] at hUnknown
          refine iff_of_true (filtersKept_of_unknown hLegacy hUnknown) ?_
          rintro ⟨value, hValue, hMixed⟩
          split at hValue
          · obtain rfl := Option.some.inj hValue
            exact not_mixed_of_normalize_nil hEmpty hMixed
          · cases hValue
        · simp only [textOf, Option.bind_some, hEmpty, if_false] at hKnown
          by_cases hId : definitionId = ""
          · -- the filters do not pass the check of the event type
            refine iff_of_true (filtersKept_of_invalid hTyped hKnown ?_) ?_
            · simp [filtersAreValid, hType, hId]
            · simp [textOf, hId]
          · rw [filtersKept_of_valid hTyped hKnown (by
              simp [filtersAreValid, hType, hId, hEmpty, activeFilterFields, allowedFilterFields])]
            have hFields : ({ dropdownDefinitionId := some definitionId
                              dropdownOptionIds := normalizeStringFilterValues options } :
                CaseDurationEventFilters).fieldFilters =
                [("data.definition_id", .str definitionId),
                  ("data.new_option_id", .arr ((normalizeStringFilterValues options).map .str))] := by
              simp [CaseDurationEventFilters.fieldFilters, hEmpty]
            rw [hFields]
            simp only [textOf, Option.any_some, ne_eq, hId, not_false_eq_true, decide_true, if_true,
              Option.some.injEq, exists_eq_left', hMapping]
            simp only [hPair]
            constructor
            · intro hKept hMixed
              cases options with
              | arr items =>
                  obtain ⟨-, item, hItem, hNone⟩ := hMixed
                  have hBefore := @matchesFilter_mixed ω _ _ _ hItem hNone
                    (Json.distinctItems_iff.mp hDistinct item hItem)
                  have hSame := hKept (payloadEvent Id
                    (.obj [("definition_id", .str definitionId), ("new_option_id", .arr [item])]))
                  have hOptionValue : (payloadEvent Id (.obj [("definition_id", .str definitionId),
                      ("new_option_id", .arr [item])])).field? "data.new_option_id" =
                        some (.json (.arr [item])) := by rfl
                  have hIdValue : (payloadEvent Id (.obj [("definition_id", .str definitionId),
                      ("new_option_id", .arr [item])])).field? "data.definition_id" =
                        some (.json (.str definitionId)) := by rfl
                  have hIdMatches : matchesFilter (some (.json (.str definitionId) : AttrValue ω))
                      (.str definitionId) = true :=
                    (Json.pyEq_str _ _).mpr rfl
                  rw [hOptionValue, hIdValue, hIdMatches, hBefore.1, hBefore.2] at hSame
                  cases hSame
              | str | null | bool | int | float | obj => exact hMixed
            · intro hMixed event
              rw [matchesFilter_normalize hMixed hEmpty]
  · have hUnknown : knownLegacyFiltersToTyped columns.eventType columns.fieldFilters = none := by
      unfold knownLegacyFiltersToTyped
      rw [hType]
      simp [hKeys]
    refine iff_of_true (filtersKept_of_unknown hLegacy hUnknown) ?_
    simp [convertedOptions, hKeys]

/-! ## All event types -/

/-- The value of a mapping whose texts become a typed filter. -/
def convertedValue (columns : AnchorColumns) : Option Json :=
  let path (key : String) :=
    if keysAre columns.fieldFilters [key] then columns.fieldFilters.lookup key else none
  match columns.eventType with
  | .priorityChanged | .severityChanged | .statusChanged => path "data.new"
  | .tagAdded | .tagRemoved => path "data.tag_ref"
  | .fieldsChanged => path "data.changes.field"
  | .dropdownValueChanged => convertedOptions columns.fieldFilters
  | _ => none

theorem filtersKept_iff [Inhabited Id] (hJson : (Json.obj columns.fieldFilters).Distinct)
    (hLegacy : IsLegacy columns.fieldFilters) :
    FiltersKept Id columns ↔ ¬ ∃ value, convertedValue columns = some value ∧ Mixed value := by
  unfold convertedValue
  cases hType : columns.eventType with
  | priorityChanged | severityChanged | statusChanged =>
      refine filtersKept_path (fun values => { newValues := values }) hJson hLegacy
        (by rw [hType]; rfl) ?_ ?_ (by decide)
        fun item => ⟨payloadEvent Id (.obj [("new", .arr [item])]), by rfl⟩
      · intro values hSome
        simp [CaseDurationEventFilters.fieldFilters, hSome]
      · intro values hSome
        simp [filtersAreValid, hType, hSome, activeFilterFields, allowedFilterFields]
  | tagAdded | tagRemoved =>
      refine filtersKept_path (fun values => { tagRefs := values }) hJson hLegacy
        (by rw [hType]; rfl) ?_ ?_ (by decide)
        fun item => ⟨payloadEvent Id (.obj [("tag_ref", .arr [item])]), by rfl⟩
      · intro values hSome
        simp [CaseDurationEventFilters.fieldFilters, hSome]
      · intro values hSome
        simp [filtersAreValid, hType, hSome, activeFilterFields, allowedFilterFields]
  | fieldsChanged =>
      refine filtersKept_path (fun values => { fieldIds := values }) hJson hLegacy
        (by rw [hType]; rfl) ?_ ?_ (by decide)
        fun item => ⟨payloadEvent Id (.obj [("changes", .obj [("field", .arr [item])])]), by rfl⟩
      · intro values hSome
        simp [CaseDurationEventFilters.fieldFilters, hSome]
      · intro values hSome
        simp [filtersAreValid, hType, hSome, activeFilterFields, allowedFilterFields]
  | dropdownValueChanged => exact filtersKept_dropdown hJson hLegacy hType
  | _ =>
      refine iff_of_true (filtersKept_of_unknown hLegacy ?_) (by simp)
      rw [hType]
      rfl

/-- Typed filters that come back from storage match the same events. -/
def StorageKeeps (Id : Type) {ω : Type} [PyAttributes ω] [EventAttributes Id ω] : Prop :=
  ∀ (eventType : CaseEventType) (filters : CaseDurationEventFilters),
    ∃ stored, filtersFromStorage eventType (filtersToStorage filters) = some (stored, false) ∧
      ∀ event : CaseEvent Id,
        matchesMapping event stored.fieldFilters = matchesMapping event filters.fieldFilters

/-- Legacy filters keep their meaning unless the values of a known mapping mix texts with
other values. -/
theorem legacyFilters_iff [Inhabited Id] (hJson : (Json.obj columns.fieldFilters).Distinct)
    (hLegacy : IsLegacy columns.fieldFilters) :
    FiltersKept Id columns ∧ StorageKeeps Id ↔
      ¬ ∃ value, convertedValue columns = some value ∧ Mixed value := by
  rw [filtersKept_iff hJson hLegacy]
  refine and_iff_left fun eventType filters => ?_
  exact ⟨filters, filtersFromStorage_filtersToStorage eventType filters, fun _ => rfl⟩

namespace LegacySample

/-- Changes of the status to one of the values. -/
def statusColumns (values : List Json) : AnchorColumns where
  eventType := .statusChanged
  fieldFilters := [("data.new", .arr values)]
  selection := .first
  timestampPath := "created_at"

theorem texts_iff :
    FiltersKept Nat (statusColumns [.str "closed", .str "resolved"]) ∧ StorageKeeps Nat ↔
      ¬ ∃ value, convertedValue (statusColumns [.str "closed", .str "resolved"]) = some value ∧
        Mixed value :=
  legacyFilters_iff (by simp [statusColumns, Json.Distinct, Json.DistinctEntries, Json.DistinctItems])
    (.inr (by decide))

/-- The number beside the text is dropped. -/
theorem mixed_not_kept :
    IsLegacy (statusColumns [.str "closed", .int 3]).fieldFilters ∧
      ¬ FiltersKept Nat (statusColumns [.str "closed", .int 3]) := by
  refine ⟨.inr (by decide), ?_⟩
  rintro ⟨anchor, hAnchor, hKept⟩
  have hKnown : anchorFromEntity (statusColumns [.str "closed", .int 3]) =
      some (anchorOf (statusColumns [.str "closed", .int 3]) { newValues := ["closed"] } false) := by
    rfl
  rw [hKnown] at hAnchor
  obtain rfl := Option.some.inj hAnchor
  have hSame := hKept (payloadEvent Nat (.obj [("new", .int 3)]))
  revert hSame
  decide

end LegacySample

end Tracecat
