import Tracecat.Cases.Durations

/-!
# Stored filters of an anchor

`_filters_to_storage` and `_filters_from_storage` of `cases/durations/service.py`, and the
anchor that `_anchor_from_entity` reads from the columns of a definition.  Filters stored
by earlier versions map dotted paths to values; those of a known form become typed filters.
-/

namespace Tracecat

/-! ## Typed filters in storage -/

/-- An entry of the stored filters for a list, unless it is empty. -/
def listEntry (key : String) (texts : List String) : List (String × Json) :=
  if texts.isEmpty then [] else [(key, .arr (texts.map .str))]

/-- The entry for the dropdown definition. -/
def definitionEntry : Option String → List (String × Json)
  | none => []
  | some definitionId => [("dropdown_definition_id", .str definitionId)]

/-- `_filters_to_storage`. -/
def filtersToStorage (filters : CaseDurationEventFilters) : List (String × Json) :=
  listEntry "new_values" filters.newValues ++ listEntry "tag_refs" filters.tagRefs ++
    listEntry "field_ids" filters.fieldIds ++ definitionEntry filters.dropdownDefinitionId ++
    listEntry "dropdown_option_ids" filters.dropdownOptionIds

/-- `typed_keys`. -/
def typedKeys : List String :=
  ["new_values", "tag_refs", "field_ids", "dropdown_definition_id", "dropdown_option_ids"]

/-- `_storage_filters_are_typed`. -/
def storageFiltersAreTyped (rawFilters : List (String × Json)) : Bool :=
  rawFilters.all fun entry => entry.1 ∈ typedKeys

def textOf : Json → Option String
  | .str text => some text
  | _ => none

/-- A field of type `list[str]`. -/
def validateList (rawFilters : List (String × Json)) (key : String) : Option (List String) :=
  match rawFilters.lookup key with
  | none => some []
  | some (.arr items) => items.mapM textOf
  | some _ => none

/-- `CaseDurationEventFilters.model_validate` on entries of the typed keys; `none` is a
`ValidationError`. -/
def modelValidate (rawFilters : List (String × Json)) : Option CaseDurationEventFilters := do
  let newValues ← validateList rawFilters "new_values"
  let tagRefs ← validateList rawFilters "tag_refs"
  let fieldIds ← validateList rawFilters "field_ids"
  let dropdownDefinitionId ←
    match rawFilters.lookup "dropdown_definition_id" with
    | none | some .null => some none
    | some (.str definitionId) => some (some definitionId)
    | some _ => none
  let dropdownOptionIds ← validateList rawFilters "dropdown_option_ids"
  return { newValues, tagRefs, fieldIds, dropdownDefinitionId, dropdownOptionIds }

/-! ## Legacy filters -/

/-- `_normalize_string_filter_values`. -/
def normalizeStringFilterValues : Json → List String
  | .str text => [text]
  | .arr items => items.filterMap textOf
  | _ => []

/-- `set(raw_filters) == keys`. -/
def keysAre (rawFilters : List (String × Json)) (keys : List String) : Bool :=
  (rawFilters.all fun entry => entry.1 ∈ keys) && keys.all (· ∈ rawFilters.map Prod.fst)

/-- The branches of `_known_legacy_filters_to_typed` for one path of texts. -/
def pathToTyped (rawFilters : List (String × Json)) (path : String)
    (typed : List String → CaseDurationEventFilters) : Option CaseDurationEventFilters :=
  if keysAre rawFilters [path] then do
    let value ← rawFilters.lookup path
    let values := normalizeStringFilterValues value
    if values.isEmpty then none else some (typed values)
  else none

/-- `_known_legacy_filters_to_typed`. -/
def knownLegacyFiltersToTyped (eventType : CaseEventType) (rawFilters : List (String × Json)) :
    Option CaseDurationEventFilters :=
  match eventType with
  | .priorityChanged | .severityChanged | .statusChanged =>
      pathToTyped rawFilters "data.new" fun values => { newValues := values }
  | .tagAdded | .tagRemoved =>
      pathToTyped rawFilters "data.tag_ref" fun values => { tagRefs := values }
  | .fieldsChanged =>
      pathToTyped rawFilters "data.changes.field" fun values => { fieldIds := values }
  | .dropdownValueChanged =>
      if keysAre rawFilters ["data.definition_id", "data.new_option_id"] then do
        let definitionId ← (rawFilters.lookup "data.definition_id").bind textOf
        let value ← rawFilters.lookup "data.new_option_id"
        let optionIds := normalizeStringFilterValues value
        if optionIds.isEmpty then none
        else some { dropdownDefinitionId := some definitionId, dropdownOptionIds := optionIds }
      else none
  | _ => none

/-- `_filters_from_storage`: the filters, and whether the stored ones are unsupported. -/
def filtersFromStorage (eventType : CaseEventType) (rawFilters : List (String × Json)) :
    Option (CaseDurationEventFilters × Bool) :=
  if rawFilters.isEmpty then some ({}, false)
  else if storageFiltersAreTyped rawFilters then
    (modelValidate rawFilters).map fun filters => (filters, false)
  else
    match knownLegacyFiltersToTyped eventType rawFilters with
    | some filters => some (filters, false)
    | none => some ({}, true)

/-! ## The anchor of a definition -/

/-- `_active_filter_fields`. -/
def activeFilterFields (filters : CaseDurationEventFilters) : List String :=
  (if filters.newValues.isEmpty then [] else ["new_values"]) ++
  (if filters.tagRefs.isEmpty then [] else ["tag_refs"]) ++
  (if filters.fieldIds.isEmpty then [] else ["field_ids"]) ++
  (if filters.dropdownDefinitionId = none then [] else ["dropdown_definition_id"]) ++
  (if filters.dropdownOptionIds.isEmpty then [] else ["dropdown_option_ids"])

/-- `_allowed_filter_fields_for_event_type`. -/
def allowedFilterFields : CaseEventType → List String
  | .priorityChanged | .severityChanged | .statusChanged => ["new_values"]
  | .tagAdded | .tagRemoved => ["tag_refs"]
  | .fieldsChanged => ["field_ids"]
  | .dropdownValueChanged => ["dropdown_definition_id", "dropdown_option_ids"]
  | _ => []

/-- `validate_filters_for_event_type` lets the filters pass. -/
def filtersAreValid (eventType : CaseEventType) (filters : CaseDurationEventFilters) : Bool :=
  (activeFilterFields filters).all (· ∈ allowedFilterFields eventType) &&
    match eventType with
    | .priorityChanged | .severityChanged | .statusChanged => !filters.newValues.isEmpty
    | .tagAdded | .tagRemoved => !filters.tagRefs.isEmpty
    | .fieldsChanged => !filters.fieldIds.isEmpty
    | .dropdownValueChanged =>
        (filters.dropdownDefinitionId.any (· ≠ "")) && !filters.dropdownOptionIds.isEmpty
    | _ => true

/-- The columns of a definition for one anchor. -/
structure AnchorColumns where
  eventType : CaseEventType
  fieldFilters : List (String × Json)
  selection : CaseDurationAnchorSelection
  timestampPath : String

/-- The anchor that `_anchor_from_entity` makes of the filters read from storage.  Filters
that the event type does not take count as unsupported, but none at all do not. -/
def anchorOf (columns : AnchorColumns) (filters : CaseDurationEventFilters) (unsupported : Bool) :
    CaseDurationEventAnchor where
  eventType := columns.eventType
  filters := filters
  selection := columns.selection
  hasUnsupportedFilters := unsupported || (!filtersAreValid columns.eventType filters &&
    !(columns.fieldFilters.isEmpty && (activeFilterFields filters).isEmpty))
  timestampPath := if columns.timestampPath = "" then "created_at" else columns.timestampPath
  legacyFieldFilters := columns.fieldFilters

/-- `_anchor_from_entity`; `none` is a `ValidationError` of the stored typed filters. -/
def anchorFromEntity (columns : AnchorColumns) : Option CaseDurationEventAnchor :=
  (filtersFromStorage columns.eventType columns.fieldFilters).map fun (filters, unsupported) =>
    anchorOf columns filters unsupported

/-! ## JSON from the database -/

namespace Json

mutual

/-- No object repeats a key. -/
def Distinct : Json → Prop
  | arr items => DistinctItems items
  | obj entries => (entries.map Prod.fst).Nodup ∧ DistinctEntries entries
  | _ => True

def DistinctItems : List Json → Prop
  | [] => True
  | item :: items => item.Distinct ∧ DistinctItems items

def DistinctEntries : List (String × Json) → Prop
  | [] => True
  | (_, value) :: entries => value.Distinct ∧ DistinctEntries entries

end

theorem distinctItems_iff {items : List Json} :
    DistinctItems items ↔ ∀ item ∈ items, item.Distinct := by
  induction items with
  | nil => simp [DistinctItems]
  | cons item items ih => simp [DistinctItems, ih]

theorem distinctEntries_iff {entries : List (String × Json)} :
    DistinctEntries entries ↔ ∀ entry ∈ entries, entry.2.Distinct := by
  induction entries with
  | nil => simp [DistinctEntries]
  | cons entry entries ih => simp [DistinctEntries, ih]

mutual

theorem pyEq_self : ∀ value : Json, value.Distinct → pyEq value value = true
  | null, _ => rfl
  | bool flag, _ => by simp [pyEq, eqBy, pyScalar, jsonbScalar, ofBool, number?]
  | int number, _ => by simp [pyEq, eqBy, pyScalar, jsonbScalar, ofBool, number?]
  | float number, _ => by simp [pyEq, eqBy, pyScalar, jsonbScalar, ofBool, number?]
  | str text, _ => by simp [pyEq, eqBy, pyScalar, jsonbScalar, ofBool]
  | arr items, hItems => by
      unfold pyEq eqBy
      exact eqItems_self items hItems
  | obj entries, hEntries => by
      unfold pyEq eqBy
      rw [Bool.and_eq_true]
      refine ⟨by simp, eqEntries_self entries entries (fun entry hEntry => ?_) hEntries.2⟩
      exact (List.lookup_eq_some_iff.mpr (by
        obtain ⟨before, after, rfl⟩ := List.append_of_mem hEntry
        refine ⟨before, after, rfl, ?_⟩
        have hNodup := hEntries.1
        simp only [List.map_append, List.map_cons, List.nodup_append] at hNodup
        intro other hOther
        simpa using (hNodup.2.2 other.1 (List.mem_map_of_mem hOther) entry.1
          (List.mem_cons_self ..)).symm))

theorem eqItems_self : ∀ items : List Json, DistinctItems items →
    eqItems pyScalar items items = true
  | [], _ => rfl
  | item :: items, hItems => by
      unfold eqItems
      rw [Bool.and_eq_true]
      exact ⟨pyEq_self item hItems.1, eqItems_self items hItems.2⟩

theorem eqEntries_self : ∀ entries others : List (String × Json),
    (∀ entry ∈ entries, others.lookup entry.1 = some entry.2) → DistinctEntries entries →
      eqEntries pyScalar entries others = true
  | [], _, _, _ => rfl
  | (key, value) :: entries, others, hLookup, hDistinct => by
      unfold eqEntries
      rw [hLookup (key, value) (List.mem_cons_self ..), Bool.and_eq_true]
      exact ⟨pyEq_self value hDistinct.1, eqEntries_self entries others
        (fun entry hEntry => hLookup entry (List.mem_cons_of_mem _ hEntry)) hDistinct.2⟩

end

end Json

end Tracecat
