import Mathlib.Data.Prod.Lex
import Tracecat.Lib.Sql
import Tracecat.Cases.Events

/-!
# Case durations

`CaseDurationService` of `cases/durations/service.py`.  A duration runs from a
start anchor to an end anchor, each the first or the last event of a case that
matches a filter.  Definitions that read `created_at` and use the typed filters
are computed by queries, the others by a scan of the loaded events.  The scan here is total:
what the read of an attribute raises, and an `OSError` of a timestamp, is in `EventScan`.
-/

namespace Tracecat

/-! ## Definitions -/

/-- `CaseDurationAnchorSelection`. -/
inductive CaseDurationAnchorSelection
  | first
  | last
  deriving DecidableEq, Repr

/-- `CaseDurationEventFilters`. -/
structure CaseDurationEventFilters where
  newValues : List String := []
  tagRefs : List String := []
  fieldIds : List String := []
  dropdownDefinitionId : Option String := none
  dropdownOptionIds : List String := []
  deriving DecidableEq, Repr

/-- `CaseDurationEventAnchor`, with its private attributes. -/
structure CaseDurationEventAnchor where
  eventType : CaseEventType
  filters : CaseDurationEventFilters := {}
  selection : CaseDurationAnchorSelection := .first
  hasUnsupportedFilters : Bool := false
  timestampPath : String := "created_at"
  legacyFieldFilters : List (String × Json) := []

/-- `CaseDurationDefinitionRead`. -/
structure CaseDurationDefinitionRead (Id : Type) where
  id : Id
  name : String
  description : Option String
  startAnchor : CaseDurationEventAnchor
  endAnchor : CaseDurationEventAnchor

/-- `CaseDurationComputation`. -/
structure CaseDurationComputation (Id : Type) where
  durationId : Id
  name : String
  description : Option String
  startEventId : Option Id
  endEventId : Option Id
  startedAt : Option Int
  endedAt : Option Int
  duration : Option Int
  deriving DecidableEq, Repr

/-- `_DurationEventMatch`: the id and the timestamp of an event. -/
abbrev DurationEventMatch (Id : Type) : Type := Id × Int

/-- `_anchor_requires_event_scan`. -/
def CaseDurationEventAnchor.requiresEventScan (anchor : CaseDurationEventAnchor) : Bool :=
  anchor.timestampPath ≠ "created_at" || anchor.hasUnsupportedFilters

/-- `_definition_requires_event_scan`. -/
def CaseDurationDefinitionRead.requiresEventScan {Id : Type}
    (definition : CaseDurationDefinitionRead Id) : Bool :=
  definition.startAnchor.requiresEventScan || definition.endAnchor.requiresEventScan

/-- The event types that an anchor accepts: a change of status may be recorded as
a closing or a reopening. -/
def CaseDurationEventAnchor.acceptsType (anchor : CaseDurationEventAnchor)
    (type : CaseEventType) : Bool :=
  if anchor.eventType = .statusChanged then
    type = .statusChanged || type = .caseClosed || type = .caseReopened
  else type = anchor.eventType

/-- The end of both computations: an end before the start is dropped. -/
def CaseDurationDefinitionRead.computation {Id : Type}
    (definition : CaseDurationDefinitionRead Id)
    (startMatch endMatch : Option (DurationEventMatch Id)) : CaseDurationComputation Id :=
  let endMatch :=
    match startMatch, endMatch with
    | some start, some finish => if finish.2 < start.2 then none else some finish
    | _, endMatch => endMatch
  { durationId := definition.id
    name := definition.name
    description := definition.description
    startEventId := startMatch.map Prod.fst
    endEventId := endMatch.map Prod.fst
    startedAt := startMatch.map Prod.snd
    endedAt := endMatch.map Prod.snd
    duration := do
      let started ← startMatch
      let ended ← endMatch
      return ended.2 - started.2 }

/-! ## The scan of events -/

/-- A value that `_resolve_field` comes to: `list` is a list of collected values, and `object`
a value of no other kind. -/
inductive AttrValue (ω : Type)
  | json (value : Json)
  | time (instant : Int)
  | enum (type : CaseEventType)
  | list (items : List (AttrValue ω))
  | object (value : ω)

/-- The keys of a payload that typed filters read. -/
def payloadKeys : List String :=
  ["new", "tag_ref", "changes", "field", "definition_id", "new_option_id"]

/-- The attributes of Python values.  An error is an exception of the read, and `none` is
`None` or no such attribute. -/
class PyAttributes (ω : Type) where
  /-- An attribute of a value that is neither a list nor a dictionary. -/
  ofValue : AttrValue ω → String → Except Unit (Option (AttrValue ω))
  /-- `_normalize_filter_value`: another enumeration, a tuple or a set. -/
  normalize : ω → AttrValue ω
  eqJson : ω → Json → Bool
  /-- What `json.loads` returns has no attribute of such a name. -/
  ofValue_json : ∀ value, ∀ key ∈ payloadKeys, ofValue (.json value) key = .ok none

/-- The ids of events, and the attributes of an event that are no columns.  The relation `case`
is loaded when it is read, which raises in an asynchronous session. -/
class EventAttributes (Id : Type) (ω : outParam Type) where
  ofId : Id → ω
  ofEvent : CaseEvent Id → String → Except Unit (Option (AttrValue ω))

namespace AttrValue

variable {ω : Type} [PyAttributes ω]

omit [PyAttributes ω] in
def items? : AttrValue ω → Option (List (AttrValue ω))
  | json (.arr items) => some (items.map json)
  | list items => some items
  | _ => none

/-- One part of a path, in a value that is no list or stands in one. -/
def getItem (part : String) : AttrValue ω → Except Unit (Option (AttrValue ω))
  | json (.obj entries) => .ok (((Json.obj entries).getValue? part).map json)
  | enum type =>
      if part = "value" then .ok (some (json (.str type.value)))
      else PyAttributes.ofValue (enum type) part
  | value => PyAttributes.ofValue value part

omit [PyAttributes ω] in
def ofCollected : List (AttrValue ω) → Option (AttrValue ω)
  | [] => none
  | collected => some (list collected)

/-- One part of a path.  In a list, the part is read in every element. -/
def getPart (part : String) (value : AttrValue ω) : Except Unit (Option (AttrValue ω)) :=
  match value.items? with
  | none => value.getItem part
  | some items =>
      (items.mapM (getItem part)).map fun collected => ofCollected (collected.filterMap id)

mutual

/-- `_normalize_filter_value`. -/
def normalize : AttrValue ω → AttrValue ω
  | enum type => json (.str type.value)
  | list items => list (normalizeAll items)
  | object value => PyAttributes.normalize value
  | value => value

def normalizeAll : List (AttrValue ω) → List (AttrValue ω)
  | [] => []
  | item :: items => item.normalize :: normalizeAll items

end

mutual

/-- `==` with a value of `json.loads`. -/
def pyEq : AttrValue ω → Json → Bool
  | json value, other => Json.pyEq value other
  | list items, .arr others => pyEqAll items others
  | object value, other => PyAttributes.eqJson value other
  | _, _ => false

def pyEqAll : List (AttrValue ω) → List Json → Bool
  | [], [] => true
  | item :: items, other :: others => item.pyEq other && pyEqAll items others
  | _, _ => false

end

omit [PyAttributes ω] in
/-- `coerce_to_utc_datetime`; `parse` reads an instant in a JSON value. -/
def toInstant (parse : Json → Option Int) : AttrValue ω → Option Int
  | json value => parse value
  | time instant => some instant
  | _ => none

end AttrValue

section Fields

variable {Id ω : Type} [PyAttributes ω] [EventAttributes Id ω] (event : CaseEvent Id)

omit [PyAttributes ω] in
/-- `getattr(event, part, None)`. -/
def CaseEvent.getattr (part : String) : Except Unit (Option (AttrValue ω)) :=
  if part = "data" then
    match event.data with
    | some .null => .ok none
    | data => .ok (data.map .json)
  else if part = "created_at" then .ok (some (.time event.createdAt))
  else if part = "updated_at" then .ok (some (.time event.updatedAt))
  else if part = "type" then .ok (some (.enum event.type))
  else if part = "surrogate_id" then .ok (some (.json (.int event.surrogateId)))
  else if part = "user_id" then .ok (event.userId.map fun id => .object (EventAttributes.ofId id))
  else if part = "id" then .ok (some (.object (EventAttributes.ofId event.id)))
  else if part = "case_id" then .ok (some (.object (EventAttributes.ofId event.caseId)))
  else if part = "workspace_id" then .ok (some (.object (EventAttributes.ofId event.workspaceId)))
  else EventAttributes.ofEvent event part

/-- `path.split(".")`. -/
def pathParts (path : String) : List String :=
  (path.toList.splitOn '.').map String.ofList

/-- One turn of the loop of `_resolve_field`. -/
def readPart (value : Except Unit (Option (AttrValue ω))) (part : String) :
    Except Unit (Option (AttrValue ω)) :=
  match value with
  | .ok (some value) => value.getPart part
  | value => value

/-- `_resolve_field`. -/
def CaseEvent.resolveField (path : String) : Except Unit (Option (AttrValue ω)) :=
  match pathParts path with
  | [] => .ok none
  | first :: rest => rest.foldl readPart (event.getattr first)

/-- One turn of the loop of `_matches_filters`. -/
def matchesFilter (actual : Option (AttrValue ω)) : Json → Bool
  | .arr expected =>
      match actual.map AttrValue.normalize with
      | none | some (.json .null) => false
      | some actual =>
          match actual.items? with
          | some items => items.any fun item => expected.any item.pyEq
          | none => expected.any actual.pyEq
  | expected =>
      match actual.map AttrValue.normalize with
      | none => Json.pyEq .null expected
      | some actual =>
          match actual.items? with
          | some items => items.any fun item => item.pyEq expected
          | none => actual.pyEq expected

/-- `_matches_filters`. -/
def CaseEvent.checkFilters : List (String × Json) → Except Unit Bool
  | [] => .ok true
  | filter :: filters =>
      match event.resolveField filter.1 with
      | .error error => .error error
      | .ok actual => if matchesFilter actual filter.2 then checkFilters filters else .ok false

/-- The filters match; they do not where a read raises. -/
def matchesMapping (filters : List (String × Json)) : Bool :=
  match event.checkFilters filters with
  | .ok matched => matched
  | .error _ => false

/-! ### Payload paths

What a typed filter reads in a payload does not raise. -/

def isPayloadPath (path : String) : Bool :=
  match pathParts path with
  | [] => false
  | first :: keys => first = "data" && keys.all (· ∈ payloadKeys)

namespace AttrValue

variable {key : String} (hKey : key ∈ payloadKeys)
include hKey

theorem getItem_json (value : Json) :
    getItem key (json value : AttrValue ω) = .ok ((value.getValue? key).map json) := by
  cases value with
  | obj entries => rfl
  | null | bool | int | float | str | arr => exact PyAttributes.ofValue_json _ key hKey

theorem getPart_json (value : Json) (hItems : (json value : AttrValue ω).items? = none) :
    (json value : AttrValue ω).getPart key = .ok ((value.getValue? key).map json) := by
  unfold getPart
  rw [hItems]
  exact getItem_json hKey value

theorem mapM_getItem (items : List Json) :
    (items.map json).mapM (getItem key : AttrValue ω → _) =
      .ok (items.map fun item => (item.getValue? key).map json) := by
  induction items with
  | nil => rfl
  | cons item items ih =>
      rw [List.map_cons, List.mapM_cons, getItem_json hKey, ih]
      rfl

theorem getPart_items {value : AttrValue ω} {items : List Json}
    (hItems : value.items? = some (items.map json)) :
    value.getPart key =
      .ok (ofCollected ((items.filterMap fun item => item.getValue? key).map json)) := by
  unfold getPart
  rw [hItems]
  dsimp only
  rw [mapM_getItem hKey]
  show Except.ok (ofCollected ((items.map _).filterMap id)) = _
  rw [List.filterMap_map, List.map_filterMap]
  rfl

omit hKey in
theorem normalizeAll_json (items : List Json) :
    normalizeAll (items.map json : List (AttrValue ω)) = items.map json := by
  induction items with
  | nil => rfl
  | cons item items ih =>
      rw [List.map_cons, normalizeAll, ih]
      rfl

omit hKey [PyAttributes ω] in
/-- The value is one of `json.loads`, or is collected from some. -/
def IsPayload : AttrValue ω → Prop
  | json _ => True
  | list items => ∃ values : List Json, items = values.map json
  | _ => False

theorem IsPayload.getPart {value : AttrValue ω} (hValue : value.IsPayload) :
    ∃ found, value.getPart key = .ok found ∧ ∀ next ∈ found, next.IsPayload := by
  have hCollected (items : List Json) :
      ∀ next ∈ ofCollected (items.map (json : Json → AttrValue ω)), next.IsPayload := by
    intro next hNext
    cases items with
    | nil => cases hNext
    | cons item items =>
        obtain rfl := Option.some.inj hNext
        exact ⟨item :: items, rfl⟩
  cases value with
  | list items =>
      obtain ⟨values, rfl⟩ := hValue
      exact ⟨_, getPart_items hKey rfl, hCollected _⟩
  | json value =>
      cases value with
      | arr items => exact ⟨_, getPart_items hKey rfl, hCollected _⟩
      | null | bool | int | float | str | obj =>
          refine ⟨_, getPart_json hKey _ rfl, fun next hNext => ?_⟩
          obtain ⟨found, -, rfl⟩ := Option.map_eq_some_iff.mp hNext
          trivial
  | time | enum | object => cases hValue

end AttrValue

theorem CaseEvent.resolveField_payload {path : String} (hPath : isPayloadPath path = true) :
    ∃ found, event.resolveField path = .ok found := by
  unfold isPayloadPath at hPath
  unfold CaseEvent.resolveField
  cases hParts : pathParts path with
  | nil => exact ⟨none, rfl⟩
  | cons first keys =>
      rw [hParts, Bool.and_eq_true, decide_eq_true_eq, List.all_eq_true] at hPath
      obtain ⟨rfl, hKeys⟩ := hPath
      have hData : ∃ found, event.getattr "data" = .ok found ∧
          ∀ next ∈ found, AttrValue.IsPayload next := by
        unfold CaseEvent.getattr
        rw [if_pos rfl]
        cases event.data with
        | none => exact ⟨none, rfl, by simp⟩
        | some data => cases data <;> exact ⟨_, rfl, by simp [AttrValue.IsPayload]⟩
      obtain ⟨found, hFound, hPayload⟩ := hData
      dsimp only
      rw [hFound]
      clear hFound hParts
      induction keys generalizing found with
      | nil => exact ⟨found, rfl⟩
      | cons key keys ih =>
          have hKey : key ∈ payloadKeys := of_decide_eq_true (hKeys key List.mem_cons_self)
          have hRest := fun other hOther => hKeys other (List.mem_cons_of_mem _ hOther)
          cases found with
          | none => exact ih hRest none (by simp)
          | some value =>
              obtain ⟨next, hNext, hNextPayload⟩ := (hPayload value rfl).getPart hKey
              rw [List.foldl_cons, readPart, hNext]
              exact ih hRest next hNextPayload

/-- What is read at a path, `none` also where the read raises. -/
def CaseEvent.field? (path : String) : Option (AttrValue ω) :=
  match event.resolveField path with
  | .ok found => found
  | .error _ => none

theorem CaseEvent.field?_eq {path : String} {found : Option (AttrValue ω)}
    (hFound : event.resolveField path = .ok found) : event.field? path = found := by
  unfold CaseEvent.field?
  rw [hFound]

theorem matchesMapping_eq_all {filters : List (String × Json)}
    (hPaths : ∀ filter ∈ filters, isPayloadPath filter.1 = true) :
    matchesMapping event filters =
      filters.all fun filter => matchesFilter (event.field? filter.1) filter.2 := by
  induction filters with
  | nil => rfl
  | cons filter filters ih =>
      obtain ⟨found, hFound⟩ := event.resolveField_payload (hPaths filter List.mem_cons_self)
      have hRest := ih fun other hOther => hPaths other (List.mem_cons_of_mem _ hOther)
      unfold matchesMapping CaseEvent.checkFilters
      rw [List.all_cons, ← hRest, event.field?_eq hFound, hFound]
      dsimp only
      cases matchesFilter found filter.2 with
      | true => rfl
      | false => rfl

end Fields

/-- `_anchor_filters_to_field_filters`. -/
def CaseDurationEventFilters.fieldFilters (filters : CaseDurationEventFilters) :
    List (String × Json) :=
  (if filters.newValues.isEmpty then []
    else [("data.new", .arr (filters.newValues.map .str))]) ++
  (if filters.tagRefs.isEmpty then []
    else [("data.tag_ref", .arr (filters.tagRefs.map .str))]) ++
  (if filters.fieldIds.isEmpty then []
    else [("data.changes.field", .arr (filters.fieldIds.map .str))]) ++
  (match filters.dropdownDefinitionId with
    | none => []
    | some definitionId => [("data.definition_id", .str definitionId)]) ++
  (if filters.dropdownOptionIds.isEmpty then []
    else [("data.new_option_id", .arr (filters.dropdownOptionIds.map .str))])

theorem CaseDurationEventFilters.isPayloadPath_fieldFilters
    (filters : CaseDurationEventFilters) :
    ∀ filter ∈ filters.fieldFilters, isPayloadPath filter.1 = true := by
  have hPaths : ∀ path ∈ ["data.new", "data.tag_ref", "data.changes.field", "data.definition_id",
      "data.new_option_id"], isPayloadPath path = true := by
    decide
  intro filter hFilter
  apply hPaths
  unfold fieldFilters at hFilter
  simp only [List.mem_append] at hFilter
  rcases hFilter with (((hFilter | hFilter) | hFilter) | hFilter) | hFilter
  all_goals
    split at hFilter
    all_goals simp_all

namespace CaseDurationEventAnchor

variable (anchor : CaseDurationEventAnchor)

/-- The filters that `_matches_anchor_filters` checks. -/
def fieldFilters : List (String × Json) :=
  if anchor.hasUnsupportedFilters then anchor.legacyFieldFilters else anchor.filters.fieldFilters

variable {Id ω : Type} [PyAttributes ω] [EventAttributes Id ω]

/-- `_matches_anchor_filters`. -/
def matchesFilters (event : CaseEvent Id) : Bool :=
  matchesMapping event anchor.fieldFilters

/-- `_extract_timestamp`. -/
def extractTimestamp (parse : Json → Option Int) (event : CaseEvent Id) : Option Int :=
  match event.resolveField anchor.timestampPath with
  | .ok (some value) => value.toInstant parse
  | _ => none

omit [PyAttributes ω] [EventAttributes Id ω] in
/-- `timestamp < best_match[1]` or its counterpart for the last match. -/
def improves (timestamp : Int) : Option (CaseEvent Id × Int) → Bool
  | none => true
  | some best =>
      match anchor.selection with
      | .first => timestamp < best.2
      | .last => timestamp ≥ best.2

/-- The loop of `_find_matching_event`. -/
def scan (parse : Json → Option Int) (earliestAfter : Option Int) :
    Option (CaseEvent Id × Int) → List (CaseEvent Id) → Option (CaseEvent Id × Int)
  | best, [] => best
  | best, event :: events =>
      let createdAtOrdered : Bool := anchor.timestampPath = "created_at"
      let reverseScan : Bool := createdAtOrdered && anchor.selection = .last
      if reverseScan && earliestAfter.any fun earliest => event.createdAt < earliest then best
      else if !anchor.acceptsType event.type then scan parse earliestAfter best events
      else if !anchor.matchesFilters event then scan parse earliestAfter best events
      else
        match anchor.extractTimestamp parse event with
        | none => scan parse earliestAfter best events
        | some timestamp =>
            if earliestAfter.any fun earliest => timestamp < earliest then
              scan parse earliestAfter best events
            else if createdAtOrdered then some (event, timestamp)
            else
              scan parse earliestAfter
                (if anchor.improves timestamp best then some (event, timestamp) else best) events

/-- `_find_matching_event`. -/
def findMatchingEvent (parse : Json → Option Int) (events : List (CaseEvent Id))
    (earliestAfter : Option Int) : Option (CaseEvent Id × Int) :=
  let reverseScan : Bool := anchor.timestampPath = "created_at" && anchor.selection = .last
  anchor.scan parse earliestAfter none (if reverseScan then events.reverse else events)

end CaseDurationEventAnchor

/-- `_compute_durations_from_events`. -/
def computeDurationsFromEvents {Id ω : Type} [PyAttributes ω] [EventAttributes Id ω]
    (parse : Json → Option Int)
    (events : List (CaseEvent Id)) (definitions : List (CaseDurationDefinitionRead Id)) :
    List (CaseDurationComputation Id) :=
  definitions.map fun definition =>
    let startMatch := definition.startAnchor.findMatchingEvent parse events none
    let endMatch :=
      definition.endAnchor.findMatchingEvent parse events (startMatch.map Prod.snd)
    definition.computation (startMatch.map fun found => (found.1.id, found.2))
      (endMatch.map fun found => (found.1.id, found.2))

/-! ## The filter conditions in SQL -/

/-- `jsonb_typeof`. -/
def jsonbTypeof (value : Option Json) : Option String :=
  value.map fun value =>
    match value with
    | .null => "null"
    | .bool _ => "boolean"
    | .int _ | .float _ => "number"
    | .str _ => "string"
    | .arr _ => "array"
    | .obj _ => "object"

/-- `jsonb_array_elements`, of an array or of `NULL`. -/
def jsonbArrayElements : Option Json → List Json
  | some (.arr items) => items
  | _ => []

/-- The elements of an array; any other value counts as the empty array. -/
def arrayElements (value : Option Json) : List Json :=
  jsonbArrayElements (Sql.caseWhen
    (Sql.equal (fun kind other => decide (kind = other)) (jsonbTypeof value) (some "array"))
    value (some (.arr [])))

/-- `_build_jsonb_list_filter`. -/
def buildJsonbListFilter (value : Option Json) (expected : List String) : Sql.Truth :=
  if expected.isEmpty then some false
  else
    (Sql.isIn Json.jsonbEq value (expected.map .str)).or
      (Sql.exists? (arrayElements value) fun elem =>
        Sql.isIn Json.jsonbEq (some elem) (expected.map .str))

/-- `_build_jsonb_change_field_filter`. -/
def buildJsonbChangeFieldFilter (changes : Option Json) (fieldIds : List String) : Sql.Truth :=
  if fieldIds.isEmpty then some false
  else
    Sql.exists? (arrayElements changes) fun elem =>
      Sql.isIn Json.jsonbEq (elem.get? "field") (fieldIds.map .str)

/-- `CaseEvent.data[key]`. -/
def CaseEvent.dataAt {Id : Type} (event : CaseEvent Id) (key : String) : Option Json :=
  event.data.bind fun data => data.get? key

/-- `_build_sql_filter_conditions`, on one row. -/
def CaseDurationEventAnchor.sqlFilterConditions {Id : Type} (anchor : CaseDurationEventAnchor)
    (event : CaseEvent Id) : List Sql.Truth :=
  let filters := anchor.filters
  if anchor.hasUnsupportedFilters then [some false]
  else
    (if filters.newValues.isEmpty then []
      else [buildJsonbListFilter (event.dataAt "new") filters.newValues]) ++
    (if filters.tagRefs.isEmpty then []
      else [buildJsonbListFilter (event.dataAt "tag_ref") filters.tagRefs]) ++
    (if filters.fieldIds.isEmpty then []
      else [buildJsonbChangeFieldFilter (event.dataAt "changes") filters.fieldIds]) ++
    (match filters.dropdownDefinitionId with
      | none => []
      | some definitionId =>
          [Sql.equal Json.jsonbEq (event.dataAt "definition_id") (some (.str definitionId))]) ++
    (if filters.dropdownOptionIds.isEmpty then []
      else [buildJsonbListFilter (event.dataAt "new_option_id") filters.dropdownOptionIds])

/-! ## The queries -/

inductive FrozenFilter
  | text (value : String)
  | tuple (values : List String)
  deriving DecidableEq, Repr

/-- `filters.model_dump(exclude_defaults=True)`, frozen and sorted. -/
def CaseDurationEventFilters.frozenItems (filters : CaseDurationEventFilters) :
    List (String × FrozenFilter) :=
  List.insertionSort (fun item other => item.1 ≤ other.1)
    ((if filters.newValues.isEmpty then [] else [("new_values", .tuple filters.newValues)]) ++
    (if filters.tagRefs.isEmpty then [] else [("tag_refs", .tuple filters.tagRefs)]) ++
    (if filters.fieldIds.isEmpty then [] else [("field_ids", .tuple filters.fieldIds)]) ++
    (match filters.dropdownDefinitionId with
      | none => []
      | some definitionId => [("dropdown_definition_id", .text definitionId)]) ++
    (if filters.dropdownOptionIds.isEmpty then []
      else [("dropdown_option_ids", .tuple filters.dropdownOptionIds)]))

/-- The key that `_anchor_cache_key` returns. -/
structure AnchorCacheKey where
  eventType : CaseEventType
  selection : CaseDurationAnchorSelection
  filterItems : List (String × FrozenFilter)
  hasUnsupportedFilters : Bool
  deriving DecidableEq, Repr

/-- `_anchor_cache_key`. -/
def CaseDurationEventAnchor.cacheKey (anchor : CaseDurationEventAnchor) : AnchorCacheKey where
  eventType := anchor.eventType
  selection := anchor.selection
  filterItems := anchor.filters.frozenItems
  hasUnsupportedFilters := anchor.hasUnsupportedFilters

section Queries

variable {Id : Type} [LinearOrder Id]

/-- `ORDER BY case_id ASC, created_at ASC, surrogate_id ASC`. -/
def CaseEvent.ascending (event : CaseEvent Id) : Id ×ₗ Int ×ₗ Int :=
  toLex (event.caseId, toLex (event.createdAt, event.surrogateId))

/-- `ORDER BY case_id ASC, created_at DESC, surrogate_id DESC`. -/
def CaseEvent.descending (event : CaseEvent Id) : Id ×ₗ Intᵒᵈ ×ₗ Intᵒᵈ :=
  toLex (event.caseId, toLex (OrderDual.toDual event.createdAt, OrderDual.toDual event.surrogateId))

/-- A row of `CaseEvent`, joined with its bound where there are bounds. -/
abbrev BoundedEvent (Id : Type) : Type := CaseEvent Id × Option Int

/-- `_sql_anchor_order_by`, after the case. -/
def CaseDurationEventAnchor.order (anchor : CaseDurationEventAnchor)
    (rows : List (BoundedEvent Id)) : List (BoundedEvent Id) :=
  match anchor.selection with
  | .last => Sql.orderBy (fun row : BoundedEvent Id => row.1.descending) rows
  | .first => Sql.orderBy (fun row : BoundedEvent Id => row.1.ascending) rows

/-- The database of one service: the rows of the event table, and the workspace
of the service. -/
structure CaseEventStore (Id : Type) where
  workspaceId : Id
  rows : List (CaseEvent Id)

namespace CaseEventStore

variable (store : CaseEventStore Id)

/-- The conditions of `_find_matching_events_db` on one row. -/
def anchorConditions (caseIds : List Id) (anchor : CaseDurationEventAnchor) (bounded : Bool)
    (row : BoundedEvent Id) : List Sql.Truth :=
  [some (decide (row.1.workspaceId = store.workspaceId)),
    if bounded then
      Sql.Truth.or (some row.2.isNone)
        (row.2.map fun earliestAfter => decide (row.1.createdAt ≥ earliestAfter))
    else some (decide (row.1.caseId ∈ caseIds)),
    some (anchor.acceptsType row.1.type)] ++ anchor.sqlFilterConditions row.1

/-- `_find_matching_events_db`.  With bounds, the events are joined with one row
of bounds for each case id. -/
def findMatchingEventsDb (caseIds : List Id) (anchor : CaseDurationEventAnchor)
    (earliestAfterByCase : Option (Dict Id (Option Int))) : Dict Id (DurationEventMatch Id) :=
  if caseIds.isEmpty then ∅
  else
    let joined : List (BoundedEvent Id) :=
      match earliestAfterByCase with
      | none => store.rows.map fun event => (event, none)
      | some bounds => store.rows.flatMap fun event =>
          (caseIds.filter fun caseId => event.caseId = caseId).map fun caseId =>
            (event, bounds.getD caseId none)
    let selected :=
      Sql.where? (store.anchorConditions caseIds anchor earliestAfterByCase.isSome) joined
    Sql.byKey (fun row => row.1.caseId) (fun row => (row.1.id, row.1.createdAt))
      (Sql.distinctOn (fun row => row.1.caseId) (anchor.order selected))

/-! ## Batches of cases -/

/-- The caches and the results of the loop over the definitions. -/
structure FastState (Id : Type) where
  startMatchCache : Dict AnchorCacheKey (Dict Id (DurationEventMatch Id)) := ∅
  endMatchCache : Dict (AnchorCacheKey × AnchorCacheKey) (Dict Id (DurationEventMatch Id)) := ∅
  resultsByCase : Dict Id (List (CaseDurationComputation Id))

/-- `cache[key]`, filled by `compute` when it is missing: the cache and the
entry. -/
def cached {K V : Type} [DecidableEq K] (cache : Dict K V) (key : K) (compute : Unit → V) :
    Dict K V × V :=
  match cache.lookup key with
  | some value => (cache, value)
  | none => (cache.insert key (compute ()), compute ())

/-- One turn of the loop of `_compute_durations_fast_from_db_for_cases`. -/
def fastStep (caseIds : List Id) (state : FastState Id)
    (definition : CaseDurationDefinitionRead Id) : FastState Id :=
  let startAnchorKey := definition.startAnchor.cacheKey
  let (startMatchCache, startMatches) := cached state.startMatchCache startAnchorKey fun _ =>
    store.findMatchingEventsDb caseIds definition.startAnchor none
  let earliestAfterByCase : Dict Id (Option Int) := caseIds.foldl
    (fun bounds caseId => bounds.insert caseId ((startMatches.lookup caseId).map Prod.snd)) ∅
  let endAnchorKey := (definition.endAnchor.cacheKey, startAnchorKey)
  let (endMatchCache, endMatches) := cached state.endMatchCache endAnchorKey fun _ =>
    store.findMatchingEventsDb caseIds definition.endAnchor (some earliestAfterByCase)
  { startMatchCache := startMatchCache
    endMatchCache := endMatchCache
    resultsByCase := caseIds.foldl
      (fun results caseId => results.insert caseId (results.getD caseId [] ++
        [definition.computation (startMatches.lookup caseId) (endMatches.lookup caseId)]))
      state.resultsByCase }

/-- `_compute_durations_fast_from_db_for_cases`. -/
def computeDurationsFastFromDbForCases (caseIds : List Id)
    (definitions : List (CaseDurationDefinitionRead Id)) :
    Dict Id (List (CaseDurationComputation Id)) :=
  let empty : Dict Id (List (CaseDurationComputation Id)) :=
    caseIds.foldl (fun results caseId => results.insert caseId []) ∅
  if caseIds.isEmpty then empty
  else
    let start : FastState Id := { resultsByCase := empty }
    (definitions.foldl (store.fastStep caseIds) start).resultsByCase

/-- `_list_case_events_for_cases`, for one of the cases. -/
def listCaseEventsForCases (caseIds : List Id) (caseId : Id) : List (CaseEvent Id) :=
  (Sql.orderBy CaseEvent.ascending (store.rows.filter fun event =>
    event.workspaceId = store.workspaceId && event.caseId ∈ caseIds)).filter
      fun event => event.caseId = caseId

variable {ω : Type} [PyAttributes ω] [EventAttributes Id ω]

/-- `_compute_durations_from_events_for_cases`. -/
def computeDurationsFromEventsForCases (parse : Json → Option Int) (caseIds : List Id)
    (definitions : List (CaseDurationDefinitionRead Id)) :
    Dict Id (List (CaseDurationComputation Id)) :=
  if caseIds.isEmpty then ∅
  else
    caseIds.foldl (fun results caseId => results.insert caseId
      (computeDurationsFromEvents parse (store.listCaseEventsForCases caseIds caseId)
        definitions)) ∅

/-- `_compute_durations_from_db_for_cases`. -/
def computeDurationsFromDbForCases (parse : Json → Option Int) (caseIds : List Id)
    (definitions : List (CaseDurationDefinitionRead Id)) :
    Dict Id (List (CaseDurationComputation Id)) :=
  let fallbackDefinitions := definitions.filter fun definition => definition.requiresEventScan
  if fallbackDefinitions.isEmpty then
    store.computeDurationsFastFromDbForCases caseIds definitions
  else
    let fastDefinitions := definitions.filter fun definition => !definition.requiresEventScan
    let fastResults := store.computeDurationsFastFromDbForCases caseIds fastDefinitions
    let fallbackResults :=
      store.computeDurationsFromEventsForCases parse caseIds fallbackDefinitions
    caseIds.foldl (fun merged caseId =>
      let byDefinition : Dict Id (CaseDurationComputation Id) :=
        (fastResults.getD caseId [] ++ fallbackResults.getD caseId []).foldl
          (fun byDefinition computation =>
            byDefinition.insert computation.durationId computation) ∅
      merged.insert caseId
        (definitions.filterMap fun definition => byDefinition.lookup definition.id)) ∅

/-- `compute_durations`: each case of the batch once. -/
def computeDurations (parse : Json → Option Int) (cases : List Id)
    (definitions : List (CaseDurationDefinitionRead Id)) :
    Dict Id (List (CaseDurationComputation Id)) :=
  if cases.isEmpty then ∅
  else if definitions.isEmpty then
    cases.foldl (fun results caseId => results.insert caseId []) ∅
  else
    store.computeDurationsFromDbForCases parse (Sql.distinctOn id cases) definitions

end CaseEventStore
end Queries

/-! ## UUIDs as numbers -/

/-- `UUID.time`. -/
def uuidTime (id : Nat) : Nat :=
  id / 2 ^ 64 % 2 ^ 12 * 2 ^ 48 + id / 2 ^ 80 % 2 ^ 16 * 2 ^ 32 + id / 2 ^ 96 % 2 ^ 32

/-- The numbers among the attributes of a UUID. -/
instance : PyAttributes Nat where
  ofValue
    | .object id, "time" => .ok (some (.json (.int (uuidTime id))))
    | .object id, "int" => .ok (some (.json (.int id)))
    | _, _ => .ok none
  normalize := .object
  eqJson _ _ := false
  ofValue_json _ _ _ := rfl

instance : EventAttributes Nat Nat where
  ofId := id
  ofEvent _ part := if part = "case" then .error () else .ok none

end Tracecat
