import Tracecat.Cases.Durations

/-!
# The filters of an anchor

On payloads that conform to the event schemas, the JSONB conditions of an anchor
select the events that its Python filters match.
-/

namespace Tracecat

variable {Id ω : Type}

/-! ## The payload along both paths -/

/-- A JSON value that Python reads as `None` when it is missing or null. -/
def nonNull : Option Json → Option Json
  | some .null => none
  | value => value

/-- The fields of a list of changes. -/
def changedFields : Option Json → Option (AttrValue ω)
  | some (.arr items) =>
      AttrValue.ofCollected ((items.filterMap fun item => item.getValue? "field").map .json)
  | _ => none

section Payload

variable [PyAttributes ω] [EventAttributes Id ω] {event : CaseEvent Id}
  (hConforms : event.Conforms)
include hConforms

namespace CaseEvent.Conforms

theorem readPart_data (key : String) :
    readPart (event.getattr "data") key = .ok ((nonNull (event.dataAt key)).map .json) := by
  unfold Conforms at hConforms
  unfold CaseEvent.dataAt CaseEvent.getattr
  rw [if_pos rfl]
  cases hValue : event.data with
  | none => rfl
  | some data =>
      rw [hValue] at hConforms
      cases data with
      | obj entries => rfl
      | null => rfl
      | bool | int | float | str | arr => cases hConforms

theorem field_data (key : String) {path : String} (hPath : pathParts path = ["data", key]) :
    event.field? path = (nonNull (event.dataAt key)).map .json := by
  apply CaseEvent.field?_eq
  unfold CaseEvent.resolveField
  rw [hPath]
  exact hConforms.readPart_data key

theorem field_changes (hChanges : ∀ entries, event.dataAt "changes" ≠ some (.obj entries)) :
    event.field? "data.changes.field" = changedFields (event.dataAt "changes") := by
  have hField : "field" ∈ payloadKeys := by decide
  apply CaseEvent.field?_eq
  unfold CaseEvent.resolveField
  rw [show pathParts "data.changes.field" = ["data", "changes", "field"] from rfl]
  dsimp only [List.foldl]
  rw [hConforms.readPart_data]
  cases hValue : event.dataAt "changes" with
  | none => rfl
  | some changes =>
      cases changes with
      | null => rfl
      | obj entries => exact absurd hValue (hChanges entries)
      | arr items =>
          exact @AttrValue.getPart_items ω _ _ hField (.json (.arr items)) items rfl
      | bool flag => exact AttrValue.getPart_json hField (.bool flag) rfl
      | int number => exact AttrValue.getPart_json hField (.int number) rfl
      | float number => exact AttrValue.getPart_json hField (.float number) rfl
      | str text => exact AttrValue.getPart_json hField (.str text) rfl

end CaseEvent.Conforms

end Payload

/-! ## One filter -/

theorem any_pyEq_iff (value : Json) (texts : List String) :
    (texts.map Json.str).any (Json.pyEq value) = true ↔ ∃ text ∈ texts, value = .str text := by
  simp [Json.pyEq_str]

theorem holds_isIn_texts (value : Option Json) (texts : List String) :
    (Sql.isIn Json.jsonbEq value (texts.map .str)).holds = true ↔
      ∃ text ∈ texts, value = some (.str text) := by
  rw [Sql.holds_isIn]
  constructor
  · rintro ⟨found, rfl, _, hMem, hEq⟩
    obtain ⟨text, hText, rfl⟩ := List.mem_map.mp hMem
    exact ⟨text, hText, congrArg some ((Json.jsonbEq_str found text).mp hEq)⟩
  · rintro ⟨text, hText, rfl⟩
    exact ⟨_, rfl, _, List.mem_map_of_mem hText, (Json.jsonbEq_str _ text).mpr rfl⟩

theorem arrayElements_eq (value : Option Json) :
    arrayElements value = match value with
      | some (.arr items) => items
      | _ => [] := by
  cases value with
  | none => rfl
  | some value => cases value <;> rfl

section Filters

variable [PyAttributes ω]

theorem matchesFilter_texts (value : Option Json) {texts : List String}
    (hSome : texts.isEmpty = false) :
    matchesFilter ((nonNull value).map (.json : Json → AttrValue ω)) (.arr (texts.map .str)) =
      (buildJsonbListFilter value texts).holds := by
  rw [Bool.eq_iff_iff]
  unfold buildJsonbListFilter
  rw [hSome, if_neg Bool.false_ne_true, Sql.Truth.holds_or, Bool.or_eq_true, holds_isIn_texts,
    Sql.holds_exists?, arrayElements_eq]
  simp only [holds_isIn_texts]
  cases value with
  | none => simp [matchesFilter, nonNull]
  | some value =>
      cases value with
      | arr items =>
          simp [matchesFilter, nonNull, AttrValue.normalize, AttrValue.items?, AttrValue.pyEq,
            Json.pyEq_str]
      | null | bool | int | float | str | obj =>
          simp [matchesFilter, nonNull, AttrValue.normalize, AttrValue.items?, AttrValue.pyEq,
            Json.pyEq_str]

theorem matchesFilter_text (value : Option Json) (text : String)
    (hScalar : ∀ items, value ≠ some (.arr items)) :
    matchesFilter ((nonNull value).map (.json : Json → AttrValue ω)) (.str text) =
      (Sql.equal Json.jsonbEq value (some (.str text))).holds := by
  rw [Bool.eq_iff_iff, Sql.holds_equal]
  cases value with
  | none => simp [matchesFilter, nonNull, Json.pyEq_str]
  | some value =>
      cases value with
      | arr items => exact absurd rfl (hScalar items)
      | null | bool | int | float | str | obj =>
          simp [matchesFilter, nonNull, AttrValue.normalize, AttrValue.items?, AttrValue.pyEq,
            Json.pyEq_str, Json.jsonbEq_str]

theorem matchesFilter_changes (changes : Option Json) {fieldIds : List String}
    (hSome : fieldIds.isEmpty = false) :
    matchesFilter (changedFields changes : Option (AttrValue ω)) (.arr (fieldIds.map .str)) =
      (buildJsonbChangeFieldFilter changes fieldIds).holds := by
  rw [Bool.eq_iff_iff]
  unfold buildJsonbChangeFieldFilter
  rw [hSome, if_neg Bool.false_ne_true, Sql.holds_exists?, arrayElements_eq]
  simp only [holds_isIn_texts]
  cases changes with
  | none => simp [matchesFilter, changedFields]
  | some changes =>
      cases changes with
      | null | bool | int | float | str | obj => simp [matchesFilter, changedFields]
      | arr items =>
          -- the texts among the collected fields are the texts among the fields
          have hCollected (text : String) :
              .str text ∈ items.filterMap (fun item => item.getValue? "field") ↔
                ∃ item ∈ items, item.get? "field" = some (.str text) := by
            simp only [List.mem_filterMap, Json.getValue?_eq_some]
            simp
          have hFields : (∃ elem ∈ items, ∃ text ∈ fieldIds, elem.get? "field" = some (.str text)) ↔
              ∃ text ∈ fieldIds, .str text ∈
                items.filterMap fun item => item.getValue? "field" := by
            simp only [hCollected]
            constructor
            · rintro ⟨elem, hElem, text, hText, hEq⟩
              exact ⟨text, hText, elem, hElem, hEq⟩
            · rintro ⟨text, hText, elem, hElem, hEq⟩
              exact ⟨elem, hElem, text, hText, hEq⟩
          rw [hFields]
          unfold changedFields
          dsimp only
          generalize (items.filterMap fun item => item.getValue? "field") = collected
          cases collected with
          | nil => simp [matchesFilter, AttrValue.ofCollected]
          | cons first rest =>
              have hAny (value : Json) : (fieldIds.map Json.str).any
                  (AttrValue.pyEq (.json value : AttrValue ω)) = true ↔
                    ∃ text ∈ fieldIds, value = .str text :=
                any_pyEq_iff value fieldIds
              show ((AttrValue.normalizeAll ((first :: rest).map .json)).any fun item =>
                (fieldIds.map Json.str).any item.pyEq) = true ↔ _
              rw [AttrValue.normalizeAll_json, List.any_map, List.any_eq_true]
              simp only [Function.comp_apply, hAny]
              constructor
              · rintro ⟨value, hValue, text, hText, rfl⟩
                exact ⟨text, hText, hValue⟩
              · rintro ⟨text, hText, hValue⟩
                exact ⟨_, hValue, text, hText, rfl⟩

end Filters

/-! ## All filters of an anchor -/

theorem CaseEventType.definitionId_text (type : CaseEventType) :
    ∀ field ∈ type.payloadFields, field.1 = "definition_id" → field.2 = .text := by
  cases type <;> decide

theorem CaseEventType.changes_fieldDiffs (type : CaseEventType) :
    ∀ field ∈ type.payloadFields, field.1 = "changes" → field.2 = .fieldDiffs := by
  cases type <;> decide

namespace CaseEvent.Conforms

variable {event : CaseEvent Id} (hConforms : event.Conforms)
include hConforms

theorem admits_dataAt {key : String} {kind : PayloadKind} {value : Json}
    (hKind : ∀ type : CaseEventType, ∀ field ∈ type.payloadFields, field.1 = key → field.2 = kind)
    (hValue : event.dataAt key = some value) : value = .null ∨ kind.Admits value := by
  obtain ⟨data, hData, hEntry⟩ := Option.bind_eq_some_iff.mp hValue
  by_cases hNull : value = .null
  · exact Or.inl hNull
  · exact Or.inr (hConforms.admits hKind hData (Json.getValue?_eq_some.mpr ⟨hEntry, hNull⟩))

theorem matchesFilters_eq [PyAttributes ω] [EventAttributes Id ω]
    {anchor : CaseDurationEventAnchor} (hSupported : anchor.hasUnsupportedFilters = false) :
    anchor.matchesFilters event = (anchor.sqlFilterConditions event).all Sql.Truth.holds := by
  have hDefinition : ∀ items, event.dataAt "definition_id" ≠ some (.arr items) := by
    intro items hEq
    rcases hConforms.admits_dataAt CaseEventType.definitionId_text hEq with hNull | ⟨_, hText⟩
    · cases hNull
    · cases hText
  have hChanges : ∀ entries, event.dataAt "changes" ≠ some (.obj entries) := by
    intro entries hEq
    rcases hConforms.admits_dataAt CaseEventType.changes_fieldDiffs hEq with
      hNull | ⟨_, hList, -⟩
    · cases hNull
    · cases hList
  unfold CaseDurationEventAnchor.matchesFilters CaseDurationEventAnchor.fieldFilters
    CaseDurationEventAnchor.sqlFilterConditions
  simp only [hSupported, Bool.false_eq_true, if_false]
  rw [matchesMapping_eq_all event anchor.filters.isPayloadPath_fieldFilters]
  unfold CaseDurationEventFilters.fieldFilters
  simp only [List.all_append]
  refine congrArg₂ _ (congrArg₂ _ (congrArg₂ _ (congrArg₂ _ ?_ ?_) ?_) ?_) ?_
  · cases hEmpty : anchor.filters.newValues.isEmpty with
    | true => rfl
    | false =>
        simp only [Bool.false_eq_true, if_false, List.all_cons, List.all_nil, Bool.and_true]
        rw [hConforms.field_data "new" rfl, matchesFilter_texts _ hEmpty]
  · cases hEmpty : anchor.filters.tagRefs.isEmpty with
    | true => rfl
    | false =>
        simp only [Bool.false_eq_true, if_false, List.all_cons, List.all_nil, Bool.and_true]
        rw [hConforms.field_data "tag_ref" rfl, matchesFilter_texts _ hEmpty]
  · cases hEmpty : anchor.filters.fieldIds.isEmpty with
    | true => rfl
    | false =>
        simp only [Bool.false_eq_true, if_false, List.all_cons, List.all_nil, Bool.and_true]
        rw [hConforms.field_changes hChanges, matchesFilter_changes _ hEmpty]
  · cases anchor.filters.dropdownDefinitionId with
    | none => rfl
    | some definitionId =>
        simp only [List.all_cons, List.all_nil, Bool.and_true]
        rw [hConforms.field_data "definition_id" rfl, matchesFilter_text _ _ hDefinition]
  · cases hEmpty : anchor.filters.dropdownOptionIds.isEmpty with
    | true => rfl
    | false =>
        simp only [Bool.false_eq_true, if_false, List.all_cons, List.all_nil, Bool.and_true]
        rw [hConforms.field_data "new_option_id" rfl, matchesFilter_texts _ hEmpty]

end CaseEvent.Conforms

/-! ## The event of an anchor

For one case, the query and the scan of the loaded events come to the same event:
the first one, in the order of the anchor, among those that the anchor selects.
-/

variable {Id ω : Type} [PyAttributes ω] [EventAttributes Id ω]

namespace CaseDurationEventAnchor

/-- The type and the payload of the event fit the anchor, and the event does not
come before the bound. -/
def selects (anchor : CaseDurationEventAnchor) (earliestAfter : Option Int)
    (event : CaseEvent Id) : Bool :=
  anchor.acceptsType event.type && anchor.matchesFilters event &&
    !(earliestAfter.any fun earliest => event.createdAt < earliest)

/-! ## The scan -/

section Scan

variable {anchor : CaseDurationEventAnchor} (hPath : anchor.timestampPath = "created_at")
include hPath

theorem extractTimestamp_createdAt (parse : Json → Option Int) (event : CaseEvent Id) :
    anchor.extractTimestamp parse event = some event.createdAt := by
  have hResolve : event.resolveField "created_at" = .ok (some (.time event.createdAt)) := rfl
  unfold extractTimestamp
  rw [hPath, hResolve]
  rfl

/-- The scan returns the first event that the anchor selects.  A scan from the end
may stop at an event before the bound, since no later one reaches it. -/
theorem scan_eq_find? (parse : Json → Option Int) (earliestAfter : Option Int)
    {events : List (CaseEvent Id)}
    (hOrder : anchor.selection = .last →
      events.Pairwise fun event other => other.createdAt ≤ event.createdAt) :
    anchor.scan parse earliestAfter none events =
      (events.find? (anchor.selects earliestAfter)).map fun event => (event, event.createdAt) := by
  induction events with
  | nil => rfl
  | cons event events ih =>
      have hRest := ih fun hLast => (List.pairwise_cons.mp (hOrder hLast)).2
      unfold scan
      simp only [hPath, decide_true, Bool.true_and, extractTimestamp_createdAt hPath, if_true]
      cases hEarly : earliestAfter.any fun earliest => decide (event.createdAt < earliest) with
      | true =>
          have hSkip : anchor.selects earliestAfter event = false := by
            simp [selects, hEarly]
          rw [List.find?_cons_of_neg (by simp [hSkip])]
          by_cases hLast : anchor.selection = .last
          · have hNone : events.find? (anchor.selects earliestAfter) = none := by
              rw [List.find?_eq_none]
              intro other hOther
              obtain ⟨earliest, hEarliest, hLt⟩ := (Option.any_eq_true _ _).mp hEarly
              have hLe := (List.pairwise_cons.mp (hOrder hLast)).1 other hOther
              have hOtherLt : other.createdAt < earliest :=
                lt_of_le_of_lt hLe (of_decide_eq_true hLt)
              simp [selects, hEarliest, hOtherLt]
            simp [hLast, hNone]
          · simp [hLast, hRest]
      | false =>
          simp only [Bool.and_false, Bool.false_eq_true, if_false, hRest]
          cases hType : anchor.acceptsType event.type with
          | false =>
              rw [List.find?_cons_of_neg (by simp [selects, hType])]
              rfl
          | true =>
              cases hFilters : anchor.matchesFilters event with
              | false =>
                  rw [List.find?_cons_of_neg (by simp [selects, hFilters])]
                  rfl
              | true =>
                  rw [List.find?_cons_of_pos (by simp [selects, hType, hFilters, hEarly])]
                  rfl

end Scan

end CaseDurationEventAnchor

/-! ## The order of the rows -/

section Rows

variable [LinearOrder Id]

namespace CaseEvent

theorem ascending_le_iff {event other : CaseEvent Id} (hCase : event.caseId = other.caseId) :
    event.ascending ≤ other.ascending ↔
      event.createdAt < other.createdAt ∨
        event.createdAt = other.createdAt ∧ event.surrogateId ≤ other.surrogateId := by
  unfold ascending
  simp [Prod.Lex.toLex_le_toLex, hCase]

theorem descending_le_iff {event other : CaseEvent Id} (hCase : event.caseId = other.caseId) :
    event.descending ≤ other.descending ↔ other.ascending ≤ event.ascending := by
  rw [ascending_le_iff hCase.symm]
  unfold descending
  simp [Prod.Lex.toLex_le_toLex, hCase, eq_comm]

omit [LinearOrder Id] in
theorem surrogateId_of_ascending {event other : CaseEvent Id}
    (hKey : event.ascending = other.ascending) : event.surrogateId = other.surrogateId := by
  exact congrArg (fun key => (ofLex (ofLex key).2).2) hKey

omit [LinearOrder Id] in
theorem surrogateId_of_descending {event other : CaseEvent Id}
    (hKey : event.descending = other.descending) : event.surrogateId = other.surrogateId := by
  exact congrArg (fun key => OrderDual.ofDual (ofLex (ofLex key).2).2) hKey

end CaseEvent

/-- The rows in the order of the anchor. -/
def CaseDurationEventAnchor.orderEvents (anchor : CaseDurationEventAnchor)
    (rows : List (CaseEvent Id)) : List (CaseEvent Id) :=
  match anchor.selection with
  | .last => Sql.orderBy CaseEvent.descending rows
  | .first => Sql.orderBy CaseEvent.ascending rows

namespace CaseEventStore

variable (store : CaseEventStore Id)

def selectedRows (caseId : Id) (anchor : CaseDurationEventAnchor) (earliestAfter : Option Int) :
    List (CaseEvent Id) :=
  store.rows.filter fun event =>
    event.workspaceId = store.workspaceId && event.caseId = caseId &&
      anchor.selects earliestAfter event

def anchorEvent (caseId : Id) (anchor : CaseDurationEventAnchor) (earliestAfter : Option Int) :
    Option (CaseEvent Id) :=
  (anchor.orderEvents (store.selectedRows caseId anchor earliestAfter)).head?

variable {store} (hIds : (store.rows.map CaseEvent.surrogateId).Nodup)
include hIds

omit [LinearOrder Id] in
theorem eq_of_surrogateId {event other : CaseEvent Id} (hEvent : event ∈ store.rows)
    (hOther : other ∈ store.rows) (hId : event.surrogateId = other.surrogateId) :
    event = other :=
  List.inj_on_of_nodup_map hIds hEvent hOther hId

theorem filter_orderEvents (anchor : CaseDurationEventAnchor) {rows : List (CaseEvent Id)}
    (hRows : rows ⊆ store.rows) (select : CaseEvent Id → Bool) :
    (anchor.orderEvents rows).filter select = anchor.orderEvents (rows.filter select) := by
  unfold CaseDurationEventAnchor.orderEvents
  cases anchor.selection with
  | first =>
      refine Sql.filter_orderBy select fun event hEvent other hOther hKey => ?_
      exact eq_of_surrogateId hIds (hRows hEvent) (hRows hOther)
        (CaseEvent.surrogateId_of_ascending hKey)
  | last =>
      refine Sql.filter_orderBy select fun event hEvent other hOther hKey => ?_
      exact eq_of_surrogateId hIds (hRows hEvent) (hRows hOther)
        (CaseEvent.surrogateId_of_descending hKey)

/-- The events of one case from the last to the first are the events in
descending order. -/
theorem reverse_orderBy_ascending {rows : List (CaseEvent Id)} (hRows : rows ⊆ store.rows)
    {caseId : Id} (hCase : ∀ event ∈ rows, event.caseId = caseId) :
    (Sql.orderBy CaseEvent.ascending rows).reverse = Sql.orderBy CaseEvent.descending rows := by
  apply Sql.orderBy_reverse
  · intro event hEvent other hOther hKey
    exact eq_of_surrogateId hIds (hRows hEvent) (hRows hOther)
      (CaseEvent.surrogateId_of_descending hKey)
  · intro event hEvent other hOther
    have hSame : other.caseId = event.caseId := (hCase other hOther).trans (hCase event hEvent).symm
    exact (CaseEvent.descending_le_iff hSame).symm

/-! ## The scan of the loaded events -/

theorem listCaseEventsForCases_eq {caseIds : List Id} {caseId : Id} (hCase : caseId ∈ caseIds) :
    store.listCaseEventsForCases caseIds caseId =
      Sql.orderBy CaseEvent.ascending (store.rows.filter fun event =>
        event.workspaceId = store.workspaceId && event.caseId = caseId) := by
  unfold listCaseEventsForCases
  rw [Sql.filter_orderBy, List.filter_filter]
  · congr 1
    apply List.filter_congr
    intro event _
    by_cases hEq : event.caseId = caseId <;> simp [hEq, hCase]
  · intro event hEvent other hOther hKey
    exact eq_of_surrogateId hIds (List.mem_of_mem_filter hEvent) (List.mem_of_mem_filter hOther)
      (CaseEvent.surrogateId_of_ascending hKey)

theorem findMatchingEvent_eq {caseIds : List Id} {caseId : Id} (hCase : caseId ∈ caseIds)
    {anchor : CaseDurationEventAnchor} (hPath : anchor.timestampPath = "created_at")
    (parse : Json → Option Int) (earliestAfter : Option Int) :
    anchor.findMatchingEvent parse (store.listCaseEventsForCases caseIds caseId) earliestAfter =
      (store.anchorEvent caseId anchor earliestAfter).map fun event =>
        (event, event.createdAt) := by
  rw [listCaseEventsForCases_eq hIds hCase]
  generalize hRows : (store.rows.filter fun event =>
    decide (event.workspaceId = store.workspaceId) && decide (event.caseId = caseId)) = rows
  have hSubset : rows ⊆ store.rows := by
    rw [← hRows]
    exact fun _ => List.mem_of_mem_filter
  have hSame : ∀ event ∈ rows, event.caseId = caseId := by
    intro event hEvent
    rw [← hRows, List.mem_filter, Bool.and_eq_true] at hEvent
    exact of_decide_eq_true hEvent.2.2
  -- the order in which the scan takes the events
  have hScanned :
      (if decide (anchor.timestampPath = "created_at") && decide (anchor.selection = .last) then
        (Sql.orderBy CaseEvent.ascending rows).reverse else Sql.orderBy CaseEvent.ascending rows) =
        anchor.orderEvents rows := by
    unfold CaseDurationEventAnchor.orderEvents
    cases anchor.selection with
    | first => simp
    | last =>
        simp only [hPath, decide_true, Bool.true_and, if_true]
        exact reverse_orderBy_ascending hIds hSubset hSame
  have hSorted : anchor.selection = .last →
      (anchor.orderEvents rows).Pairwise fun event other => other.createdAt ≤ event.createdAt := by
    intro hLast
    unfold CaseDurationEventAnchor.orderEvents
    rw [hLast]
    have hPairwise : (Sql.orderBy CaseEvent.descending rows).Pairwise fun event other =>
      event.descending ≤ other.descending := Sql.pairwise_orderBy rows
    apply hPairwise.imp_of_mem
    intro event other hEvent hOther hLe
    have hEq : event.caseId = other.caseId := by
      rw [hSame event ((Sql.mem_orderBy _).mp hEvent), hSame other ((Sql.mem_orderBy _).mp hOther)]
    rcases (CaseEvent.ascending_le_iff hEq.symm).mp ((CaseEvent.descending_le_iff hEq).mp hLe) with
      hLt | ⟨hTie, -⟩
    · exact hLt.le
    · exact hTie.le
  have hSelected : store.selectedRows caseId anchor earliestAfter =
      rows.filter (anchor.selects earliestAfter) := by
    unfold selectedRows
    rw [← hRows, List.filter_filter]
    apply List.filter_congr
    intro event _
    rw [Bool.and_comm]
  unfold CaseDurationEventAnchor.findMatchingEvent anchorEvent
  simp only [hScanned]
  rw [CaseDurationEventAnchor.scan_eq_find? hPath parse earliestAfter hSorted, hSelected,
    ← filter_orderEvents hIds anchor hSubset, List.head?_filter]

/-! ## The query -/

omit hIds in
theorem map_where?_joined {caseIds : List Id} (hNodup : caseIds.Nodup) {caseId : Id}
    (hCase : caseId ∈ caseIds) (bounds : Dict Id (Option Int))
    (conditions : BoundedEvent Id → List Sql.Truth) (rows : List (CaseEvent Id)) :
    ((Sql.where? conditions (rows.flatMap fun event =>
        (caseIds.filter fun caseId => event.caseId = caseId).map fun caseId =>
          (event, bounds.getD caseId none))).map Prod.fst).filter (fun event =>
            decide (event.caseId = caseId)) =
      rows.filter fun event => decide (event.caseId = caseId) &&
        (conditions (event, bounds.getD caseId none)).all Sql.Truth.holds := by
  unfold Sql.where?
  induction rows with
  | nil => rfl
  | cons event rows ih =>
      rw [List.flatMap_cons, List.filter_append, List.map_append, List.filter_append, ih,
        List.filter_cons]
      by_cases hEq : event.caseId = caseId
      · subst hEq
        have hOnce : (caseIds.filter fun other => decide (event.caseId = other)) =
            [event.caseId] := by
          simp only [eq_comm (a := event.caseId)]
          rw [List.filter_eq, List.count_eq_one_of_mem hNodup hCase]
          rfl
        rw [hOnce]
        by_cases hHolds : (conditions (event, bounds.getD event.caseId none)).all Sql.Truth.holds
        · simp [hHolds]
        · simp [hHolds]
      · have hNone : ∀ pairs : List Id,
            (((pairs.map fun caseId => (event, bounds.getD caseId none)).filter fun row =>
              (conditions row).all Sql.Truth.holds).map Prod.fst).filter (fun event =>
                decide (event.caseId = caseId)) = [] := by
          intro pairs
          rw [List.filter_eq_nil_iff]
          intro other hOther
          obtain ⟨row, hRow, rfl⟩ := List.mem_map.mp hOther
          obtain ⟨_, -, rfl⟩ := List.mem_map.mp (List.mem_of_mem_filter hRow)
          simpa using hEq
        rw [hNone, List.nil_append]
        simp [hEq]

omit hIds [LinearOrder Id] in
theorem map_where?_unbounded (conditions : BoundedEvent Id → List Sql.Truth)
    (rows : List (CaseEvent Id)) (select : CaseEvent Id → Bool) :
    ((Sql.where? conditions (rows.map fun event => (event, none))).map Prod.fst).filter select =
      rows.filter fun event => select event &&
        (conditions (event, none)).all Sql.Truth.holds := by
  unfold Sql.where?
  induction rows with
  | nil => rfl
  | cons event rows ih =>
      rw [List.filter_cons, ← ih]
      by_cases hHolds : (conditions (event, none)).all Sql.Truth.holds = true
      · by_cases hSelect : select event = true <;> simp [hHolds, hSelect]
      · simp [hHolds]

omit hIds in
theorem map_order (anchor : CaseDurationEventAnchor) (rows : List (BoundedEvent Id)) :
    (anchor.order rows).map Prod.fst = anchor.orderEvents (rows.map Prod.fst) := by
  unfold CaseDurationEventAnchor.order CaseDurationEventAnchor.orderEvents
  cases anchor.selection with
  | first => exact List.map_insertionSort _ _ _ _ fun _ _ _ _ => Iff.rfl
  | last => exact List.map_insertionSort _ _ _ _ fun _ _ _ _ => Iff.rfl

omit hIds in
theorem all_anchorConditions {caseIds : List Id} {caseId : Id} (hCase : caseId ∈ caseIds)
    {anchor : CaseDurationEventAnchor} (hSupported : anchor.hasUnsupportedFilters = false)
    {event : CaseEvent Id} (hConforms : event.Conforms) (hEvent : event.caseId = caseId)
    {bounded : Bool} {bound : Option Int} (hBound : bounded = false → bound = none) :
    (store.anchorConditions caseIds anchor bounded (event, bound)).all Sql.Truth.holds =
      (decide (event.workspaceId = store.workspaceId) && anchor.selects bound event) := by
  have hWithin : Sql.Truth.holds (if bounded then
      Sql.Truth.or (some bound.isNone)
        (bound.map fun earliestAfter => decide (event.createdAt ≥ earliestAfter))
      else some (decide (event.caseId ∈ caseIds))) =
        !(bound.any fun earliest => decide (event.createdAt < earliest)) := by
    cases bounded with
    | false =>
        rw [hBound rfl]
        simp [Sql.Truth.holds, hEvent, hCase]
    | true =>
        cases bound with
        | none => rfl
        | some earliest =>
            rw [if_pos rfl, Sql.Truth.holds_or]
            simp only [Sql.Truth.holds, Option.map_some, Option.isNone_some, Option.any_some,
              ← decide_not, not_lt]
            simp
  unfold anchorConditions CaseDurationEventAnchor.selects
  rw [List.all_append, ← hConforms.matchesFilters_eq hSupported]
  simp only [List.all_cons, List.all_nil, hWithin, Bool.and_true]
  simp only [Sql.Truth.holds, Option.some.injEq, decide_eq_true_eq, Bool.decide_eq_true]
  ac_rfl

theorem lookup_byKey_order (anchor : CaseDurationEventAnchor) {selected : List (BoundedEvent Id)}
    (hRows : selected.map Prod.fst ⊆ store.rows) (caseId : Id) :
    (Sql.byKey (fun row : BoundedEvent Id => row.1.caseId)
      (fun row => (row.1.id, row.1.createdAt))
      (Sql.distinctOn (fun row => row.1.caseId) (anchor.order selected))).lookup caseId =
      (anchor.orderEvents ((selected.map Prod.fst).filter fun event =>
        decide (event.caseId = caseId))).head?.map fun event => (event.id, event.createdAt) := by
  rw [Sql.lookup_byKey_distinctOn, ← filter_orderEvents hIds anchor hRows, ← map_order,
    List.head?_filter, List.find?_map, Option.map_map]
  rfl

theorem lookup_findMatchingEventsDb (hConforms : ∀ event ∈ store.rows, event.Conforms)
    {caseIds : List Id} (hNodup : caseIds.Nodup) {caseId : Id} (hCase : caseId ∈ caseIds)
    {anchor : CaseDurationEventAnchor} (hSupported : anchor.hasUnsupportedFilters = false)
    (earliestAfterByCase : Option (Dict Id (Option Int))) :
    (store.findMatchingEventsDb caseIds anchor earliestAfterByCase).lookup caseId =
      (store.anchorEvent caseId anchor
        (earliestAfterByCase.bind fun bounds => bounds.getD caseId none)).map fun event =>
          (event.id, event.createdAt) := by
  have hSome : caseIds.isEmpty = false := by
    cases caseIds with
    | nil => cases hCase
    | cons => rfl
  -- the conditions on the rows of the case, with the bound of the case
  have hFilter (bounded : Bool) (bound : Option Int) (hBound : bounded = false → bound = none) :
      (store.rows.filter fun event => decide (event.caseId = caseId) &&
        (store.anchorConditions caseIds anchor bounded (event, bound)).all Sql.Truth.holds) =
          store.selectedRows caseId anchor bound := by
    apply List.filter_congr
    intro event hEvent
    by_cases hEq : event.caseId = caseId
    · rw [all_anchorConditions hCase hSupported (hConforms event hEvent) hEq hBound]
      simp [hEq]
    · simp [hEq]
  unfold findMatchingEventsDb anchorEvent
  rw [hSome, if_neg Bool.false_ne_true]
  cases earliestAfterByCase with
  | none =>
      refine (lookup_byKey_order hIds anchor ?_ caseId).trans ?_
      · intro event hEvent
        obtain ⟨row, hRow, rfl⟩ := List.mem_map.mp hEvent
        obtain ⟨event, hStored, rfl⟩ := List.mem_map.mp (List.mem_of_mem_filter hRow)
        exact hStored
      · rw [map_where?_unbounded, Option.isSome_none, hFilter false none fun _ => rfl]
        rfl
  | some bounds =>
      refine (lookup_byKey_order hIds anchor ?_ caseId).trans ?_
      · intro event hEvent
        obtain ⟨row, hRow, rfl⟩ := List.mem_map.mp hEvent
        obtain ⟨event, hStored, hRow⟩ := List.mem_flatMap.mp (List.mem_of_mem_filter hRow)
        obtain ⟨_, -, rfl⟩ := List.mem_map.mp hRow
        exact hStored
      · rw [map_where?_joined hNodup hCase, Option.isSome_some,
          hFilter true _ fun hEq => Bool.noConfusion hEq]
        rfl

end CaseEventStore
end Rows
end Tracecat
