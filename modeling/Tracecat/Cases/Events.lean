import Mathlib.Data.List.Basic
import Tracecat.Dsl.Values

/-!
# Case events

`CaseEvent` and the payload schemas of `cases/schemas.py`, and equality of JSON
values as Python and as PostgreSQL decide it.
-/

namespace Tracecat

/-! ## JSON -/

namespace Json

mutual

/-- Equality of JSON values, given the comparison of two scalars or of two values
of different kinds. -/
def eqBy (scalar : Json → Json → Bool) : Json → Json → Bool
  | arr items, arr others => eqItems scalar items others
  | obj entries, obj others =>
      entries.length == others.length && eqEntries scalar entries others
  | value, other => scalar value other

def eqItems (scalar : Json → Json → Bool) : List Json → List Json → Bool
  | [], [] => true
  | item :: items, other :: others => eqBy scalar item other && eqItems scalar items others
  | _, _ => false

/-- Every entry has an equal one under its key. -/
def eqEntries (scalar : Json → Json → Bool) :
    List (String × Json) → List (String × Json) → Bool
  | [], _ => true
  | (key, value) :: entries, others =>
      (match others.lookup key with
        | some other => eqBy scalar value other
        | none => false) && eqEntries scalar entries others

end

def number? : Json → Option ℚ
  | int value => some value
  | float value => some value
  | _ => none

/-- Scalars are equal as JSON values. -/
def jsonbScalar : Json → Json → Bool
  | null, null => true
  | bool value, bool other => value = other
  | str value, str other => value = other
  | value, other =>
      match value.number?, other.number? with
      | some value, some other => value = other
      | _, _ => false

/-- A boolean is a number of Python. -/
def ofBool : Json → Json
  | bool value => int value.toInt
  | value => value

/-- Scalars are equal as Python values. -/
def pyScalar (value other : Json) : Bool :=
  jsonbScalar value.ofBool other.ofBool

/-- `=` on `jsonb`. -/
def jsonbEq : Json → Json → Bool := eqBy jsonbScalar

/-- `==` on values of `json.loads`. -/
def pyEq : Json → Json → Bool := eqBy pyScalar

theorem jsonbEq_str (value : Json) (text : String) :
    jsonbEq value (.str text) = true ↔ value = .str text := by
  unfold jsonbEq
  cases value <;> simp [eqBy, jsonbScalar, number?]

theorem pyEq_str (value : Json) (text : String) :
    pyEq value (.str text) = true ↔ value = .str text := by
  unfold pyEq
  cases value <;> simp [eqBy, pyScalar, jsonbScalar, ofBool, number?]

/-- The entry of an object, unless it is null. -/
def getValue? (value : Json) (key : String) : Option Json :=
  match value.get? key with
  | some .null => none
  | entry => entry

theorem getValue?_eq_some {value entry : Json} {key : String} :
    value.getValue? key = some entry ↔ value.get? key = some entry ∧ entry ≠ .null := by
  unfold getValue?
  cases hEntry : value.get? key with
  | none => simp
  | some found =>
      cases found <;> simp
      all_goals
        rintro rfl
        simp

end Json

/-! ## Events -/

/-- `CaseEventType`. -/
inductive CaseEventType
  | caseCreated
  | caseUpdated
  | caseClosed
  | caseReopened
  | caseViewed
  | priorityChanged
  | severityChanged
  | statusChanged
  | fieldsChanged
  | assigneeChanged
  | attachmentCreated
  | attachmentDeleted
  | tagAdded
  | tagRemoved
  | payloadChanged
  | taskCreated
  | taskDeleted
  | taskStatusChanged
  | taskPriorityChanged
  | taskWorkflowChanged
  | taskAssigneeChanged
  | dropdownValueChanged
  | tableRowLinked
  | tableRowUnlinked
  | commentCreated
  | commentUpdated
  | commentDeleted
  | commentReplyCreated
  | commentReplyUpdated
  | commentReplyDeleted
  deriving DecidableEq, Repr

/-- `CaseEventType.value`. -/
def CaseEventType.value : CaseEventType → String
  | caseCreated => "case_created"
  | caseUpdated => "case_updated"
  | caseClosed => "case_closed"
  | caseReopened => "case_reopened"
  | caseViewed => "case_viewed"
  | priorityChanged => "priority_changed"
  | severityChanged => "severity_changed"
  | statusChanged => "status_changed"
  | fieldsChanged => "fields_changed"
  | assigneeChanged => "assignee_changed"
  | attachmentCreated => "attachment_created"
  | attachmentDeleted => "attachment_deleted"
  | tagAdded => "tag_added"
  | tagRemoved => "tag_removed"
  | payloadChanged => "payload_changed"
  | taskCreated => "task_created"
  | taskDeleted => "task_deleted"
  | taskStatusChanged => "task_status_changed"
  | taskPriorityChanged => "task_priority_changed"
  | taskWorkflowChanged => "task_workflow_changed"
  | taskAssigneeChanged => "task_assignee_changed"
  | dropdownValueChanged => "dropdown_value_changed"
  | tableRowLinked => "table_row_linked"
  | tableRowUnlinked => "table_row_unlinked"
  | commentCreated => "comment_created"
  | commentUpdated => "comment_updated"
  | commentDeleted => "comment_deleted"
  | commentReplyCreated => "comment_reply_created"
  | commentReplyUpdated => "comment_reply_updated"
  | commentReplyDeleted => "comment_reply_deleted"

/-- A `CaseEvent` row; instants count microseconds, and an id other than the
surrogate is only compared with ids. -/
structure CaseEvent (Id : Type) where
  workspaceId : Id
  surrogateId : Int
  id : Id
  caseId : Id
  type : CaseEventType
  data : Option Json
  userId : Option Id
  createdAt : Int
  updatedAt : Int

/-! ## Payloads -/

/-- The kind of a payload field: a text (enumerations, UUIDs and literals are
stored as texts), a number, or the list of `FieldDiff` entries. -/
inductive PayloadKind
  | text
  | number
  | fieldDiffs
  deriving DecidableEq, Repr

/-- The value is one of the kind. -/
def PayloadKind.Admits : PayloadKind → Json → Prop
  | text, value => ∃ content, value = .str content
  | number, value => ∃ count, value = .int count
  | fieldDiffs, value => ∃ items, value = .arr items ∧ ∀ item ∈ items, ∃ entries,
      item = .obj entries ∧ ∀ field, entries.lookup "field" = some field →
        ∃ content, field = .str content

/-- The fields of a payload, without `type`. -/
def CaseEventType.payloadFields : CaseEventType → List (String × PayloadKind)
  | caseCreated | caseViewed | payloadChanged => [("wf_exec_id", .text)]
  | statusChanged | priorityChanged | severityChanged | caseClosed | caseReopened
  | assigneeChanged => [("wf_exec_id", .text), ("old", .text), ("new", .text)]
  | caseUpdated =>
      [("wf_exec_id", .text), ("field", .text), ("old", .text), ("new", .text)]
  | fieldsChanged => [("wf_exec_id", .text), ("changes", .fieldDiffs)]
  | attachmentCreated =>
      [("wf_exec_id", .text), ("attachment_id", .text), ("file_name", .text),
        ("content_type", .text), ("size", .number)]
  | attachmentDeleted =>
      [("wf_exec_id", .text), ("attachment_id", .text), ("file_name", .text)]
  | tagAdded | tagRemoved =>
      [("wf_exec_id", .text), ("tag_id", .text), ("tag_ref", .text), ("tag_name", .text)]
  | taskCreated | taskDeleted =>
      [("wf_exec_id", .text), ("task_id", .text), ("title", .text)]
  | taskStatusChanged | taskPriorityChanged | taskWorkflowChanged | taskAssigneeChanged =>
      [("wf_exec_id", .text), ("task_id", .text), ("title", .text), ("old", .text),
        ("new", .text)]
  | dropdownValueChanged =>
      [("wf_exec_id", .text), ("definition_id", .text), ("definition_ref", .text),
        ("definition_name", .text), ("old_option_id", .text), ("old_option_label", .text),
        ("new_option_id", .text), ("new_option_label", .text)]
  | tableRowLinked | tableRowUnlinked =>
      [("wf_exec_id", .text), ("table_id", .text), ("table_name", .text), ("row_id", .text)]
  | commentCreated | commentUpdated | commentReplyCreated | commentReplyUpdated =>
      [("wf_exec_id", .text), ("comment_id", .text), ("parent_id", .text),
        ("thread_root_id", .text)]
  | commentDeleted | commentReplyDeleted =>
      [("wf_exec_id", .text), ("comment_id", .text), ("parent_id", .text),
        ("thread_root_id", .text), ("delete_mode", .text)]

namespace CaseEvent

variable {Id : Type} (event : CaseEvent Id)

/-- The payload conforms to the schema of its event type: each entry is a field
of the schema, null or of the field's kind.  Any field may be missing, and so may
the payload. -/
def Conforms : Prop :=
  match event.data with
  | none => True
  | some .null => True
  | some (.obj entries) => ∀ entry ∈ entries, entry.2 = .null ∨
      ∃ field ∈ event.type.payloadFields, entry.1 = field.1 ∧ field.2.Admits entry.2
  | some _ => False

variable {event}

theorem Conforms.admits (hConforms : event.Conforms) {data value : Json} {key : String}
    {kind : PayloadKind}
    (hKind : ∀ type : CaseEventType, ∀ field ∈ type.payloadFields, field.1 = key → field.2 = kind)
    (hData : event.data = some data) (hValue : data.getValue? key = some value) :
    kind.Admits value := by
  unfold Conforms at hConforms
  rw [hData] at hConforms
  cases data with
  | obj entries =>
      obtain ⟨hLookup, hNull⟩ := Json.getValue?_eq_some.mp hValue
      obtain ⟨before, after, hEntries, -⟩ := List.lookup_eq_some_iff.mp hLookup
      have hMem : (key, value) ∈ entries := by simp [hEntries]
      rcases hConforms _ hMem with hEq | ⟨field, hField, hKey, hAdmits⟩
      · exact absurd hEq hNull
      · rwa [hKind _ field hField hKey.symm] at hAdmits
  | null => simp [Json.getValue?, Json.get?] at hValue
  | bool | int | float | str | arr => cases hConforms

end CaseEvent

end Tracecat
