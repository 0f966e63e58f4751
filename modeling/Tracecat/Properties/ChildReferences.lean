import Mathlib.Tactic.Tauto
import Tracecat.Sync.ChildReferences

/-!
# Child workflow references through export and import

A reference to an exported workflow comes out as a reference to the workflow of the same
source id.  Source ids and workflow ids share one name space: a source id that reads as a
workflow id stands for that id as well.
-/

namespace Tracecat
namespace Sync

variable {τ δ ρ ν : Type}

/-! ## Rewriting -/

theorem rewriteDefinition_eq (resolve : String → Option String)
    (definition : DefinitionSpec δ ρ ν) :
    rewriteDefinition resolve definition =
      { definition with
        actions := definition.actions.map fun action =>
          (rewriteAction resolve action).getD action } := by
  unfold rewriteDefinition
  dsimp only
  split
  · next hNone =>
      have hSame : definition.actions.map (fun action =>
          (rewriteAction resolve action).getD action) = definition.actions := by
        rw [Bool.not_eq_true'] at hNone
        refine (List.map_congr_left fun action hAction => ?_).trans (List.map_id _)
        have hAction := List.any_eq_false.mp hNone action hAction
        rw [Option.not_isSome_iff_eq_none.mp hAction]
        rfl
      rw [hSame]
  · rfl

theorem childReference_withReference {action : ActionSpec ρ ν} {text : String}
    (hText : action.childReference = some text) (reference : String) :
    (action.withReference reference).childReference = some reference := by
  have hChild : ¬ action.action ≠ childWorkflowExecute := by
    intro hOther
    rw [ActionSpec.childReference, if_pos hOther] at hText
    cases hText
  have hLookup : (action.withReference reference).args.lookup "workflow_id" =
      some (.text reference) := by
    show (Assoc.set "workflow_id" (ArgValue.text reference) action.args).lookup _ = _
    rw [Assoc.lookup_set, if_pos rfl]
  unfold ActionSpec.childReference
  rw [hLookup]
  exact if_neg hChild

theorem withReference_withReference (action : ActionSpec ρ ν) (first second : String) :
    (action.withReference first).withReference second = action.withReference second := by
  unfold ActionSpec.withReference
  rw [Assoc.set_set]

/-! ## Export -/

variable {source : List (WorkflowUUID × String)}

theorem lookup_normalizedSource (hSource : (source.map Prod.fst).Nodup) {key sourceId : String} :
    (normalizedSourceWorkflowIds source).lookup key = some sourceId ↔
      ∃ localId, (localId, sourceId) ∈ source ∧ (key = localId.str ∨ key = localId.short) := by
  have hMem {key sourceId : String} : (key, sourceId) ∈ source.flatMap (fun entry =>
      [(entry.1.str, entry.2), (entry.1.short, entry.2)]) ↔
        ∃ localId, (localId, sourceId) ∈ source ∧ (key = localId.str ∨ key = localId.short) := by
    rw [List.mem_flatMap]
    constructor
    · rintro ⟨⟨localId, found⟩, hEntry, hPair⟩
      simp only [List.mem_cons, Prod.mk.injEq, List.not_mem_nil, or_false] at hPair
      rcases hPair with ⟨rfl, rfl⟩ | ⟨rfl, rfl⟩
      · exact ⟨localId, hEntry, Or.inl rfl⟩
      · exact ⟨localId, hEntry, Or.inr rfl⟩
    · rintro ⟨localId, hEntry, rfl | rfl⟩
      · exact ⟨_, hEntry, List.mem_cons_self⟩
      · exact ⟨_, hEntry, List.mem_cons_of_mem _ List.mem_cons_self⟩
  have hReads {localId : WorkflowUUID} {key : String}
      (hKey : key = localId.str ∨ key = localId.short) : WorkflowUUID.new key = some localId := by
    rcases hKey with rfl | rfl
    · exact WorkflowUUID.new_str localId
    · exact WorkflowUUID.new_short localId
  rw [normalizedSourceWorkflowIds, Assoc.lookup_ofPairs_eq_some ?_, hMem]
  intro key first second hFirst hSecond
  obtain ⟨localId, hEntry, hKey⟩ := hMem.mp hFirst
  obtain ⟨other, hOther, hOtherKey⟩ := hMem.mp hSecond
  obtain rfl : localId = other := Option.some.inj ((hReads hKey).symm.trans (hReads hOtherKey))
  exact Option.some.inj (((Assoc.lookup_eq_some_iff hSource).mpr hEntry).symm.trans
    ((Assoc.lookup_eq_some_iff hSource).mpr hOther))

/-- A reference is exported by the workflow id that it reads as. -/
theorem sourceWorkflowIdForReference_eq (hSource : (source.map Prod.fst).Nodup) (text : String) :
    sourceWorkflowIdForReference text (normalizedSourceWorkflowIds source) =
      (WorkflowUUID.new text).bind (source.lookup ·) := by
  have hShort (localId : WorkflowUUID) (key : String)
      (hKey : key = localId.str ∨ key = localId.short) :
      (normalizedSourceWorkflowIds source).lookup key = source.lookup localId := by
    ext sourceId
    rw [lookup_normalizedSource hSource, Assoc.lookup_eq_some_iff hSource]
    constructor
    · rintro ⟨other, hOther, hOtherKey⟩
      have hReads : some other = some localId := by
        rcases hOtherKey with rfl | rfl <;> rcases hKey with hKey | hKey <;>
          simpa using congrArg WorkflowUUID.new hKey
      exact Option.some.inj hReads ▸ hOther
    · exact fun hEntry => ⟨localId, hEntry, hKey⟩
  unfold sourceWorkflowIdForReference
  split
  · next sourceId hTruthy =>
      obtain ⟨hLookup, -⟩ := Option.filter_eq_some_iff.mp hTruthy
      obtain ⟨localId, hEntry, hKey⟩ := (lookup_normalizedSource hSource).mp hLookup
      have hNew : WorkflowUUID.new text = some localId := by
        rcases hKey with rfl | rfl
        · exact WorkflowUUID.new_str localId
        · exact WorkflowUUID.new_short localId
      rw [hNew, Option.bind_some, (Assoc.lookup_eq_some_iff hSource).mpr hEntry]
  · cases WorkflowUUID.new text with
    | none => rfl
    | some localId =>
        dsimp only
        rw [hShort localId _ (Or.inr rfl), hShort localId _ (Or.inl rfl), Option.bind_some, truthy]
        cases source.lookup localId with
        | none => rfl
        | some sourceId => by_cases hEmpty : sourceId = "" <;> simp [hEmpty, Option.filter]

/-! ## Import -/

variable {locals : List (String × WorkflowUUID)}

/-- The source id is the text, or both read as one workflow id. -/
def Named (sourceId text : String) : Prop :=
  sourceId = text ∨ ∃ id, WorkflowUUID.new sourceId = some id ∧ WorkflowUUID.new text = some id

/-- A later source id reads as the workflow id that this one is the short text of. -/
def Overwritten (locals : List (String × WorkflowUUID)) (sourceId : String) : Prop :=
  ∃ earlier localId later, locals = earlier ++ (sourceId, localId) :: later ∧
    ∃ other ∈ later, ∃ id, WorkflowUUID.new other.1 = some id ∧ id.short = sourceId

theorem mem_indexedBy {entry : String × WorkflowUUID} {key : String} {localId : WorkflowUUID} :
    (key, localId) ∈ indexedBy entry ↔ localId = entry.2 ∧
      (key = entry.1 ∨ ∃ id, WorkflowUUID.new entry.1 = some id ∧ key = id.short) := by
  obtain ⟨sourceId, found⟩ := entry
  unfold indexedBy
  cases WorkflowUUID.new sourceId with
  | none => simp [and_comm]
  | some id =>
      simp only [List.mem_cons, Prod.mk.injEq, List.not_mem_nil, or_false, Option.some.injEq,
        exists_eq_left']
      tauto

/-- Source ids that are not overwritten stand for their own local ids. -/
theorem lookup_normalized {sourceId : String} {localId : WorkflowUUID}
    (hLocals : (locals.map Prod.fst).Nodup) (hEntry : (sourceId, localId) ∈ locals)
    (hKept : ¬ Overwritten locals sourceId) :
    (normalizedWorkflowIds locals).lookup sourceId = some localId := by
  obtain ⟨earlier, later, rfl⟩ := List.append_of_mem hEntry
  have hLater : (later.flatMap indexedBy).reverse.lookup sourceId = none := by
    rw [← Option.not_isSome_iff_eq_none, Assoc.lookup_isSome_iff]
    intro hKey
    obtain ⟨⟨key, found⟩, hFound, hSourceId⟩ := List.mem_map.mp hKey
    obtain rfl : key = sourceId := hSourceId
    obtain ⟨other, hOther, hIndexed⟩ := List.mem_flatMap.mp (List.mem_reverse.mp hFound)
    rcases (mem_indexedBy.mp hIndexed).2 with hSame | ⟨id, hReads, hShort⟩
    · have hNodup := hLocals
      rw [List.map_append, List.map_cons] at hNodup
      have hFresh := (List.nodup_cons.mp (List.nodup_append.mp hNodup).2.1).1
      exact hFresh (List.mem_map.mpr ⟨other, hOther, hSame.symm⟩)
    · exact hKept ⟨earlier, localId, later, rfl, other, hOther, id, hReads, hShort.symm⟩
  have hHere : (indexedBy (sourceId, localId)).reverse.lookup sourceId = some localId := by
    unfold indexedBy
    cases WorkflowUUID.new sourceId with
    | none => simp
    | some id =>
        show List.lookup sourceId [(id.short, localId), (sourceId, localId)] = _
        rw [Assoc.lookup_cons_eq_ite]
        split
        · rfl
        · simp
  rw [normalizedWorkflowIds, Assoc.lookup_ofPairs, List.flatMap_append, List.flatMap_cons,
    List.reverse_append, List.reverse_append, List.lookup_append, List.lookup_append, hLater,
    Option.none_or, hHere, Option.some_or]

theorem lookup_normalized_isSome {key : String} :
    ((normalizedWorkflowIds locals).lookup key).isSome ↔ ∃ entry ∈ locals,
      key = entry.1 ∨ ∃ id, WorkflowUUID.new entry.1 = some id ∧ key = id.short := by
  rw [normalizedWorkflowIds, Assoc.lookup_ofPairs, Assoc.lookup_isSome_iff, List.mem_map]
  constructor
  · rintro ⟨⟨_, found⟩, hFound, rfl⟩
    obtain ⟨entry, hEntry, hIndexed⟩ := List.mem_flatMap.mp (List.mem_reverse.mp hFound)
    exact ⟨entry, hEntry, (mem_indexedBy.mp hIndexed).2⟩
  · rintro ⟨entry, hEntry, hKey⟩
    exact ⟨(key, entry.2), List.mem_reverse.mpr (List.mem_flatMap.mpr
      ⟨entry, hEntry, mem_indexedBy.mpr ⟨rfl, hKey⟩⟩), rfl⟩

theorem lookup_normalized_some {key : String} {localId : WorkflowUUID}
    (hLookup : (normalizedWorkflowIds locals).lookup key = some localId) :
    ∃ sourceId, (sourceId, localId) ∈ locals ∧
      (key = sourceId ∨ ∃ id, WorkflowUUID.new sourceId = some id ∧ key = id.short) := by
  rw [normalizedWorkflowIds, Assoc.lookup_ofPairs] at hLookup
  obtain ⟨⟨sourceId, found⟩, hEntry, hIndexed⟩ :=
    List.mem_flatMap.mp (List.mem_reverse.mp (Assoc.mem_of_lookup hLookup))
  obtain ⟨rfl, hKey⟩ := mem_indexedBy.mp hIndexed
  exact ⟨sourceId, hEntry, hKey⟩

def importReference (locals : List (String × WorkflowUUID)) (text : String) :
    Option WorkflowUUID :=
  localWorkflowIdForReference text (normalizedWorkflowIds locals)

theorem named_of_indexed {sourceId text : String}
    (hKey : text = sourceId ∨ ∃ id, WorkflowUUID.new sourceId = some id ∧ text = id.short) :
    Named sourceId text := by
  rcases hKey with rfl | ⟨id, hReads, rfl⟩
  · exact Or.inl rfl
  · exact Or.inr ⟨id, hReads, WorkflowUUID.new_short id⟩

theorem importReference_some {text : String} {localId : WorkflowUUID}
    (hImport : importReference locals text = some localId) :
    ∃ sourceId, (sourceId, localId) ∈ locals ∧ Named sourceId text := by
  unfold importReference localWorkflowIdForReference at hImport
  split at hImport
  · next found hLookup =>
      obtain rfl := Option.some.inj hImport
      obtain ⟨sourceId, hEntry, hKey⟩ := lookup_normalized_some hLookup
      exact ⟨sourceId, hEntry, named_of_indexed hKey⟩
  · split at hImport
    · cases hImport
    · next id hReads =>
        obtain ⟨sourceId, hEntry, hKey⟩ := lookup_normalized_some hImport
        refine ⟨sourceId, hEntry, Or.inr ?_⟩
        rcases hKey with rfl | ⟨other, hOther, hShort⟩
        · exact ⟨id, WorkflowUUID.new_short id, hReads⟩
        · exact ⟨id, WorkflowUUID.short_injective hShort ▸ hOther, hReads⟩

theorem importReference_isSome {text : String} {entry : String × WorkflowUUID}
    (hEntry : entry ∈ locals) (hNamed : Named entry.1 text) :
    (importReference locals text).isSome := by
  unfold importReference localWorkflowIdForReference
  split
  · rfl
  · next hNone =>
      rcases hNamed with rfl | ⟨id, hReads, hText⟩
      · have hSome := lookup_normalized_isSome.mpr ⟨entry, hEntry, Or.inl rfl⟩
        rw [hNone] at hSome
        cases hSome
      · rw [hText]
        exact lookup_normalized_isSome.mpr ⟨entry, hEntry, Or.inr ⟨id, hReads, rfl⟩⟩

theorem importReference_sourceId {sourceId : String} {localId : WorkflowUUID}
    (hLocals : (locals.map Prod.fst).Nodup) (hEntry : (sourceId, localId) ∈ locals)
    (hKept : ¬ Overwritten locals sourceId) :
    importReference locals sourceId = some localId := by
  unfold importReference localWorkflowIdForReference
  rw [lookup_normalized hLocals hEntry hKept]

/-! ## Export and import -/

/-- The workflow id that the reference of an action reads as. -/
def ActionSpec.denotes (action : ActionSpec ρ ν) : Option WorkflowUUID :=
  action.childReference.bind WorkflowUUID.new

/-- A workflow id is exported under a source id. -/
def Exported (source : List (WorkflowUUID × String)) (id : WorkflowUUID) : Prop :=
  id ∈ source.map Prod.fst

/-- What becomes of an action on the way. -/
structure Carried (source : List (WorkflowUUID × String)) (locals : List (String × WorkflowUUID))
    (before after : ActionSpec ρ ν) : Prop where
  kept : after = before ∨ before.childReference.isSome ∧
    ∃ reference, after = before.withReference reference
  exported : ∀ id sourceId, before.denotes = some id → (id, sourceId) ∈ source →
    ¬ Overwritten locals sourceId →
      ∃ localId, (sourceId, localId) ∈ locals ∧ after.denotes = some localId
  foreign : ∀ text, before.childReference = some text →
    (∀ id, before.denotes = some id → ¬ Exported source id) →
      (∀ entry ∈ locals, ¬ Named entry.1 text) → after = before
  named : ∀ text, before.childReference = some text →
    (∀ id, before.denotes = some id → ¬ Exported source id) →
      (∃ entry ∈ locals, Named entry.1 text) →
        ∃ entry ∈ locals, Named entry.1 text ∧ after.denotes = some entry.2

/-- An action on the way through export and import. -/
def carry (source : List (WorkflowUUID × String)) (locals : List (String × WorkflowUUID))
    (action : ActionSpec ρ ν) : ActionSpec ρ ν :=
  let exported := (rewriteAction (fun text =>
    sourceWorkflowIdForReference text (normalizedSourceWorkflowIds source)) action).getD action
  (rewriteAction (fun text => (importReference locals text).map WorkflowUUID.short) exported).getD
    exported

theorem carry_none {action : ActionSpec ρ ν} (hNone : action.childReference = none) :
    carry source locals action = action := by
  unfold carry rewriteAction
  rw [hNone]
  dsimp only [Option.bind_none, Option.map_none, Option.getD_none]
  rw [hNone]
  rfl

theorem carry_foreign (hSource : (source.map Prod.fst).Nodup) {action : ActionSpec ρ ν}
    {text : String} (hText : action.childReference = some text)
    (hForeign : ∀ id, action.denotes = some id → ¬ Exported source id) :
    carry source locals action =
      ((importReference locals text).map fun localId => action.withReference localId.short).getD
        action := by
  have hNone : sourceWorkflowIdForReference text (normalizedSourceWorkflowIds source) = none := by
    rw [sourceWorkflowIdForReference_eq hSource, Option.bind_eq_none_iff]
    intro id hReads
    rw [← Option.not_isSome_iff_eq_none, Assoc.lookup_isSome_iff]
    refine hForeign id ?_
    rw [ActionSpec.denotes, hText, Option.bind_some, hReads]
  unfold carry rewriteAction
  rw [hText, Option.bind_some, hNone]
  dsimp only [Option.map_none, Option.getD_none]
  rw [hText, Option.bind_some, Option.map_map]
  rfl

theorem carry_exported (hSource : (source.map Prod.fst).Nodup) {action : ActionSpec ρ ν}
    {text sourceId : String} {id localId : WorkflowUUID}
    (hText : action.childReference = some text) (hReads : WorkflowUUID.new text = some id)
    (hEntry : (id, sourceId) ∈ source) (hLocal : importReference locals sourceId = some localId) :
    carry source locals action = action.withReference localId.short := by
  have hExport : sourceWorkflowIdForReference text (normalizedSourceWorkflowIds source) =
      some sourceId := by
    rw [sourceWorkflowIdForReference_eq hSource, hReads, Option.bind_some,
      (Assoc.lookup_eq_some_iff hSource).mpr hEntry]
  unfold carry rewriteAction
  rw [hText, Option.bind_some, hExport]
  dsimp only [Option.map_some, Option.getD_some]
  rw [childReference_withReference hText, Option.bind_some, hLocal]
  dsimp only [Option.map_some, Option.getD_some]
  exact withReference_withReference action sourceId localId.short

theorem carried (hSource : (source.map Prod.fst).Nodup) (hLocals : (locals.map Prod.fst).Nodup)
    (hKeys : ∀ sourceId, sourceId ∈ locals.map Prod.fst ↔ sourceId ∈ source.map Prod.snd)
    (action : ActionSpec ρ ν) : Carried source locals action (carry source locals action) := by
  have hDenotes {text : String} (hText : action.childReference = some text)
      (localId : WorkflowUUID) : (action.withReference localId.short).denotes = some localId := by
    rw [ActionSpec.denotes, childReference_withReference hText, Option.bind_some,
      WorkflowUUID.new_short]
  have hLocal {id : WorkflowUUID} {sourceId : String} (hEntry : (id, sourceId) ∈ source) :
      ∃ localId, (sourceId, localId) ∈ locals := by
    obtain ⟨⟨_, localId⟩, hMem, rfl⟩ := List.mem_map.mp
      ((hKeys sourceId).mpr (List.mem_map_of_mem (f := Prod.snd) hEntry))
    exact ⟨localId, hMem⟩
  constructor
  · cases hText : action.childReference with
    | none => exact Or.inl (carry_none hText)
    | some text =>
        by_cases hExported : ∃ id, action.denotes = some id ∧ Exported source id
        · obtain ⟨id, hId, hMem⟩ := hExported
          obtain ⟨⟨_, sourceId⟩, hEntry, rfl⟩ := List.mem_map.mp hMem
          obtain ⟨localId, hHere⟩ := hLocal hEntry
          obtain ⟨found, hFound⟩ := Option.isSome_iff_exists.mp
            (importReference_isSome hHere (Or.inl rfl))
          rw [ActionSpec.denotes, hText, Option.bind_some] at hId
          exact Or.inr ⟨rfl, _, carry_exported hSource hText hId hEntry hFound⟩
        · rw [carry_foreign hSource hText fun id hId hMem => hExported ⟨id, hId, hMem⟩]
          cases importReference locals text with
          | none => exact Or.inl rfl
          | some localId => exact Or.inr ⟨rfl, _, rfl⟩
  · intro id sourceId hId hEntry hKept
    obtain ⟨text, hText, hReads⟩ := Option.bind_eq_some_iff.mp hId
    obtain ⟨localId, hHere⟩ := hLocal hEntry
    refine ⟨localId, hHere, ?_⟩
    rw [carry_exported hSource hText hReads hEntry (importReference_sourceId hLocals hHere hKept)]
    exact hDenotes hText localId
  · intro text hText hForeign hNone
    rw [carry_foreign hSource hText hForeign]
    cases hImport : importReference locals text with
    | none => rfl
    | some localId =>
        obtain ⟨sourceId, hEntry, hNamed⟩ := importReference_some hImport
        exact absurd hNamed (hNone _ hEntry)
  · rintro text hText hForeign ⟨entry, hEntry, hNamed⟩
    obtain ⟨localId, hImport⟩ := Option.isSome_iff_exists.mp
      (importReference_isSome hEntry hNamed)
    obtain ⟨sourceId, hFound, hSame⟩ := importReference_some hImport
    refine ⟨_, hFound, hSame, ?_⟩
    rw [carry_foreign hSource hText hForeign, hImport]
    exact hDenotes hText localId

/-- The actions that come out are the actions that went in, each carried through. -/
theorem actions_remote (spec : WorkflowSpec τ δ ρ ν) (localId : WorkflowUUID) :
    (workflowSpecToRemote (workflowSpecWithSourceWorkflowIds spec source) localId
        locals).definition =
      { spec.definition with actions := spec.definition.actions.map (carry source locals) } := by
  have hImport (definition : DefinitionSpec δ ρ ν) :
      (if locals.isEmpty then definition else definitionWithLocalWorkflowIds definition locals) =
        definitionWithLocalWorkflowIds definition locals := by
    split
    · next hEmpty =>
        rw [List.isEmpty_iff.mp hEmpty, definitionWithLocalWorkflowIds, rewriteDefinition_eq]
        have hNone (action : ActionSpec ρ ν) : rewriteAction (fun text =>
            (localWorkflowIdForReference text (normalizedWorkflowIds [])).map
              WorkflowUUID.short) action = none := by
          have hUnknown (text : String) : importReference [] text = none := by
            by_contra hFound
            obtain ⟨localId, hImport⟩ := Option.ne_none_iff_exists'.mp hFound
            obtain ⟨sourceId, hEntry, -⟩ := importReference_some hImport
            cases hEntry
          unfold rewriteAction
          rw [Option.map_eq_none_iff, Option.bind_eq_none_iff]
          exact fun text _ => congrArg (Option.map WorkflowUUID.short) (hUnknown text)
        simp only [hNone, Option.getD_none, List.map_id']
    · rfl
  show (if locals.isEmpty then _ else _) = _
  rw [hImport]
  show definitionWithLocalWorkflowIds (definitionWithSourceWorkflowIds spec.definition source)
    locals = _
  rw [definitionWithLocalWorkflowIds, definitionWithSourceWorkflowIds, rewriteDefinition_eq,
    rewriteDefinition_eq]
  dsimp only
  rw [List.map_map]
  rfl

/-- Export and import leave everything as it is besides the references: an exported one
denotes the local workflow of the same source id, and another one is left alone unless a
source id names it.  With the inverse map for the import, no reference changes its meaning. -/
theorem references_survive (source : List (WorkflowUUID × String))
    (locals : List (String × WorkflowUUID)) (hSource : (source.map Prod.fst).Nodup)
    (hSourceIds : (source.map Prod.snd).Nodup) (hLocals : (locals.map Prod.fst).Nodup)
    (hKeys : ∀ sourceId, sourceId ∈ locals.map Prod.fst ↔ sourceId ∈ source.map Prod.snd)
    (spec : WorkflowSpec τ δ ρ ν) (localId : WorkflowUUID) :
    let remote := workflowSpecToRemote (workflowSpecWithSourceWorkflowIds spec source) localId
      locals
    (remote.alias_ = spec.alias_ ∧ remote.folderPath = spec.folderPath ∧ remote.tags = spec.tags ∧
      remote.triggers = spec.triggers ∧ remote.definition.fields = spec.definition.fields) ∧
    List.Forall₂ (Carried source locals) spec.definition.actions remote.definition.actions ∧
    ((∀ id sourceId, (sourceId, id) ∈ locals ↔ (id, sourceId) ∈ source) →
      List.Forall₂ (fun before after => ∀ id, before.denotes = some id →
        (∀ sourceId, (id, sourceId) ∈ source → ¬ Overwritten locals sourceId) →
        (Exported source id ∨ ∀ text, before.childReference = some text →
          ∀ entry ∈ locals, ¬ Named entry.1 text) → after.denotes = some id)
        spec.definition.actions remote.definition.actions) := by
  intro remote
  have hDefinition := @actions_remote τ δ ρ ν source locals spec localId
  have hEach := fun action : ActionSpec ρ ν => carried hSource hLocals hKeys action
  refine ⟨⟨rfl, rfl, rfl, rfl, by rw [hDefinition]⟩, ?_, fun hInverse => ?_⟩
  · rw [hDefinition, List.forall₂_map_right_iff]
    exact List.forall₂_same.mpr fun action _ => hEach action
  · rw [hDefinition, List.forall₂_map_right_iff]
    refine List.forall₂_same.mpr fun action _ id hId hKept hCase => ?_
    by_cases hExported : Exported source id
    · obtain ⟨⟨_, sourceId⟩, hEntry, rfl⟩ := List.mem_map.mp hExported
      obtain ⟨other, hOther, hAfter⟩ := (hEach action).exported _ sourceId hId hEntry
        (hKept sourceId hEntry)
      have hSame : (other, sourceId) = (_, sourceId) :=
        List.inj_on_of_nodup_map hSourceIds ((hInverse other sourceId).mp hOther) hEntry rfl
      rw [hAfter, (Prod.mk.inj hSame).1]
    · obtain ⟨text, hText, -⟩ := Option.bind_eq_some_iff.mp hId
      have hNone := hCase.resolve_left hExported text hText
      rw [(hEach action).foreign text hText (fun other hOther =>
        Option.some.inj (hId.symm.trans hOther) ▸ hExported) hNone]
      exact hId

/-! ### Workflows with one action -/

/-- A workflow that executes a child workflow. -/
def callingSpec (reference : String) : WorkflowSpec Unit Unit Unit Unit where
  id := "parent"
  alias_ := none
  folderPath := none
  tags := none
  triggers := ()
  definition := ⟨[⟨childWorkflowExecute, [("workflow_id", .text reference)], ()⟩], ()⟩

theorem callingSpec_reference (reference : String) :
    ∀ action ∈ (callingSpec reference).definition.actions,
      action.childReference = some reference := by
  intro action hAction
  rw [List.mem_singleton.mp hAction]
  rfl

/-- The full text of an exported workflow's id comes out as the local workflow. -/
theorem childReference_survives :
    ∃ after : ActionSpec Unit Unit,
      (workflowSpecToRemote (workflowSpecWithSourceWorkflowIds
        (callingSpec (WorkflowUUID.str 5)) [(5, "child")]) 1 [("child", 9)]).definition.actions =
          [after] ∧ after.denotes = some 9 := by
  obtain ⟨-, hCarried, -⟩ := references_survive [(5, "child")] [("child", 9)] (by simp) (by simp)
    (by simp) (by simp) (callingSpec (WorkflowUUID.str 5)) 1
  obtain ⟨after, rest, hFirst, hRest, hActions⟩ := List.forall₂_cons_left_iff.mp hCarried
  rw [List.forall₂_nil_left_iff.mp hRest] at hActions
  refine ⟨after, hActions, ?_⟩
  have hNotOver : ¬ Overwritten [("child", (9 : WorkflowUUID))] "child" := by
    rintro ⟨earlier, localId, later, hSplit, other, hOther, -⟩
    have hLength := congrArg List.length hSplit
    rw [List.length_append, List.length_cons] at hLength
    have hLater := List.length_pos_of_mem hOther
    simp only [List.length_cons, List.length_nil] at hLength
    omega
  obtain ⟨localId, hEntry, hDenotes⟩ := hFirst.exported 5 "child" (WorkflowUUID.new_str 5)
    List.mem_cons_self hNotOver
  rw [hDenotes, (Prod.mk.inj (List.mem_singleton.mp hEntry)).2]

/-- The exported workflow has a source id that reads as the id of another workflow, and a
reference to that one comes out as a reference to the exported one. -/
theorem foreignReference_captured :
    (∀ action ∈ (callingSpec (WorkflowUUID.short 7)).definition.actions,
      action.denotes = some 7 ∧ ¬ Exported [(5, WorkflowUUID.short 7)] 7) ∧
    ∃ after : ActionSpec Unit Unit,
      (workflowSpecToRemote (workflowSpecWithSourceWorkflowIds
        (callingSpec (WorkflowUUID.short 7)) [(5, WorkflowUUID.short 7)]) 1
          [(WorkflowUUID.short 7, 9)]).definition.actions = [after] ∧
        after.denotes = some 9 := by
  have hSeven : ¬ Exported [((5 : WorkflowUUID), WorkflowUUID.short 7)] 7 := by
    simp [Exported]
  have hDenotes : ∀ action ∈ (callingSpec (WorkflowUUID.short 7)).definition.actions,
      action.denotes = some 7 := by
    intro action hAction
    rw [ActionSpec.denotes, callingSpec_reference _ action hAction]
    exact WorkflowUUID.new_short 7
  refine ⟨fun action hAction => ⟨hDenotes action hAction, hSeven⟩, _,
    congrArg DefinitionSpec.actions (actions_remote _ _), ?_⟩
  have hCarried := @carried Unit Unit [((5 : WorkflowUUID), WorkflowUUID.short 7)]
    [(WorkflowUUID.short 7, (9 : WorkflowUUID))] (by simp) (by simp) (by simp)
    ⟨childWorkflowExecute, [("workflow_id", .text (WorkflowUUID.short 7))], ()⟩
  obtain ⟨entry, hEntry, -, hAfter⟩ := hCarried.named (WorkflowUUID.short 7) rfl
    (fun id hId => by
      rw [hDenotes _ List.mem_cons_self] at hId
      exact Option.some.inj hId ▸ hSeven)
    ⟨_, List.mem_cons_self, Or.inl rfl⟩
  rw [hAfter, List.mem_singleton.mp hEntry]

end Sync
end Tracecat
