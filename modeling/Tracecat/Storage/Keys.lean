import Tracecat.Dsl.Values
import Tracecat.Lib.Paths

/-!
# Object keys

The key builders of `storage/object.py` and `storage/collection.py`, and the
targets whose blobs they name.
-/

namespace Tracecat

def triggerKey (workspaceId wfExecId : String) : String :=
  s!"{workspaceId}/{wfExecId}/trigger.json"

def returnKey (workspaceId wfExecId : String) : String :=
  s!"{workspaceId}/{wfExecId}/return.json"

def actionKey (workspaceId wfExecId streamId ref : String) : String :=
  s!"{workspaceId}/{wfExecId}/actions/{streamId}/{ref}.json"

def actionCollectionPrefix (workspaceId wfExecId streamId ref : String) : String :=
  s!"{workspaceId}/{wfExecId}/actions/{streamId}/{ref}"

def collectionItemKey (keyPrefix : String) (index : Nat) : String :=
  s!"{keyPrefix}/items/{index}.json"

def chunkKey (keyPrefix : String) (index : Nat) : String :=
  s!"{keyPrefix}/chunks/{index}.json"

def manifestKey (keyPrefix : String) : String :=
  s!"{keyPrefix}/manifest.json"

/-- `SLUG_PATTERN`. -/
def IsSlug (ref : Ref) : Prop :=
  ∀ char ∈ ref.toList, char ∈ "abcdefghijklmnopqrstuvwxyz0123456789_".toList

instance (ref : Ref) : Decidable (IsSlug ref) :=
  List.decidableBAll (fun char => char ∈ "abcdefghijklmnopqrstuvwxyz0123456789_".toList) ref.toList

/-- The scatters that a stream lies in. -/
def StreamID.scopes : StreamID → List Ref
  | root => []
  | child base scope _ => base.scopes ++ [scope]

/-- A part of an identifier that stands as a segment of its own in a key. -/
def PlainPart (part : String) : Prop :=
  '/' ∉ part.toList ∧ part ∉ ["trigger.json", "return.json", "actions"]

instance (part : String) : Decidable (PlainPart part) :=
  inferInstanceAs (Decidable (_ ∧ _))

/-- An execution in its workspace.  The execution identifier is one segment, or
the workflow's and the execution's. -/
structure ExecutionPath where
  workspaceId : String
  wfExecParts : List String
  parts_ne_nil : wfExecParts ≠ []
  plain : ∀ part ∈ workspaceId :: wfExecParts, PlainPart part

def ExecutionPath.wfExecId (execution : ExecutionPath) : String :=
  Paths.join execution.wfExecParts

/-- A statement of a validated workflow in a stream of one execution. -/
structure ActionSite where
  execution : ExecutionPath
  stream : StreamID
  ref : Ref
  slugs : ∀ scope ∈ ref :: stream.scopes, IsSlug scope

namespace ActionSite

variable (site : ActionSite)

def key : String :=
  actionKey site.execution.workspaceId site.execution.wfExecId site.stream.text site.ref

def collectionPrefix : String :=
  actionCollectionPrefix site.execution.workspaceId site.execution.wfExecId site.stream.text
    site.ref

end ActionSite

/-- The blobs of a collection. -/
inductive CollectionPiece
  | item (index : Nat)
  | chunk (index : Nat)
  | manifest

def CollectionPiece.key (keyPrefix : String) : CollectionPiece → String
  | item index => collectionItemKey keyPrefix index
  | chunk index => chunkKey keyPrefix index
  | manifest => manifestKey keyPrefix

/-- What a statement stores: its result, a collection in place of it, or the
trigger inputs of the child workflows it starts in a loop. -/
inductive ActionStore
  | result
  | collection
  | subflowInputs
  deriving DecidableEq, Repr

def ActionStore.key (site : ActionSite) (piece : CollectionPiece) : ActionStore → String
  | result => site.key
  | collection => piece.key site.collectionPrefix
  | subflowInputs => piece.key (site.collectionPrefix ++ "/trigger_inputs")

/-- What a store of the program writes to. -/
inductive StoreTarget
  | trigger (execution : ExecutionPath)
  | returnValue (execution : ExecutionPath)
  | action (site : ActionSite) (store : ActionStore)

inductive StoreTarget.Owns : StoreTarget → String → Prop
  | trigger (execution : ExecutionPath) :
      Owns (.trigger execution) (triggerKey execution.workspaceId execution.wfExecId)
  | returnValue (execution : ExecutionPath) :
      Owns (.returnValue execution) (returnKey execution.workspaceId execution.wfExecId)
  | action (site : ActionSite) (store : ActionStore) (piece : CollectionPiece) :
      Owns (.action site store) (store.key site piece)

/-! ## Keys as paths

Equal keys belong to one target: an execution identifier has no segment that a
key fixes, every segment of a stream holds a colon, and a reference holds
neither a colon nor a dot.
-/

def StreamID.segments : StreamID → List String
  | root => ["<root>:0"]
  | child base scope index => base.segments ++ [scope ++ ":" ++ indexText index]

def CollectionPiece.segments : CollectionPiece → List String
  | item index => ["items", s!"{index}.json"]
  | chunk index => ["chunks", s!"{index}.json"]
  | manifest => ["manifest.json"]

def ExecutionPath.segments (execution : ExecutionPath) : List String :=
  execution.workspaceId :: execution.wfExecParts

theorem StreamID.segments_ne_nil (stream : StreamID) : stream.segments ≠ [] := by
  cases stream <;> simp [segments]

theorem StreamID.text_eq (stream : StreamID) : stream.text = Paths.join stream.segments := by
  induction stream with
  | root => rfl
  | child base scope index ih =>
      rw [text, ih, segments, Paths.join_append base.segments_ne_nil (by simp),
        Paths.join_singleton]
      simp only [String.append_assoc]

namespace ActionSite

variable (site : ActionSite)

/-- The segments of `collectionPrefix` without the reference. -/
def base : List String :=
  site.execution.segments ++ "actions" :: site.stream.segments

theorem join_base_append {tail : List String} (hTail : tail ≠ []) :
    Paths.join (site.base ++ tail) =
      site.execution.workspaceId ++ "/" ++ site.execution.wfExecId ++ "/actions/" ++
        site.stream.text ++ "/" ++ Paths.join tail := by
  have hParts := site.execution.parts_ne_nil
  have hStream := site.stream.segments_ne_nil
  rw [base, List.append_assoc, ExecutionPath.segments, List.cons_append,
    Paths.join_cons (by simp [hParts]), Paths.join_append hParts (by simp), List.cons_append,
    Paths.join_cons (by simp [hStream]), Paths.join_append hStream hTail, ← StreamID.text_eq,
    ExecutionPath.wfExecId]
  apply String.toList_injective
  simp

end ActionSite

/-- The segments of a key of a statement after `ActionSite.base`. -/
def ActionStore.tail (ref : Ref) (piece : CollectionPiece) : ActionStore → List String
  | result => [ref ++ ".json"]
  | collection => ref :: piece.segments
  | subflowInputs => ref :: "trigger_inputs" :: piece.segments

theorem ActionStore.key_eq (store : ActionStore) (site : ActionSite) (piece : CollectionPiece) :
    store.key site piece = Paths.join (site.base ++ store.tail site.ref piece) := by
  rw [ActionSite.join_base_append _ (by cases store <;> simp [tail])]
  apply String.toList_injective
  cases store with
  | result => simp [key, tail, ActionSite.key, actionKey, Paths.join_singleton, toString]
  | collection =>
      cases piece <;>
        simp [key, tail, CollectionPiece.key, CollectionPiece.segments,
          ActionSite.collectionPrefix, actionCollectionPrefix, collectionItemKey, chunkKey,
          manifestKey, Paths.join_cons, Paths.join_singleton, toString]
  | subflowInputs =>
      cases piece <;>
        simp [key, tail, CollectionPiece.key, CollectionPiece.segments,
          ActionSite.collectionPrefix, actionCollectionPrefix, collectionItemKey, chunkKey,
          manifestKey, Paths.join_cons, Paths.join_singleton, toString]

section Slugs

variable {ref : Ref} (hRef : IsSlug ref)
include hRef

theorem IsSlug.colon_not_mem : ':' ∉ ref.toList := by
  intro hMem
  have hChar := hRef ':' hMem
  revert hChar
  decide

theorem IsSlug.slash_not_mem : '/' ∉ ref.toList := by
  intro hMem
  have hChar := hRef '/' hMem
  revert hChar
  decide

theorem IsSlug.dot_not_mem : '.' ∉ ref.toList := by
  intro hMem
  have hChar := hRef '.' hMem
  revert hChar
  decide

end Slugs

theorem StreamID.indexText_injective {first second : StreamIndex}
    (hText : indexText first = indexText second) : first = second := by
  have hSkip (index : Nat) : toString index ≠ "skip" := by
    intro hEq
    have hMem : 's' ∈ (toString index).toList := by
      rw [hEq]
      decide
    exact Paths.not_mem_toString (by decide) index hMem
  cases first with
  | skip =>
      cases second with
      | skip => rfl
      | item index => exact absurd hText.symm (hSkip index)
  | item index =>
      cases second with
      | skip => exact absurd hText (hSkip index)
      | item other => rw [Paths.toString_injective hText]

theorem StreamID.colon_mem_segments {stream : StreamID} :
    ∀ segment ∈ stream.segments, ':' ∈ segment.toList := by
  induction stream with
  | root => simp [segments]
  | child base scope index ih =>
      intro segment hSegment
      rcases List.mem_append.mp hSegment with hBase | hLast
      · exact ih segment hBase
      · rw [List.mem_singleton.mp hLast]
        simp

theorem StreamID.slash_not_mem_segments {stream : StreamID}
    (hSlugs : ∀ scope ∈ stream.scopes, IsSlug scope) :
    ∀ segment ∈ stream.segments, '/' ∉ segment.toList := by
  induction stream with
  | root =>
      intro segment hSegment
      rw [List.mem_singleton.mp hSegment]
      decide
  | child base scope index ih =>
      intro segment hSegment
      have hBase : ∀ other ∈ base.scopes, IsSlug other := fun other hOther =>
        hSlugs other (by simp [scopes, hOther])
      have hScope : IsSlug scope := hSlugs scope (by simp [scopes])
      rcases List.mem_append.mp hSegment with hOld | hLast
      · exact ih hBase segment hOld
      · rw [List.mem_singleton.mp hLast]
        have hIndex : '/' ∉ (indexText index).toList := by
          cases index with
          | item index => exact Paths.not_mem_toString (by decide) index
          | skip => decide
        simp [hScope.slash_not_mem, hIndex]

theorem StreamID.segments_injective {first second : StreamID}
    (hFirst : ∀ scope ∈ first.scopes, IsSlug scope)
    (hSecond : ∀ scope ∈ second.scopes, IsSlug scope)
    (hSegments : first.segments = second.segments) : first = second := by
  induction first generalizing second with
  | root =>
      cases second with
      | root => rfl
      | child base scope index =>
          have hLengths := congrArg List.length hSegments
          simp [segments] at hLengths
          exact absurd hLengths base.segments_ne_nil
  | child base scope index ih =>
      cases second with
      | root =>
          have hLengths := congrArg List.length hSegments
          simp [segments] at hLengths
          exact absurd hLengths base.segments_ne_nil
      | child base' scope' index' =>
          obtain ⟨hBases, hLast⟩ := List.append_inj' hSegments rfl
          have hBase : base = base' := by
            apply ih _ _ hBases
            · exact fun other hOther => hFirst other (by simp [scopes, hOther])
            · exact fun other hOther => hSecond other (by simp [scopes, hOther])
          have hScope : IsSlug scope := hFirst scope (by simp [scopes])
          have hScope' : IsSlug scope' := hSecond scope' (by simp [scopes])
          have hText : scope.toList ++ ':' :: (indexText index).toList =
              scope'.toList ++ ':' :: (indexText index').toList := by
            have hLists := congrArg String.toList (List.singleton_inj.mp hLast)
            simpa using hLists
          obtain ⟨hScopes, -, hIndexes⟩ := Paths.append_cons_inj (· = ':')
            (fun char hChar hColon => hScope.colon_not_mem (hColon ▸ hChar))
            (fun char hChar hColon => hScope'.colon_not_mem (hColon ▸ hChar)) rfl rfl hText
          rw [hBase, String.toList_injective hScopes,
            indexText_injective (String.toList_injective hIndexes)]

theorem ExecutionPath.slash_not_mem {execution : ExecutionPath} :
    ∀ segment ∈ execution.segments, '/' ∉ segment.toList :=
  fun segment hSegment => (execution.plain segment hSegment).1

/-- An execution is read from the segments before the first that a key fixes. -/
theorem ExecutionPath.segments_append_inj {execution execution' : ExecutionPath}
    {mark mark' : String} {rest rest' : List String}
    (hMark : mark ∈ ["trigger.json", "return.json", "actions"])
    (hMark' : mark' ∈ ["trigger.json", "return.json", "actions"])
    (hEq : execution.segments ++ mark :: rest = execution'.segments ++ mark' :: rest') :
    execution = execution' ∧ mark = mark' ∧ rest = rest' := by
  obtain ⟨hSegments, hMarks, hRest⟩ := Paths.append_cons_inj
    (· ∈ ["trigger.json", "return.json", "actions"])
    (fun segment hSegment => (execution.plain segment hSegment).2)
    (fun segment hSegment => (execution'.plain segment hSegment).2) hMark hMark' hEq
  refine ⟨?_, hMarks, hRest⟩
  cases execution
  cases execution'
  obtain ⟨rfl, rfl⟩ := List.cons.inj hSegments
  rfl

theorem CollectionPiece.segments_injective {first second : CollectionPiece}
    (hSegments : first.segments = second.segments) : first = second := by
  have hNumber {index other : Nat} (hText : s!"{index}.json" = s!"{other}.json") :
      index = other := by
    apply Paths.toString_injective
    apply String.toList_injective
    have hLists := congrArg String.toList hText
    simpa [toString] using hLists
  cases first <;> cases second <;> simp only [segments, List.cons.injEq] at hSegments
  case item.item index other => rw [hNumber hSegments.2.1]
  case chunk.chunk index other => rw [hNumber hSegments.2.1]
  case manifest.manifest => rfl
  all_goals simp at hSegments

theorem CollectionPiece.slash_not_mem {piece : CollectionPiece} :
    ∀ segment ∈ piece.segments, '/' ∉ segment.toList := by
  have hNumber (index : Nat) : '/' ∉ (s!"{index}.json" : String).toList := by
    have hDigits : '/' ∉ (toString index).toList := Paths.not_mem_toString (by decide) index
    simpa [toString] using hDigits
  intro segment hSegment
  cases piece with
  | item index =>
      simp only [segments, List.mem_cons, List.not_mem_nil, or_false] at hSegment
      rcases hSegment with rfl | rfl
      · decide
      · exact hNumber index
  | chunk index =>
      simp only [segments, List.mem_cons, List.not_mem_nil, or_false] at hSegment
      rcases hSegment with rfl | rfl
      · decide
      · exact hNumber index
  | manifest =>
      rw [List.mem_singleton.mp hSegment]
      decide

namespace ActionStore

variable {store store' : ActionStore} {ref ref' : Ref} {piece piece' : CollectionPiece}

/-- The first segment of the tail. -/
def head (ref : Ref) : ActionStore → String
  | result => ref ++ ".json"
  | _ => ref

theorem exists_tail (store : ActionStore) (ref : Ref) (piece : CollectionPiece) :
    ∃ rest, store.tail ref piece = store.head ref :: rest := by
  cases store <;> exact ⟨_, rfl⟩

theorem colon_not_mem_head (hRef : IsSlug ref) : ':' ∉ (store.head ref).toList := by
  have hColon := hRef.colon_not_mem
  cases store <;> simp [head, hColon]

theorem slash_not_mem_tail (hRef : IsSlug ref) :
    ∀ segment ∈ store.tail ref piece, '/' ∉ segment.toList := by
  have hSlash := hRef.slash_not_mem
  intro segment hSegment
  cases store with
  | result =>
      rw [List.mem_singleton.mp hSegment]
      simp [hSlash]
  | collection =>
      rcases List.mem_cons.mp hSegment with rfl | hPiece
      · exact hSlash
      · exact CollectionPiece.slash_not_mem segment hPiece
  | subflowInputs =>
      rcases List.mem_cons.mp hSegment with rfl | hRest
      · exact hSlash
      · rcases List.mem_cons.mp hRest with rfl | hPiece
        · decide
        · exact CollectionPiece.slash_not_mem segment hPiece

/-- A statement's stores are told apart by their tails, and the blobs of one
collection too. -/
theorem tail_injective (hRef : IsSlug ref) (hRef' : IsSlug ref')
    (hTail : store.tail ref piece = store'.tail ref' piece') :
    ref = ref' ∧ store = store' ∧ (store = result ∨ piece = piece') := by
  have hDot {slug other : Ref} (hSlug : IsSlug slug) : slug ≠ other ++ ".json" := by
    rintro rfl
    exact hSlug.dot_not_mem (by simp)
  have hInputs {piece : CollectionPiece} {rest : List String} :
      piece.segments ≠ "trigger_inputs" :: rest := by
    cases piece <;> simp [CollectionPiece.segments]
  cases store <;> cases store' <;> simp only [tail, List.cons.injEq] at hTail
  case result.result =>
    refine ⟨?_, rfl, .inl rfl⟩
    have hLists := congrArg String.toList hTail.1
    apply String.toList_injective
    simpa using hLists
  case collection.collection =>
    exact ⟨hTail.1, rfl, .inr (CollectionPiece.segments_injective hTail.2)⟩
  case subflowInputs.subflowInputs =>
    exact ⟨hTail.1, rfl, .inr (CollectionPiece.segments_injective hTail.2.2)⟩
  case result.collection => exact absurd hTail.1.symm (hDot hRef')
  case result.subflowInputs => exact absurd hTail.1.symm (hDot hRef')
  case collection.result => exact absurd hTail.1 (hDot hRef)
  case subflowInputs.result => exact absurd hTail.1 (hDot hRef)
  case collection.subflowInputs => exact absurd hTail.2 hInputs
  case subflowInputs.collection => exact absurd hTail.2.symm hInputs

end ActionStore

/-- The segments of a key, cut at the first that the key fixes. -/
inductive StoreTarget.Cut : StoreTarget → ExecutionPath → String → List String → Prop
  | trigger (execution : ExecutionPath) : Cut (.trigger execution) execution "trigger.json" []
  | returnValue (execution : ExecutionPath) :
      Cut (.returnValue execution) execution "return.json" []
  | action (site : ActionSite) (store : ActionStore) (piece : CollectionPiece) :
      Cut (.action site store) site.execution "actions"
        (site.stream.segments ++ store.tail site.ref piece)

namespace StoreTarget

variable {target target' : StoreTarget} {execution execution' : ExecutionPath}
  {mark mark' key : String} {rest rest' : List String}

theorem Cut.mark_mem (hCut : target.Cut execution mark rest) :
    mark ∈ ["trigger.json", "return.json", "actions"] := by
  cases hCut <;> decide

theorem Cut.slash_not_mem (hCut : target.Cut execution mark rest) :
    ∀ segment ∈ execution.segments ++ mark :: rest, '/' ∉ segment.toList := by
  intro segment hSegment
  rcases List.mem_append.mp hSegment with hExecution | hMark
  · exact ExecutionPath.slash_not_mem segment hExecution
  rcases List.mem_cons.mp hMark with rfl | hLater
  · cases hCut <;> decide
  cases hCut with
  | trigger => simp at hLater
  | returnValue => simp at hLater
  | action site store piece =>
      rcases List.mem_append.mp hLater with hStream | hTail
      · exact StreamID.slash_not_mem_segments
          (fun scope hScope => site.slugs scope (List.mem_cons_of_mem _ hScope)) segment hStream
      · exact ActionStore.slash_not_mem_tail (site.slugs _ List.mem_cons_self) segment hTail

theorem Owns.exists_cut (hOwns : target.Owns key) : ∃ execution mark rest,
    target.Cut execution mark rest ∧ key = Paths.join (execution.segments ++ mark :: rest) := by
  cases hOwns with
  | trigger execution =>
      refine ⟨_, _, _, .trigger execution, ?_⟩
      rw [ExecutionPath.segments, List.cons_append, Paths.join_cons (by simp),
        Paths.join_append execution.parts_ne_nil (by simp), Paths.join_singleton]
      apply String.toList_injective
      simp [triggerKey, ExecutionPath.wfExecId, toString]
  | returnValue execution =>
      refine ⟨_, _, _, .returnValue execution, ?_⟩
      rw [ExecutionPath.segments, List.cons_append, Paths.join_cons (by simp),
        Paths.join_append execution.parts_ne_nil (by simp), Paths.join_singleton]
      apply String.toList_injective
      simp [returnKey, ExecutionPath.wfExecId, toString]
  | action site store piece =>
      refine ⟨_, _, _, .action site store piece, ?_⟩
      rw [store.key_eq, ActionSite.base, List.append_assoc, List.cons_append]

theorem Cut.segments_ne_nil : execution.segments ++ mark :: rest ≠ [] := by
  simp

theorem action_inj {site site' : ActionSite} {store store' : ActionStore}
    {piece piece' : CollectionPiece} (hExecution : site.execution = site'.execution)
    (hRest : site.stream.segments ++ store.tail site.ref piece =
      site'.stream.segments ++ store'.tail site'.ref piece') :
    site = site' ∧ store = store' ∧ (store = .result ∨ piece = piece') := by
  have hSlug := site.slugs _ List.mem_cons_self
  have hSlug' := site'.slugs _ List.mem_cons_self
  obtain ⟨tail, hTail⟩ := store.exists_tail site.ref piece
  obtain ⟨tail', hTail'⟩ := store'.exists_tail site'.ref piece'
  rw [hTail, hTail'] at hRest
  -- the stream ends at the first segment without a colon
  obtain ⟨hStreams, hHeads, hTails⟩ := Paths.append_cons_inj (fun segment => ':' ∉ segment.toList)
    (fun segment hSegment => not_not.mpr (StreamID.colon_mem_segments segment hSegment))
    (fun segment hSegment => not_not.mpr (StreamID.colon_mem_segments segment hSegment))
    (ActionStore.colon_not_mem_head hSlug) (ActionStore.colon_not_mem_head hSlug') hRest
  have hStream : site.stream = site'.stream := by
    apply StreamID.segments_injective _ _ hStreams
    · exact fun scope hScope => site.slugs scope (List.mem_cons_of_mem _ hScope)
    · exact fun scope hScope => site'.slugs scope (List.mem_cons_of_mem _ hScope)
  obtain ⟨hRef, hStore, hPiece⟩ := ActionStore.tail_injective hSlug hSlug'
    (hTail.trans ((congrArg₂ List.cons hHeads hTails).trans hTail'.symm))
  refine ⟨?_, hStore, hPiece⟩
  cases site
  cases site'
  subst hExecution hStream hRef
  rfl

theorem Owns.unique (hOwns : target.Owns key) (hOwns' : target'.Owns key) : target = target' := by
  obtain ⟨execution, mark, rest, hCut, hKey⟩ := hOwns.exists_cut
  obtain ⟨execution', mark', rest', hCut', hKey'⟩ := hOwns'.exists_cut
  have hSegments := Paths.join_injective Cut.segments_ne_nil Cut.segments_ne_nil
    hCut.slash_not_mem hCut'.slash_not_mem (hKey.symm.trans hKey')
  obtain ⟨hExecution, hMark, hRest⟩ := ExecutionPath.segments_append_inj hCut.mark_mem
    hCut'.mark_mem hSegments
  cases hCut <;> cases hCut'
  case trigger.trigger => rw [hExecution]
  case returnValue.returnValue => rw [hExecution]
  case action.action =>
    obtain ⟨hSite, hStore, -⟩ := action_inj hExecution hRest
    rw [hSite, hStore]
  all_goals simp at hMark

end StoreTarget

theorem ActionStore.piece_injective {store : ActionStore} {site : ActionSite}
    {piece piece' : CollectionPiece} (hStore : store ≠ .result)
    (hKey : store.key site piece = store.key site piece') : piece = piece' := by
  rw [store.key_eq, store.key_eq] at hKey
  have hCut := StoreTarget.Cut.action site store piece
  have hCut' := StoreTarget.Cut.action site store piece'
  simp only [ActionSite.base, List.append_assoc, List.cons_append] at hKey
  have hSegments := Paths.join_injective StoreTarget.Cut.segments_ne_nil
    StoreTarget.Cut.segments_ne_nil hCut.slash_not_mem hCut'.slash_not_mem hKey
  obtain ⟨-, -, hRest⟩ := ExecutionPath.segments_append_inj hCut.mark_mem hCut'.mark_mem hSegments
  obtain ⟨-, -, hResult | hPiece⟩ := StoreTarget.action_inj rfl hRest
  · exact absurd hResult hStore
  · exact hPiece

end Tracecat
