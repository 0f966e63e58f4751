import Tracecat.Storage.Keys
import Tracecat.Storage.Retrieval

/-!
# The stores of a workflow execution

The activities of `dsl/action.py` and `executor/activities.py` that store what
an execution hands on.  Each builds its key from the execution, the stream and
the statement.  The data are what the activity has evaluated or retrieved.
-/

namespace Tracecat

variable {Value Bytes Digest : Type}

namespace BlobCodec

variable (codec : BlobCodec Value Bytes Digest) (config : StorageConfig)

/-- `execute_action_activity`. -/
def executeActionActivity (site : ActionSite) (result : Value) :
    ItemObject Value Digest × List (Upload Bytes) :=
  codec.store config site.key result

/-- `evaluate_templated_object_activity`: the item of a gather in its stream,
and the trigger inputs of a single child workflow. -/
def evaluateTemplatedObjectActivity (site : ActionSite) (result : Value) :
    ItemObject Value Digest × List (Upload Bytes) :=
  codec.store config site.key result

/-- `normalize_trigger_inputs_activity`. -/
def normalizeTriggerInputsActivity (execution : ExecutionPath) (normalized : Value) :
    ItemObject Value Digest × List (Upload Bytes) :=
  codec.store config (triggerKey execution.workspaceId execution.wfExecId) normalized

/-- `resolve_return_expression_activity`. -/
def resolveReturnExpressionActivity (execution : ExecutionPath) (result : Value) :
    ItemObject Value Digest × List (Upload Bytes) :=
  codec.store config (returnKey execution.workspaceId execution.wfExecId) result

/-- `handle_scatter_input_activity`. -/
def handleScatterInputActivity (site : ActionSite) (items : List Value) :
    StoredHandle Value Digest × List (Upload Bytes) :=
  codec.storeList config site.collectionPrefix items

/-- `finalize_gather_activity`. -/
def finalizeGatherActivity (site : ActionSite) (results : List Value) :
    StoredHandle Value Digest × List (Upload Bytes) :=
  codec.storeList config site.collectionPrefix results

/-- `synchronize_collection_object_activity`: the results of the child workflows
of a loop. -/
def synchronizeCollectionObjectActivity (site : ActionSite) (values : List Value) :
    StoredHandle Value Digest × List (Upload Bytes) :=
  codec.storeList config site.collectionPrefix values

/-- `prepare_subflow_activity`: the trigger inputs of the child workflows of a
loop. -/
def prepareSubflowActivity (site : ActionSite) (triggerInputs : List Value) :
    StoredHandle Value Digest × List (Upload Bytes) :=
  codec.storeList config (site.collectionPrefix ++ "/trigger_inputs") triggerInputs

end BlobCodec

/-- A run of one of the activities. -/
inductive StoreCall (Value : Type)
  | executeAction (site : ActionSite) (result : Value)
  | evaluateTemplatedObject (site : ActionSite) (result : Value)
  | normalizeTriggerInputs (execution : ExecutionPath) (normalized : Value)
  | resolveReturnExpression (execution : ExecutionPath) (result : Value)
  | handleScatterInput (site : ActionSite) (items : List Value)
  | finalizeGather (site : ActionSite) (results : List Value)
  | synchronizeCollectionObject (site : ActionSite) (values : List Value)
  | prepareSubflow (site : ActionSite) (triggerInputs : List Value)

namespace StoreCall

def target : StoreCall Value → StoreTarget
  | executeAction site _ => .action site .result
  | evaluateTemplatedObject site _ => .action site .result
  | normalizeTriggerInputs execution _ => .trigger execution
  | resolveReturnExpression execution _ => .returnValue execution
  | handleScatterInput site _ => .action site .collection
  | finalizeGather site _ => .action site .collection
  | synchronizeCollectionObject site _ => .action site .collection
  | prepareSubflow site _ => .action site .subflowInputs

def data : StoreCall Value → StoredData Value
  | executeAction _ result => .one result
  | evaluateTemplatedObject _ result => .one result
  | normalizeTriggerInputs _ normalized => .one normalized
  | resolveReturnExpression _ result => .one result
  | handleScatterInput _ items => .many items
  | finalizeGather _ results => .many results
  | synchronizeCollectionObject _ values => .many values
  | prepareSubflow _ triggerInputs => .many triggerInputs

variable (codec : BlobCodec Value Bytes Digest) (config : StorageConfig)

/-- The handle that the call returns, and its uploads in their order. -/
def run : StoreCall Value → StoredHandle Value Digest × List (Upload Bytes)
  | executeAction site result => (codec.executeActionActivity config site result).map .item id
  | evaluateTemplatedObject site result =>
      (codec.evaluateTemplatedObjectActivity config site result).map .item id
  | normalizeTriggerInputs execution normalized =>
      (codec.normalizeTriggerInputsActivity config execution normalized).map .item id
  | resolveReturnExpression execution result =>
      (codec.resolveReturnExpressionActivity config execution result).map .item id
  | handleScatterInput site items => codec.handleScatterInputActivity config site items
  | finalizeGather site results => codec.finalizeGatherActivity config site results
  | synchronizeCollectionObject site values =>
      codec.synchronizeCollectionObjectActivity config site values
  | prepareSubflow site triggerInputs => codec.prepareSubflowActivity config site triggerInputs

def uploads (call : StoreCall Value) : List (Upload Bytes) :=
  (call.run codec config).2

/-- The handles that the call gives out, with the data each stands for: its own,
and an index into it where it is a collection. -/
inductive Hands (call : StoreCall Value) : StoredHandle Value Digest → StoredData Value → Prop
  | handle : Hands call (call.run codec config).1 call.data
  | index {collection : CollectionObject Digest} {items : List Value} {position : Nat}
      {value : Value} (hHandle : (call.run codec config).1 = .collection collection)
      (hData : call.data = .many items) (hValue : items[position]? = some value) :
      Hands call (.collection (collection.at position)) (.one value)

end StoreCall

/-! ### The keys of the uploads -/

namespace BlobCodec

variable {codec : BlobCodec Value Bytes Digest} {config : StorageConfig} {keyPrefix : String}

theorem keys_store_sublist (key : String) (data : Value) :
    List.Sublist ((codec.store config key data).2.map Upload.key) [key] := by
  unfold store
  dsimp only
  split
  · exact List.Sublist.refl _
  · exact List.nil_sublist _

/-- The pieces of a collection of `count` items, in the order of their upload. -/
def pieces (config : StorageConfig) (count : Nat) : List CollectionPiece :=
  (List.range count).map .item ++
    ((List.range (numChunks config count)).map .chunk ++ [.manifest])

theorem pieces_nodup (count : Nat) : (pieces config count).Nodup := by
  have hMap (piece : Nat → CollectionPiece) (hPiece : Function.Injective piece) (size : Nat) :
      ((List.range size).map piece).Nodup :=
    List.nodup_range.map hPiece
  rw [pieces, List.nodup_append, List.nodup_append]
  refine ⟨hMap .item (fun _ _ hEq => CollectionPiece.item.inj hEq) count,
    ⟨hMap .chunk (fun _ _ hEq => CollectionPiece.chunk.inj hEq) _, List.nodup_singleton _, ?_⟩, ?_⟩
  · intro first hFirst second hSecond hEq
    obtain ⟨index, -, rfl⟩ := List.mem_map.mp hFirst
    rw [List.mem_singleton.mp hSecond] at hEq
    cases hEq
  · intro first hFirst second hSecond hEq
    obtain ⟨index, -, rfl⟩ := List.mem_map.mp hFirst
    rcases List.mem_append.mp hSecond with hChunk | hManifest
    · obtain ⟨other, -, rfl⟩ := List.mem_map.mp hChunk
      cases hEq
    · rw [List.mem_singleton.mp hManifest] at hEq
      cases hEq

theorem keys_storeCollection (items : List (ChunkItem Value Digest)) (elementKind : ElementKind) :
    (codec.storeCollection config keyPrefix items elementKind).2.map Upload.key =
      ((List.range (numChunks config items.length)).map CollectionPiece.chunk ++
        [CollectionPiece.manifest]).map (CollectionPiece.key keyPrefix) := by
  simp only [storeCollection, List.map_append, List.map_map, List.map_singleton]
  rfl

theorem keys_items_sublist (indexed : List (Value × Nat)) :
    List.Sublist ((indexed.flatMap fun entry =>
        (codec.store config (collectionItemKey keyPrefix entry.2) entry.1).2).map Upload.key)
      (indexed.map fun entry => collectionItemKey keyPrefix entry.2) := by
  induction indexed with
  | nil => exact List.Sublist.refl _
  | cons entry rest ih =>
      rw [List.flatMap_cons, List.map_append, List.map_cons]
      exact (keys_store_sublist _ _).append ih

theorem keys_storeList_sublist (items : List Value) :
    List.Sublist ((codec.storeList config keyPrefix items).2.map Upload.key)
      ((pieces config items.length).map (CollectionPiece.key keyPrefix)) := by
  by_cases hExternal : config.externalizationEnabled
  · have hStored : ((items.mapIdx fun index item =>
        codec.store config (collectionItemKey keyPrefix index) item).flatMap Prod.snd).map Upload.key
          = (items.zipIdx.flatMap fun entry =>
            (codec.store config (collectionItemKey keyPrefix entry.2) entry.1).2).map Upload.key := by
      rw [List.mapIdx_eq_zipIdx_map, List.flatMap_map]
    have hIndexes : (items.zipIdx.map fun entry => collectionItemKey keyPrefix entry.2) =
        ((List.range items.length).map CollectionPiece.item).map (CollectionPiece.key keyPrefix) := by
      rw [List.map_map, List.range_eq_range', ← List.zipIdx_map_snd 0 items, List.map_map]
      rfl
    have hLength : ((items.mapIdx fun index item =>
        codec.store config (collectionItemKey keyPrefix index) item).map fun result =>
          ChunkItem.object result.1).length = items.length := by
      simp
    simp only [storeList, if_pos hExternal, storeCollectionAsRefs, List.map_append, hStored,
      keys_storeCollection, hLength, pieces]
    rw [← hIndexes]
    exact (keys_items_sublist items.zipIdx).append (by simp)
  · simp [storeList, hExternal]

theorem keys_storeList {site : ActionSite} {store : ActionStore} (hStore : store ≠ .result)
    (hPrefix : ∀ piece : CollectionPiece, piece.key keyPrefix = store.key site piece)
    (items : List Value) :
    ((codec.storeList config keyPrefix items).2.map Upload.key).Nodup ∧
      ∀ upload ∈ (codec.storeList config keyPrefix items).2,
        StoreTarget.Owns (.action site store) upload.key := by
  have hSublist : List.Sublist ((codec.storeList config keyPrefix items).2.map Upload.key)
      ((pieces config items.length).map (CollectionPiece.key keyPrefix)) :=
    keys_storeList_sublist items
  constructor
  · apply List.Nodup.sublist hSublist
    apply (pieces_nodup items.length).map
    intro piece other hKey
    rw [hPrefix, hPrefix] at hKey
    exact ActionStore.piece_injective hStore hKey
  · intro upload hUpload
    obtain ⟨piece, -, hKey⟩ := List.mem_map.mp (hSublist.subset (List.mem_map_of_mem hUpload))
    rw [← hKey, hPrefix]
    exact .action site store piece

variable (codec config) in
theorem keys_store (key : String) (data : Value) :
    ((codec.store config key data).2.map Upload.key).Nodup ∧
      ∀ upload ∈ (codec.store config key data).2, upload.key = key := by
  have hSublist : List.Sublist ((codec.store config key data).2.map Upload.key) [key] :=
    keys_store_sublist key data
  refine ⟨List.Nodup.sublist hSublist (List.nodup_singleton key), fun upload hUpload => ?_⟩
  exact List.mem_singleton.mp (hSublist.subset (List.mem_map_of_mem hUpload))

end BlobCodec

namespace StoreCall

variable (codec : BlobCodec Value Bytes Digest) (config : StorageConfig) (call : StoreCall Value)

/-- The two ways to store: a value under one key of the target, or a list under
a prefix. -/
inductive Form : Prop
  | value {key : String} {value : Value}
      (hRun : call.run codec config = (codec.store config key value).map .item id)
      (hData : call.data = .one value) (hOwns : call.target.Owns key)
  | list {site : ActionSite} {store : ActionStore} {keyPrefix : String} {items : List Value}
      (hRun : call.run codec config = codec.storeList config keyPrefix items)
      (hData : call.data = .many items) (hTarget : call.target = .action site store)
      (hStore : store ≠ .result)
      (hPrefix : ∀ piece : CollectionPiece, piece.key keyPrefix = store.key site piece)

theorem form : call.Form codec config := by
  cases call with
  | executeAction site result => exact .value rfl rfl (.action site .result .manifest)
  | evaluateTemplatedObject site result => exact .value rfl rfl (.action site .result .manifest)
  | normalizeTriggerInputs execution normalized => exact .value rfl rfl (.trigger execution)
  | resolveReturnExpression execution result => exact .value rfl rfl (.returnValue execution)
  | handleScatterInput site items => exact .list rfl rfl rfl (by decide) fun _ => rfl
  | finalizeGather site results => exact .list rfl rfl rfl (by decide) fun _ => rfl
  | synchronizeCollectionObject site values => exact .list rfl rfl rfl (by decide) fun _ => rfl
  | prepareSubflow site triggerInputs => exact .list rfl rfl rfl (by decide) fun _ => rfl

theorem keys_uploads : ((call.uploads codec config).map Upload.key).Nodup ∧
    ∀ upload ∈ call.uploads codec config, call.target.Owns upload.key := by
  cases call.form codec config with
  | @value key value hRun _ hOwns =>
      rw [uploads, hRun]
      obtain ⟨hNodup, hKeys⟩ := codec.keys_store config key value
      exact ⟨hNodup, fun upload hUpload => hKeys upload hUpload ▸ hOwns⟩
  | @list _ _ _ items hRun _ hTarget hStore hPrefix =>
      rw [uploads, hRun, hTarget]
      exact BlobCodec.keys_storeList hStore hPrefix items

variable {codec config call}

/-- Where its uploads are read back, the handles of a call yield what it has
stored. -/
theorem retrieve_of_hands [DecidableEq Digest] {read : ObjectRef Digest → Option Bytes}
    (hReads : codec.Reads read (call.uploads codec config)) {handle : StoredHandle Value Digest}
    {data : StoredData Value} (hHands : call.Hands codec config handle data) :
    codec.retrieve read handle = .ok data := by
  rw [uploads] at hReads
  cases call.form codec config with
  | value hRun hData _ =>
      rw [hRun] at hReads
      cases hHands with
      | handle =>
          have hValue := BlobCodec.retrieveItem_store hReads
          rw [hRun, hData]
          simp only [Prod.map_fst, BlobCodec.retrieve, hValue]
          rfl
      | index _ hItems _ =>
          rw [hData] at hItems
          cases hItems
  | list hRun hData _ _ _ =>
      rw [hRun] at hReads
      cases hHands with
      | handle =>
          rw [hRun, hData]
          exact BlobCodec.retrieve_storeList hReads
      | index hHandle hItems hValue =>
          rw [hData] at hItems
          cases hItems
          rw [hRun] at hHandle
          exact BlobCodec.retrieve_storeList_at hReads hHandle hValue

end StoreCall

end Tracecat
