import Tracecat.Properties.StoredHandles

/-!
# A stored collection as a list

Pages, items and the materialized values of a collection are those of the list
that was stored, for every chunk size, and a page reads the manifest and the
chunks of its items.  An item of a collection of stored objects comes as the
value that it refers to.
-/

namespace Tracecat

open Slices

variable {Value Bytes Digest : Type}

/-- The items of a collection: raw values, or what `ObjectStorage.store`
returned. -/
inductive CollectionItems (Value Digest : Type)
  | values (items : List Value)
  | storedObjects (items : List (ItemObject Value Digest))

namespace CollectionItems

def elementKind : CollectionItems Value Digest → ElementKind
  | values _ => .value
  | storedObjects _ => .storedObject

/-- The items as the chunks hold them. -/
def chunkItems : CollectionItems Value Digest → List (ChunkItem Value Digest)
  | values items => items.map .value
  | storedObjects items => items.map .object

end CollectionItems

/-- The value of an item: a raw value itself, or what a stored object retrieves. -/
def ChunkItem.materialized [DecidableEq Digest] (codec : BlobCodec Value Bytes Digest)
    (read : ObjectRef Digest → Option Bytes) :
    ChunkItem Value Digest → Except (StorageError Digest) Value
  | value data => .ok data
  | object stored => codec.retrieveItem read stored

/-- A blob store that has taken the uploads one after another, as a map from
keys. -/
def uploadAll (blobs : String → Option Bytes) (uploads : List (Upload Bytes)) :
    String → Option Bytes :=
  uploads.foldl (fun blobs upload => Function.update blobs upload.key (some upload.content)) blobs

/-- The position is on the page. -/
def OnPage (count offset : Nat) (limit : Option Nat) (position : Nat) : Prop :=
  offset ≤ position ∧ position < count ∧ ∀ size, limit = some size → position < offset + size

/-- The blobs that a page reads: none if it is empty, else the manifest and its
chunks. -/
def pageBlobs (collection : CollectionObject Digest) (chunkRef : Nat → ObjectRef Digest)
    (chunks : List Nat) : List (ObjectRef Digest) :=
  if chunks = [] then [] else collection.manifestRef :: chunks.map chunkRef

variable [DecidableEq Digest]

/-- A fetch that logs the blobs that it reads. -/
def BlobCodec.fetchLogged (codec : BlobCodec Value Bytes Digest)
    (read : ObjectRef Digest → Option Bytes) (ref : ObjectRef Digest) :
    StateT (List (ObjectRef Digest)) (Except (StorageError Digest)) (Document Value Digest) := do
  modify (· ++ [ref])
  codec.fetch read ref

/-- The collection is read as the list that was stored. -/
structure FaithfulList (codec : BlobCodec Value Bytes Digest) (config : StorageConfig)
    (read : ObjectRef Digest → Option Bytes) (collection : CollectionObject Digest)
    (items : List (ChunkItem Value Digest)) (chunkRef : Nat → ObjectRef Digest) : Prop where
  page : ∀ offset limit,
    codec.getCollectionPage read collection offset limit = .ok (pageOf items offset limit)
  item : ∀ (index : Int) (position : Nat) (item : ChunkItem Value Digest),
    index = position ∨ index = position - items.length → items[position]? = some item →
      codec.getCollectionItem read collection index = item.materialized codec read
  outside : ∀ index : Int, index < -items.length ∨ items.length ≤ index →
    codec.getCollectionItem read collection index = .error .indexOutOfRange
  materialize : ∀ offset limit,
    BlobCodec.materializeCollectionValuesBy (codec.fetch read) collection offset limit =
      (pageOf items offset limit).mapM (ChunkItem.materialized codec read)
  materializeAll : codec.materializeCollectionValues read collection =
    items.mapM (ChunkItem.materialized codec read)
  pageBlobs : ∀ offset limit, ∃ chunks : List Nat, chunks.Pairwise (· < ·) ∧
    (∀ chunk, chunk ∈ chunks ↔
      ∃ position, OnPage items.length offset limit position ∧
        position / config.chunkSize = chunk) ∧
    (BlobCodec.getCollectionPageBy (codec.fetchLogged read) collection offset limit).run [] =
      .ok (pageOf items offset limit, pageBlobs collection chunkRef chunks)
  itemBlobs : ∀ (index : Int) (position : Nat) (item : ChunkItem Value Digest),
    index = position ∨ index = position - items.length → items[position]? = some item →
      (BlobCodec.getCollectionItemBy (codec.fetchLogged read) collection index).run [] =
        (BlobCodec.elementBy (codec.fetchLogged read) collection.elementKind item).run
          [collection.manifestRef, chunkRef (position / config.chunkSize)]

/-! ## The blob store -/

omit [DecidableEq Digest] in
theorem uploadAll_of_mem {uploads : List (Upload Bytes)} (hNodup : (uploads.map Upload.key).Nodup)
    (blobs : String → Option Bytes) {upload : Upload Bytes} (hUpload : upload ∈ uploads) :
    uploadAll blobs uploads upload.key = some upload.content := by
  induction uploads using List.reverseRecOn with
  | nil => cases hUpload
  | append_singleton uploads last ih =>
      rw [List.map_append, List.nodup_append] at hNodup
      unfold uploadAll at ih ⊢
      rw [List.foldl_append, List.foldl_cons, List.foldl_nil]
      rcases List.mem_append.mp hUpload with hBefore | hLast
      · have hKey : upload.key ≠ last.key :=
          hNodup.2.2 _ (List.mem_map_of_mem hBefore) _ (by simp)
        rw [Function.update_of_ne hKey]
        exact ih hNodup.1 hBefore
      · rw [List.mem_singleton.mp hLast, Function.update_self]

/-- The pieces of a collection have keys of their own, whatever the prefix. -/
theorem CollectionPiece.key_injective (keyPrefix : String) :
    Function.Injective (CollectionPiece.key keyPrefix) := by
  have hKey (piece : CollectionPiece) :
      piece.key keyPrefix = keyPrefix ++ "/" ++ Paths.join piece.segments := by
    apply String.toList_injective
    cases piece <;>
      simp [key, segments, collectionItemKey, chunkKey, manifestKey, Paths.join_cons,
        Paths.join_singleton, toString]
  intro piece other hSame
  rw [hKey, hKey] at hSame
  have hJoin : Paths.join piece.segments = Paths.join other.segments :=
    (String.append_right_inj _).mp hSame
  have hNonempty (piece : CollectionPiece) : piece.segments ≠ [] := by
    cases piece <;> simp [segments]
  exact segments_injective (Paths.join_injective (hNonempty piece) (hNonempty other)
    slash_not_mem slash_not_mem hJoin)

namespace BlobCodec

variable {codec : BlobCodec Value Bytes Digest} {config : StorageConfig}

omit [DecidableEq Digest] in
theorem reads_uploadAll (keyPrefix : String) (items : List (ChunkItem Value Digest))
    (elementKind : ElementKind) (blobs : String → Option Bytes) :
    codec.Reads (fun ref => uploadAll blobs
      (codec.storeCollection config keyPrefix items elementKind).2 ref.key)
      (codec.storeCollection config keyPrefix items elementKind).2 := by
  have hNodup : ((codec.storeCollection config keyPrefix items elementKind).2.map
      Upload.key).Nodup := by
    rw [keys_storeCollection]
    refine List.Nodup.map (CollectionPiece.key_injective keyPrefix) ?_
    exact (pieces_nodup items.length).sublist (List.sublist_append_right _ _)
  exact fun upload hUpload => uploadAll_of_mem hNodup blobs hUpload

/-! ## Fetches -/

theorem visits_fetchLogged {read : ObjectRef Digest → Option Bytes}
    {uploads : List (Upload Bytes)} (hReads : codec.Reads read uploads) :
    Visits codec (codec.fetchLogged read) (fun ref => modify (· ++ [ref])) uploads := by
  intro key document hUpload
  unfold fetchLogged
  rw [fetch_refOf (hReads _ hUpload)]
  rfl

omit [DecidableEq Digest] in
theorem forM_log {ε : Type} (refs log : List (ObjectRef Digest)) :
    (refs.forM (fun ref => modify (· ++ [ref])) :
      StateT (List (ObjectRef Digest)) (Except ε) Unit).run log = .ok ((), log ++ refs) := by
  induction refs generalizing log with
  | nil =>
      rw [List.append_nil]
      rfl
  | cons ref refs ih =>
      have hStep : ((ref :: refs).forM (fun ref => modify (· ++ [ref])) :
          StateT (List (ObjectRef Digest)) (Except ε) Unit).run log =
        (refs.forM (fun ref => modify (· ++ [ref])) :
          StateT (List (ObjectRef Digest)) (Except ε) Unit).run (log ++ [ref]) := rfl
      rw [hStep, ih, List.append_assoc, List.singleton_append]

omit [DecidableEq Digest] in
theorem run_visits {ε α : Type} (ref : ObjectRef Digest) (refs : List (ObjectRef Digest))
    (result : α) :
    ((do
      modify (· ++ [ref])
      refs.forM fun ref => modify (· ++ [ref])
      return result) : StateT (List (ObjectRef Digest)) (Except ε) α).run [] =
      .ok (result, ref :: refs) := by
  have hFirst : ((do
      modify (· ++ [ref])
      refs.forM fun ref => modify (· ++ [ref])
      return result) : StateT (List (ObjectRef Digest)) (Except ε) α).run [] =
    ((do
      refs.forM fun ref => modify (· ++ [ref])
      return result) : StateT (List (ObjectRef Digest)) (Except ε) α).run [ref] := rfl
  rw [hFirst, StateT.run_bind, forM_log]
  rfl

/-! ## The list -/

theorem onPage_iff {count offset position : Nat} {limit : Option Nat} :
    OnPage count offset limit position ↔
      offset ≤ position ∧ position < pageStop count offset limit := by
  unfold OnPage pageStop
  cases limit with
  | none => simp only [Option.getD_none, reduceCtorEq, false_implies, implies_true, and_true]; omega
  | some size => simp only [Option.getD_some, Option.some.injEq, forall_eq']; omega

theorem pageChunks_pairwise (count offset : Nat) (limit : Option Nat) :
    (pageChunks config count offset limit).Pairwise (· < ·) := by
  unfold pageChunks
  split
  · exact List.Pairwise.nil
  · exact List.pairwise_lt_range' _

theorem elementBy_of_kind {read : ObjectRef Digest → Option Bytes}
    (items : CollectionItems Value Digest) {item : ChunkItem Value Digest}
    (hItem : item ∈ items.chunkItems) :
    elementBy (codec.fetch read) items.elementKind item = item.materialized codec read := by
  cases items with
  | values items =>
      obtain ⟨data, -, rfl⟩ := List.mem_map.mp hItem
      rfl
  | storedObjects items =>
      obtain ⟨stored, -, rfl⟩ := List.mem_map.mp hItem
      rfl

theorem pageOf_subset {α : Type} (items : List α) (offset : Nat) (limit : Option Nat) :
    pageOf items offset limit ⊆ items := by
  cases limit with
  | none => exact List.drop_subset _ _
  | some size => exact List.Subset.trans (List.take_subset _ _) (List.drop_subset _ _)

theorem faithfulList_of_reads {read : ObjectRef Digest → Option Bytes} {keyPrefix : String}
    (items : CollectionItems Value Digest)
    (hReads : codec.Reads read
      (codec.storeCollection config keyPrefix items.chunkItems items.elementKind).2) :
    FaithfulList codec config read
      (codec.storeCollection config keyPrefix items.chunkItems items.elementKind).1
      items.chunkItems (codec.chunkRef config keyPrefix items.chunkItems) := by
  have hLogged := visits_fetchLogged hReads
  have hPage := getCollectionPage_storeCollection hReads
  have hMaterialize (offset : Nat) (limit : Option Nat) :
      materializeCollectionValuesBy (codec.fetch read)
          (codec.storeCollection config keyPrefix items.chunkItems items.elementKind).1 offset limit =
        (pageOf items.chunkItems offset limit).mapM (ChunkItem.materialized codec read) := by
    have hItems := hPage offset limit
    unfold getCollectionPage at hItems
    unfold materializeCollectionValuesBy
    rw [hItems]
    refine Checks.mapM_congr fun item hItem => ?_
    exact elementBy_of_kind items (pageOf_subset _ _ _ hItem)
  constructor
  case page => exact hPage
  case item =>
    intro index position item hPosition hItem
    unfold getCollectionItem
    rw [getCollectionItemBy_stored (visits_fetch hReads) rfl hPosition hItem]
    exact elementBy_of_kind items (List.mem_of_getElem? hItem)
  case outside =>
    intro index hOutside
    exact getCollectionItemBy_outside hOutside
  case materialize => exact hMaterialize
  case materializeAll =>
    exact hMaterialize 0 none
  case pageBlobs =>
    intro offset limit
    refine ⟨pageChunks config items.chunkItems.length offset limit, pageChunks_pairwise _ _ _,
      fun chunk => ?_, ?_⟩
    · rw [mem_pageChunks]
      simp only [onPage_iff, and_assoc]
    · rw [getCollectionPageBy_stored hLogged rfl]
      unfold pageBlobs
      by_cases hNone : pageChunks config items.chunkItems.length offset limit = []
      · rw [if_pos hNone, if_pos hNone, pageOf_of_no_chunk hNone]
        rfl
      · rw [if_neg hNone, if_neg hNone, ← slice_pageStop]
        exact run_visits _ _ _
  case itemBlobs =>
    intro index position item hPosition hItem
    rw [getCollectionItemBy_stored hLogged rfl hPosition hItem]
    rfl

end BlobCodec

/-- A collection that is stored in a blob store is read back as a list, and an
item of a collection of stored objects as what it retrieves. -/
theorem storeCollection_faithful (codec : BlobCodec Value Bytes Digest) (config : StorageConfig)
    (keyPrefix : String) (items : CollectionItems Value Digest) (blobs : String → Option Bytes) :
    let stored := codec.storeCollection config keyPrefix items.chunkItems items.elementKind
    FaithfulList codec config (fun ref => uploadAll blobs stored.2 ref.key) stored.1
      items.chunkItems (codec.chunkRef config keyPrefix items.chunkItems) :=
  BlobCodec.faithfulList_of_reads items
    (BlobCodec.reads_uploadAll keyPrefix items.chunkItems items.elementKind blobs)

/-- An item of a collection of stored objects is not the handle that was
stored. -/
theorem storedObject_not_item :
    ∃ (items : CollectionItems Nat Nat) (data : Nat),
      sampleCodec.getCollectionItem
        (fun ref => uploadAll (fun _ => none) (sampleCodec.storeCollection sampleConfig "orders"
          items.chunkItems items.elementKind).2 ref.key)
        (sampleCodec.storeCollection sampleConfig "orders" items.chunkItems
          items.elementKind).1 0 = .ok data ∧
        items.chunkItems[0]? ≠ some (.value data) := by
  have hReads := @BlobCodec.reads_uploadAll Nat (Document Nat Nat) Nat sampleCodec sampleConfig
    "orders" [.object (.inline 7)] .storedObject fun _ => none
  have hFaithful := BlobCodec.faithfulList_of_reads (.storedObjects [.inline 7]) hReads
  exact ⟨.storedObjects [.inline 7], 7, hFaithful.item 0 0 _ (Or.inl rfl) rfl,
    by simp [CollectionItems.chunkItems]⟩

end Tracecat
