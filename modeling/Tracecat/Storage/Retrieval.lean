import Tracecat.Lib.Checks
import Tracecat.Storage.Paging

/-!
# Reading back what was stored

A handle yields the stored data wherever every blob that its store uploaded is
read back as it was uploaded.
-/

namespace Tracecat

open Slices

variable {Value Bytes Digest : Type} [DecidableEq Digest]

namespace BlobCodec

variable {codec : BlobCodec Value Bytes Digest} {config : StorageConfig}
  {read : ObjectRef Digest → Option Bytes} {keyPrefix : String}

/-- Every upload is read back under its reference. -/
def Reads (codec : BlobCodec Value Bytes Digest) (read : ObjectRef Digest → Option Bytes)
    (uploads : List (Upload Bytes)) : Prop :=
  ∀ upload ∈ uploads, read (codec.refOf upload) = some upload.content

omit [DecidableEq Digest] in
theorem Reads.mono {uploads more : List (Upload Bytes)} (hReads : codec.Reads read more)
    (hSubset : uploads ⊆ more) : codec.Reads read uploads :=
  fun upload hUpload => hReads upload (hSubset hUpload)

theorem fetch_refOf {key : String} {document : Document Value Digest}
    (hRead : read (codec.refOf ⟨key, codec.serialize document⟩) =
      some (codec.serialize document)) :
    codec.fetch read (codec.refOf ⟨key, codec.serialize document⟩) = .ok document := by
  have hDigest : codec.sha256 (codec.serialize document) =
      (codec.refOf ⟨key, codec.serialize document⟩).sha256 := rfl
  simp only [fetch, hRead, hDigest, ne_eq, not_true_eq_false, if_false,
    codec.deserialize_serialize]

/-- The fetches yield the documents, and do nothing besides. -/
theorem visits_fetch {uploads : List (Upload Bytes)} (hReads : codec.Reads read uploads) :
    Visits codec (codec.fetch read) (fun _ => pure ()) uploads := by
  intro key document hUpload
  rw [fetch_refOf (hReads _ hUpload)]
  rfl

omit [DecidableEq Digest] in
theorem forM_none {ε : Type} (refs : List (ObjectRef Digest)) :
    (refs.forM (fun _ => pure ()) : Except ε Unit) = .ok () := by
  induction refs with
  | nil => rfl
  | cons ref refs ih => exact ih

theorem retrieveItem_store {key : String} {data : Value}
    (hReads : codec.Reads read (codec.store config key data).2) :
    codec.retrieveItem read (codec.store config key data).1 = .ok data := by
  by_cases hExternal : config.externalizationEnabled ∧
      config.thresholdBytes < codec.size (codec.serialize (.value data))
  · simp only [store, if_pos hExternal] at hReads ⊢
    have hRead := hReads _ (List.mem_singleton.mpr rfl)
    simp only [retrieveItem, itemBy, fetch_refOf hRead]
    rfl
  · simp only [store, if_neg hExternal]
    rfl

section Collection

variable {items : List (ChunkItem Value Digest)} {elementKind : ElementKind}

variable (hReads : codec.Reads read (codec.storeCollection config keyPrefix items elementKind).2)
include hReads

theorem getCollectionPage_storeCollection (offset : Nat) (limit : Option Nat) :
    codec.getCollectionPage read
      (codec.storeCollection config keyPrefix items elementKind).1 offset limit =
        .ok (pageOf items offset limit) := by
  unfold getCollectionPage
  rw [getCollectionPageBy_stored (visits_fetch hReads) rfl]
  by_cases hNone : pageChunks config items.length offset limit = []
  · rw [if_pos hNone, pageOf_of_no_chunk hNone]
    rfl
  · rw [if_neg hNone, forM_none, slice_pageStop]
    rfl

end Collection

section Refs

variable {items : List Value}

/-- The stored items of a collection. -/
def storedItems (codec : BlobCodec Value Bytes Digest) (config : StorageConfig)
    (keyPrefix : String) (items : List Value) :
    List (ItemObject Value Digest × List (Upload Bytes)) :=
  items.mapIdx fun index item => codec.store config (collectionItemKey keyPrefix index) item

def refItems (codec : BlobCodec Value Bytes Digest) (config : StorageConfig)
    (keyPrefix : String) (items : List Value) : List (ChunkItem Value Digest) :=
  (codec.storedItems config keyPrefix items).map fun result => .object result.1

omit [DecidableEq Digest] in
theorem storeCollectionAsRefs_eq :
    codec.storeCollectionAsRefs config keyPrefix items =
      ((codec.storeCollection config keyPrefix (codec.refItems config keyPrefix items)
          .storedObject).1,
        (codec.storedItems config keyPrefix items).flatMap Prod.snd ++
          (codec.storeCollection config keyPrefix (codec.refItems config keyPrefix items)
            .storedObject).2) :=
  rfl

variable (hReads : codec.Reads read (codec.storeCollectionAsRefs config keyPrefix items).2)
include hReads

omit [DecidableEq Digest] in
theorem reads_storeCollection :
    codec.Reads read (codec.storeCollection config keyPrefix
      (codec.refItems config keyPrefix items) .storedObject).2 := by
  rw [storeCollectionAsRefs_eq] at hReads
  exact hReads.mono (List.subset_append_right _ _)

theorem elementBy_storedItems {position : Nat} {data : Value}
    (hData : items[position]? = some data) :
    ∃ result, (codec.storedItems config keyPrefix items)[position]? = some result ∧
      elementBy (codec.fetch read) .storedObject (.object result.1) = .ok data := by
  have hResult : (codec.storedItems config keyPrefix items)[position]? =
      some (codec.store config (collectionItemKey keyPrefix position) data) := by
    simp [storedItems, hData]
  refine ⟨_, hResult, retrieveItem_store (hReads.mono fun upload hUpload => ?_)⟩
  rw [storeCollectionAsRefs_eq]
  exact List.mem_append_left _
    (List.mem_flatMap.mpr ⟨_, List.mem_of_getElem? hResult, hUpload⟩)

theorem materialize_storeCollectionAsRefs :
    codec.materializeCollectionValues read
      (codec.storeCollectionAsRefs config keyPrefix items).1 = .ok items := by
  have hPage := getCollectionPage_storeCollection (reads_storeCollection hReads) 0 none
  have hValues : (codec.refItems config keyPrefix items).mapM
      (elementBy (codec.fetch read) .storedObject) = .ok items := by
    apply Checks.mapM_eq_ok
    rw [refItems, List.forall₂_map_left_iff, List.forall₂_iff_get]
    refine ⟨by simp [storedItems], fun position hStored hItem => ?_⟩
    obtain ⟨result, hResult, hValue⟩ :=
      elementBy_storedItems hReads (List.getElem?_eq_getElem hItem)
    have hSame : (codec.storedItems config keyPrefix items).get ⟨position, hStored⟩ = result := by
      rw [List.getElem?_eq_getElem hStored] at hResult
      exact Option.some.inj hResult
    rw [hSame]
    exact hValue
  rw [storeCollectionAsRefs_eq]
  unfold getCollectionPage at hPage
  simp only [materializeCollectionValues, materializeCollectionValuesBy, hPage]
  exact hValues

theorem getCollectionItem_storeCollectionAsRefs {position : Nat} {data : Value}
    (hData : items[position]? = some data) :
    codec.getCollectionItem read
      ((codec.storeCollectionAsRefs config keyPrefix items).1.at position) position = .ok data := by
  obtain ⟨result, hResult, hValue⟩ := elementBy_storedItems hReads hData
  have hItem : (codec.refItems config keyPrefix items)[position]? = some (.object result.1) := by
    simp [refItems, hResult]
  -- the index of the handle plays no part in the reading
  show getCollectionItemBy (codec.fetch read)
    (codec.storeCollection config keyPrefix (codec.refItems config keyPrefix items)
      .storedObject).1 position = _
  rw [getCollectionItemBy_stored (visits_fetch (reads_storeCollection hReads)) rfl (Or.inl rfl)
    hItem]
  exact hValue

end Refs

/-- A list is read back as it was stored. -/
theorem retrieve_storeList {items : List Value}
    (hReads : codec.Reads read (codec.storeList config keyPrefix items).2) :
    codec.retrieve read (codec.storeList config keyPrefix items).1 = .ok (.many items) := by
  by_cases hExternal : config.externalizationEnabled
  · simp only [storeList, if_pos hExternal] at hReads ⊢
    have hValues := materialize_storeCollectionAsRefs hReads
    have hIndex : (codec.storeCollectionAsRefs config keyPrefix items).1.index = none := rfl
    simp only [retrieve, hIndex, hValues]
    rfl
  · simp only [storeList, if_neg hExternal]
    rfl

/-- An index into a stored list yields that item. -/
theorem retrieve_storeList_at {items : List Value} {collection : CollectionObject Digest}
    {position : Nat} {data : Value}
    (hReads : codec.Reads read (codec.storeList config keyPrefix items).2)
    (hHandle : (codec.storeList config keyPrefix items).1 = .collection collection)
    (hData : items[position]? = some data) :
    codec.retrieve read (.collection (collection.at position)) = .ok (.one data) := by
  by_cases hExternal : config.externalizationEnabled
  · simp only [storeList, if_pos hExternal, StoredHandle.collection.injEq] at hReads hHandle
    subst hHandle
    have hValue := getCollectionItem_storeCollectionAsRefs hReads hData
    have hIndex : ((codec.storeCollectionAsRefs config keyPrefix items).1.at position).index =
        some (position : Int) := rfl
    simp only [retrieve, hIndex, hValue]
    rfl
  · simp [storeList, hExternal] at hHandle

end BlobCodec

end Tracecat
