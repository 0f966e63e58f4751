import Tracecat.Storage.Keys

/-!
# Stored objects

`storage/object.py`, `storage/collection.py` and `storage/backends/s3.py`: what
a store uploads and the handle it returns, and how a handle is read back.  The
stored data are JSON values that this code never looks into.
-/

namespace Tracecat

/-- `ObjectRef`; there is one bucket. -/
structure ObjectRef (Digest : Type) where
  key : String
  sizeBytes : Nat
  sha256 : Digest
  deriving DecidableEq

/-- What `ObjectStorage.store` returns: it never returns a collection. -/
inductive ItemObject (Value Digest : Type)
  | inline (data : Value)
  | external (ref : ObjectRef Digest)
  deriving DecidableEq

inductive ElementKind
  | value
  | storedObject
  deriving DecidableEq, Repr

/-- An item of a chunk: a raw value, or the dump of a stored object. -/
inductive ChunkItem (Value Digest : Type)
  | value (data : Value)
  | object (stored : ItemObject Value Digest)
  deriving DecidableEq

structure CollectionChunkV1 (Value Digest : Type) where
  start : Nat
  items : List (ChunkItem Value Digest)
  deriving DecidableEq

structure CollectionManifestV1 (Digest : Type) where
  count : Nat
  chunkSize : Nat
  elementKind : ElementKind
  chunks : List (ObjectRef Digest)
  deriving DecidableEq

inductive Document (Value Digest : Type)
  | value (data : Value)
  | chunk (chunk : CollectionChunkV1 Value Digest)
  | manifest (manifest : CollectionManifestV1 Digest)
  deriving DecidableEq

structure CollectionObject (Digest : Type) where
  manifestRef : ObjectRef Digest
  count : Nat
  chunkSize : Nat
  elementKind : ElementKind
  index : Option Int
  deriving DecidableEq

/-- `CollectionObject.at`. -/
def CollectionObject.at {Digest : Type} (collection : CollectionObject Digest) (index : Int) :
    CollectionObject Digest :=
  { collection with index := some index }

/-- `StoredObject` with what it holds in view: a single value, an inline list,
or a collection. -/
inductive StoredHandle (Value Digest : Type)
  | item (object : ItemObject Value Digest)
  | inlineList (items : List Value)
  | collection (collection : CollectionObject Digest)
  deriving DecidableEq

inductive StoredData (Value : Type)
  | one (data : Value)
  | many (items : List Value)
  deriving DecidableEq

/-- Serialization to JSON bytes, where a document is read back from its bytes,
and SHA-256. -/
structure BlobCodec (Value Bytes Digest : Type) where
  serialize : Document Value Digest → Bytes
  deserialize : Bytes → Option (Document Value Digest)
  size : Bytes → Nat
  sha256 : Bytes → Digest
  deserialize_serialize : ∀ document, deserialize (serialize document) = some document

structure StorageConfig where
  externalizationEnabled : Bool
  thresholdBytes : Nat
  chunkSize : Nat
  chunkSize_pos : 0 < chunkSize

/-- A call of `blob.upload_file`. -/
structure Upload (Bytes : Type) where
  key : String
  content : Bytes

inductive StorageError (Digest : Type)
  | fileNotFound (key : String)
  | integrityCheckFailed (key : String) (expected actual : Digest)
  | invalidContent (key : String)
  | indexOutOfRange
  | invalidElement
  deriving DecidableEq

variable {Value Bytes Digest : Type}

namespace BlobCodec

variable (codec : BlobCodec Value Bytes Digest) (config : StorageConfig)

def refOf (upload : Upload Bytes) : ObjectRef Digest :=
  ⟨upload.key, codec.size upload.content, codec.sha256 upload.content⟩

/-- `InlineObjectStorage.store` or `S3ObjectStorage.store`. -/
def store (key : String) (data : Value) : ItemObject Value Digest × List (Upload Bytes) :=
  let serialized := codec.serialize (.value data)
  if config.externalizationEnabled ∧ config.thresholdBytes < codec.size serialized then
    (.external (codec.refOf ⟨key, serialized⟩), [⟨key, serialized⟩])
  else (.inline data, [])

/-- The number of chunks of a collection; an empty one has a chunk too. -/
def numChunks (count : Nat) : Nat :=
  if 0 < count then (count + config.chunkSize - 1) / config.chunkSize else 1

/-- The chunk that holds the items from `index * chunk_size` on. -/
def chunkUpload (keyPrefix : String) (items : List (ChunkItem Value Digest)) (index : Nat) :
    Upload Bytes :=
  let start := index * config.chunkSize
  let stop := min (start + config.chunkSize) items.length
  ⟨chunkKey keyPrefix index, codec.serialize (.chunk ⟨start, (items.take stop).drop start⟩)⟩

def manifestUpload (keyPrefix : String) (items : List (ChunkItem Value Digest))
    (elementKind : ElementKind) : Upload Bytes :=
  let chunks := (List.range (numChunks config items.length)).map
    (codec.chunkUpload config keyPrefix items)
  ⟨manifestKey keyPrefix, codec.serialize
    (.manifest ⟨items.length, config.chunkSize, elementKind, chunks.map codec.refOf⟩)⟩

/-- `store_collection`. -/
def storeCollection (keyPrefix : String) (items : List (ChunkItem Value Digest))
    (elementKind : ElementKind) : CollectionObject Digest × List (Upload Bytes) :=
  let chunks := (List.range (numChunks config items.length)).map
    (codec.chunkUpload config keyPrefix items)
  let manifest := codec.manifestUpload config keyPrefix items elementKind
  (⟨codec.refOf manifest, items.length, config.chunkSize, elementKind, none⟩, chunks ++ [manifest])

/-- `_store_collection_as_refs`. -/
def storeCollectionAsRefs (keyPrefix : String) (items : List Value) :
    CollectionObject Digest × List (Upload Bytes) :=
  let stored := items.mapIdx fun index item =>
    codec.store config (collectionItemKey keyPrefix index) item
  let refs := codec.storeCollection config keyPrefix (stored.map fun result => .object result.1)
    .storedObject
  (refs.1, stored.flatMap Prod.snd ++ refs.2)

/-- A list as a collection where results are externalized. -/
def storeList (keyPrefix : String) (items : List Value) :
    StoredHandle Value Digest × List (Upload Bytes) :=
  if config.externalizationEnabled then
    let stored := codec.storeCollectionAsRefs config keyPrefix items
    (.collection stored.1, stored.2)
  else (.inlineList items, [])

/-! ## Reading, over any way of fetching a blob -/

section Read

variable {m : Type → Type} [Monad m] [MonadExceptOf (StorageError Digest) m]
  (fetch : ObjectRef Digest → m (Document Value Digest))

/-- `_fetch_manifest`. -/
def manifestBy (collection : CollectionObject Digest) : m (CollectionManifestV1 Digest) := do
  match ← fetch collection.manifestRef with
  | .manifest manifest => return manifest
  | _ => throw (.invalidContent collection.manifestRef.key)

/-- `_fetch_chunk`. -/
def chunkBy (ref : ObjectRef Digest) : m (CollectionChunkV1 Value Digest) := do
  match ← fetch ref with
  | .chunk chunk => return chunk
  | _ => throw (.invalidContent ref.key)

/-- `manifest.chunks[chunk_idx]`, fetched. -/
def chunkAtBy (manifest : CollectionManifestV1 Digest) (chunkIdx : Nat) :
    m (CollectionChunkV1 Value Digest) :=
  match manifest.chunks[chunkIdx]? with
  | none => throw .indexOutOfRange
  | some ref => chunkBy fetch ref

/-- `retrieve_stored_object`, for what is not a collection. -/
def itemBy : ItemObject Value Digest → m Value
  | .inline data => pure data
  | .external ref => do
      match ← fetch ref with
      | .value data => return data
      | _ => throw (.invalidContent ref.key)

/-- `get_collection_page`. -/
def getCollectionPageBy (collection : CollectionObject Digest) (offset : Nat)
    (limit : Option Nat) : m (List (ChunkItem Value Digest)) :=
  if collection.count ≤ offset then pure []
  else if limit = some 0 then pure []
  else do
    let stop := min (offset + limit.getD (collection.count - offset)) collection.count
    let manifest ← manifestBy fetch collection
    let startChunk := offset / collection.chunkSize
    let endChunk := (stop - 1) / collection.chunkSize
    let pages ← (List.range' startChunk (endChunk + 1 - startChunk)).mapM fun chunkIdx => do
      let chunk ← chunkAtBy fetch manifest chunkIdx
      let chunkStart := chunkIdx * collection.chunkSize
      let localStop := min chunk.items.length (stop - chunkStart)
      return (chunk.items.take localStop).drop (offset - chunkStart)
    return pages.flatten

/-- The value of an item, by the element kind of its collection. -/
def elementBy (elementKind : ElementKind) (item : ChunkItem Value Digest) : m Value :=
  match elementKind, item with
  | .value, .value data => pure data
  | .storedObject, .object stored => itemBy fetch stored
  | _, _ => throw .invalidElement

/-- `get_collection_item`. -/
def getCollectionItemBy (collection : CollectionObject Digest) (index : Int) : m Value :=
  let position := if index < 0 then collection.count + index else index
  if position < 0 ∨ collection.count ≤ position then throw .indexOutOfRange
  else do
    let manifest ← manifestBy fetch collection
    let chunk ← chunkAtBy fetch manifest (position.toNat / collection.chunkSize)
    match chunk.items[position.toNat % collection.chunkSize]? with
    | none => throw .indexOutOfRange
    | some item => elementBy fetch collection.elementKind item

/-- `materialize_collection_values`. -/
def materializeCollectionValuesBy (collection : CollectionObject Digest) (offset : Nat)
    (limit : Option Nat) : m (List Value) := do
  let items ← getCollectionPageBy fetch collection offset limit
  items.mapM (elementBy fetch collection.elementKind)

end Read

section Retrieve

variable [DecidableEq Digest] (read : ObjectRef Digest → Option Bytes)

/-- The download of a blob, with its integrity check. -/
def fetch (ref : ObjectRef Digest) : Except (StorageError Digest) (Document Value Digest) :=
  match read ref with
  | none => .error (.fileNotFound ref.key)
  | some content =>
      if codec.sha256 content ≠ ref.sha256 then
        .error (.integrityCheckFailed ref.key ref.sha256 (codec.sha256 content))
      else
        match codec.deserialize content with
        | none => .error (.invalidContent ref.key)
        | some document => .ok document

/-- `retrieve_stored_object`, for what is not a collection. -/
def retrieveItem : ItemObject Value Digest → Except (StorageError Digest) Value :=
  itemBy (codec.fetch read)

/-- `get_collection_page`. -/
def getCollectionPage : CollectionObject Digest → Nat → Option Nat →
    Except (StorageError Digest) (List (ChunkItem Value Digest)) :=
  getCollectionPageBy (codec.fetch read)

/-- `get_collection_item`. -/
def getCollectionItem : CollectionObject Digest → Int → Except (StorageError Digest) Value :=
  getCollectionItemBy (codec.fetch read)

/-- `materialize_collection_values`. -/
def materializeCollectionValues (collection : CollectionObject Digest) :
    Except (StorageError Digest) (List Value) :=
  materializeCollectionValuesBy (codec.fetch read) collection 0 none

/-- `retrieve_stored_object`. -/
def retrieve : StoredHandle Value Digest → Except (StorageError Digest) (StoredData Value)
  | .item object => do return .one (← codec.retrieveItem read object)
  | .inlineList items => .ok (.many items)
  | .collection collection =>
      match collection.index with
      | some index => do return .one (← codec.getCollectionItem read collection index)
      | none => do return .many (← codec.materializeCollectionValues read collection)

end Retrieve

end BlobCodec

end Tracecat
