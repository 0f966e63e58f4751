import Mathlib.Logic.Function.Basic
import Tracecat.Storage.StoreCalls

/-!
# Runs of stores against the blob store

The activities of an execution and of its child workflows run beside each
other, and each uploads its blobs one after another.  An attempt that Temporal
has given up on may go on uploading, but no handle of it is seen.  The blob
store keeps the last content of a key; each worker caches what it downloads by
digest.
-/

namespace Tracecat

variable {Value Bytes Digest : Type}

/-- An activity in the course of its uploads. -/
structure StoreSession (Value Bytes : Type) where
  call : StoreCall Value
  uploaded : List (Upload Bytes)
  remaining : List (Upload Bytes)
  abandoned : Bool

/-- The blobs, the workers' caches, the activities that run and the calls whose
handles have been returned. -/
structure BlobStore (Value Bytes Digest : Type) where
  blobs : String → Option Bytes
  caches : Nat → Digest → Option Bytes
  sessions : Nat → Option (StoreSession Value Bytes)
  returned : List (StoreCall Value)

inductive StoreEvent (Value Digest : Type)
  | start (id : Nat) (call : StoreCall Value)
  | upload (id : Nat)
  /-- the activity returns its handle to the workflow -/
  | finish (id : Nat)
  /-- the attempt times out, and its result will be dropped -/
  | abandon (id : Nat)
  | crash (id : Nat)
  /-- a retrieval of a returned handle downloads a blob -/
  | download (worker : Nat) (ref : ObjectRef Digest)
  | expire (worker : Nat) (sha256 : Digest)

namespace BlobStore

variable (codec : BlobCodec Value Bytes Digest) (config : StorageConfig)
  (store : BlobStore Value Bytes Digest)

def setSession (id : Nat) (session : Option (StoreSession Value Bytes)) :
    BlobStore Value Bytes Digest :=
  { store with sessions := Function.update store.sessions id session }

/-- `blob.upload_file`. -/
def put (upload : Upload Bytes) : BlobStore Value Bytes Digest :=
  { store with blobs := Function.update store.blobs upload.key (some upload.content) }

def returnedRefs : List (ObjectRef Digest) :=
  (store.returned.flatMap (StoreCall.uploads codec config)).map codec.refOf

variable [DecidableEq Digest]

def setCache (worker : Nat) (sha256 : Digest) (content : Option Bytes) :
    BlobStore Value Bytes Digest :=
  { store with
    caches := Function.update store.caches worker
      (Function.update (store.caches worker) sha256 content) }

/-- `cached_blob_download`, as far as its result. -/
def read (worker : Nat) (ref : ObjectRef Digest) : Option Bytes :=
  (store.caches worker ref.sha256).or (store.blobs ref.key)

/-- One event; `none` where it cannot happen. -/
def step : StoreEvent Value Digest → Option (BlobStore Value Bytes Digest)
  | .start id call =>
      match store.sessions id with
      | some _ => none
      | none => some (store.setSession id (some ⟨call, [], call.uploads codec config, false⟩))
  | .upload id =>
      match store.sessions id with
      | some ⟨call, uploaded, upload :: remaining, abandoned⟩ =>
          some ((store.put upload).setSession id
            (some ⟨call, uploaded ++ [upload], remaining, abandoned⟩))
      | _ => none
  | .finish id =>
      match store.sessions id with
      | some ⟨call, _, [], false⟩ =>
          some { store.setSession id none with returned := call :: store.returned }
      | _ => none
  | .abandon id =>
      match store.sessions id with
      | some session => some (store.setSession id (some { session with abandoned := true }))
      | none => none
  | .crash id => some (store.setSession id none)
  | .download worker ref =>
      if ref ∈ store.returnedRefs codec config then
        match store.caches worker ref.sha256, store.blobs ref.key with
        | none, some content => some (store.setCache worker ref.sha256 (some content))
        | _, _ => some store
      else none
  | .expire worker sha256 => some (store.setCache worker sha256 none)

end BlobStore

end Tracecat
