import Mathlib.Logic.Encodable.Basic
import Mathlib.Logic.Equiv.List
import Mathlib.Tactic.DeriveEncodable
import Tracecat.Lib.Runs
import Tracecat.Storage.BlobStore

/-!
# Handles keep their values

The key of a stored result names the execution, the stream and the statement,
and not the iteration or the attempt.  A statement that is executed again in its
stream stores under the same keys, and a handle of the earlier execution then
fails its integrity check.  Stores of different statements, streams, executions
or kinds never meet, so a handle keeps its value in the runs where no store
meets another of its own target.  The caches go by digest: no two contents of
the run may share one.
-/

namespace Tracecat

variable {Value Bytes Digest : Type} [DecidableEq Digest]
  {codec : BlobCodec Value Bytes Digest} {config : StorageConfig}

namespace BlobStore

/-- The blobs that a call other than that of session `id` relies on: all of a
returned call, and those uploaded by one that may still return. -/
inductive Relies (codec : BlobCodec Value Bytes Digest) (config : StorageConfig)
    (store : BlobStore Value Bytes Digest) (id : Nat) : StoreCall Value → List (Upload Bytes) → Prop
  | returned {call : StoreCall Value} (hReturned : call ∈ store.returned) :
      Relies codec config store id call (call.uploads codec config)
  | running {other : Nat} {session : StoreSession Value Bytes} (hOther : other ≠ id)
      (hSession : store.sessions other = some session) (hAbandoned : session.abandoned = false) :
      Relies codec config store id session.call session.uploaded

/-- The next upload of session `id` has one of the contents, and agrees with the
calls on the same target: with those that have returned, and those that may
still return. -/
def UploadAgrees (codec : BlobCodec Value Bytes Digest) (config : StorageConfig)
    (contents : Set Bytes) (store : BlobStore Value Bytes Digest) (id : Nat) : Prop :=
  ∀ session upload rest, store.sessions id = some session → session.remaining = upload :: rest →
    upload.content ∈ contents ∧
    ∀ call uploads, store.Relies codec config id call uploads →
      call.target = session.call.target →
      ∀ other ∈ uploads, other.key = upload.key → other.content = upload.content

/-- The steps of a store whose uploads agree and are among `contents`. -/
def AgreeingStep (codec : BlobCodec Value Bytes Digest) (config : StorageConfig)
    (contents : Set Bytes) (store : BlobStore Value Bytes Digest)
    (event : StoreEvent Value Digest) (next : BlobStore Value Bytes Digest) : Prop :=
  store.step codec config event = some next ∧
    ∀ id, event = .upload id → store.UploadAgrees codec config contents id

/-- The caches hold contents by their digests. -/
def Caches (codec : BlobCodec Value Bytes Digest) (contents : Set Bytes)
    (store : BlobStore Value Bytes Digest) : Prop :=
  ∀ worker sha256 content, store.caches worker sha256 = some content →
    content ∈ contents ∧ codec.sha256 content = sha256

/-- An execution begins: whatever the store holds, nothing of it is running. -/
structure Fresh (codec : BlobCodec Value Bytes Digest) (contents : Set Bytes)
    (store : BlobStore Value Bytes Digest) : Prop where
  sessions : ∀ id, store.sessions id = none
  returned : store.returned = []
  caches : store.Caches codec contents

/-- Every handle that has been returned yields the data that were stored for
it, in whichever worker. -/
def Keeps (codec : BlobCodec Value Bytes Digest) (config : StorageConfig)
    (store : BlobStore Value Bytes Digest) : Prop :=
  ∀ call ∈ store.returned, ∀ handle data, call.Hands codec config handle data →
    ∀ worker, codec.retrieve (store.read worker) handle = .ok data

/-- What the calls of a run rely on is in the store. -/
structure Held (codec : BlobCodec Value Bytes Digest) (config : StorageConfig)
    (contents : Set Bytes) (store : BlobStore Value Bytes Digest) : Prop where
  progress : ∀ id session, store.sessions id = some session →
    session.uploaded ++ session.remaining = session.call.uploads codec config
  relied : ∀ id call uploads, store.Relies codec config id call uploads →
    ∀ upload ∈ uploads, upload.content ∈ contents ∧ store.blobs upload.key = some upload.content
  caches : store.Caches codec contents

variable {contents : Set Bytes} {store next : BlobStore Value Bytes Digest}

omit [DecidableEq Digest] in
theorem Fresh.held (hFresh : store.Fresh codec contents) :
    store.Held codec config contents where
  progress id session hSession := by
    rw [hFresh.sessions id] at hSession
    cases hSession
  relied id call uploads hRelies := by
    cases hRelies with
    | returned hReturned =>
        rw [hFresh.returned] at hReturned
        cases hReturned
    | running _ hSession _ =>
        rw [hFresh.sessions] at hSession
        cases hSession
  caches := hFresh.caches

/-- A handle is read back from the cache or from the store, and both hold what
was uploaded. -/
theorem Held.keeps (hHeld : store.Held codec config contents)
    (hDigests : Set.InjOn codec.sha256 contents) : store.Keeps codec config := by
  intro call hCall handle data hHands worker
  apply StoreCall.retrieve_of_hands _ hHands
  intro upload hUpload
  obtain ⟨hContent, hBlob⟩ := hHeld.relied 0 call _ (.returned hCall) upload hUpload
  unfold read
  cases hCache : store.caches worker (codec.refOf upload).sha256 with
  | none => exact hBlob
  | some content =>
      obtain ⟨hKnown, hDigest⟩ := hHeld.caches _ _ _ hCache
      have hSame : content = upload.content := hDigests hKnown hContent hDigest
      rw [hSame]
      rfl

omit [DecidableEq Digest] in
/-- An event that changes one session alone, to one that relies on no more. -/
theorem Held.setSession (hHeld : store.Held codec config contents) {id : Nat}
    {session : Option (StoreSession Value Bytes)}
    (hProgress : ∀ started, session = some started →
      started.uploaded ++ started.remaining = started.call.uploads codec config)
    (hRelied : ∀ started, session = some started → started.abandoned = false →
      ∀ upload ∈ started.uploaded,
        upload.content ∈ contents ∧ store.blobs upload.key = some upload.content) :
    (store.setSession id session).Held codec config contents where
  progress other started hStarted := by
    by_cases hOther : other = id
    · subst hOther
      exact hProgress started (by simpa [BlobStore.setSession] using hStarted)
    · exact hHeld.progress other started (by simpa [BlobStore.setSession, hOther] using hStarted)
  relied other call uploads hRelies := by
    cases hRelies with
    | returned hReturned => exact hHeld.relied other call _ (.returned hReturned)
    | @running third started hThird hStarted hAbandoned =>
        by_cases hSame : third = id
        · subst hSame
          exact hRelied started (by simpa [BlobStore.setSession] using hStarted) hAbandoned
        · exact hHeld.relied other _ _
            (.running hThird (by simpa [BlobStore.setSession, hSame] using hStarted) hAbandoned)
  caches := hHeld.caches

omit [DecidableEq Digest] in
theorem Held.owns (hHeld : store.Held codec config contents) {id : Nat} {call : StoreCall Value}
    {uploads : List (Upload Bytes)} (hRelies : store.Relies codec config id call uploads)
    {upload : Upload Bytes} (hUpload : upload ∈ uploads) : call.target.Owns upload.key := by
  apply (call.keys_uploads codec config).2
  cases hRelies with
  | returned _ => exact hUpload
  | running _ hSession _ =>
      rw [← hHeld.progress _ _ hSession]
      exact List.mem_append_left _ hUpload

omit [DecidableEq Digest] in
theorem Held.put (hHeld : store.Held codec config contents) {id : Nat} {call : StoreCall Value}
    {uploaded remaining : List (Upload Bytes)} {upload : Upload Bytes} {abandoned : Bool}
    (hSession : store.sessions id = some ⟨call, uploaded, upload :: remaining, abandoned⟩)
    (hAgrees : store.UploadAgrees codec config contents id) :
    ((store.put upload).setSession id
      (some ⟨call, uploaded ++ [upload], remaining, abandoned⟩)).Held codec config contents := by
  have hUploads := hHeld.progress id _ hSession
  obtain ⟨hContent, hSame⟩ := hAgrees _ upload remaining hSession rfl
  have hMem : upload ∈ call.uploads codec config := by
    rw [← hUploads]
    simp
  have hBlob (other : Upload Bytes) : (store.put upload).blobs other.key =
      if other.key = upload.key then some upload.content else store.blobs other.key := by
    simp [BlobStore.put, Function.update_apply]
  refine ⟨fun other started hStarted => ?_, fun other otherCall uploads hRelies => ?_,
    hHeld.caches⟩
  · by_cases hOther : other = id
    · subst hOther
      obtain rfl : ⟨call, uploaded ++ [upload], remaining, abandoned⟩ = started := by
        simpa [BlobStore.setSession] using hStarted
      simpa using hUploads
    · exact hHeld.progress other started
        (by simpa [BlobStore.setSession, BlobStore.put, hOther] using hStarted)
  -- another call on the key is on the same target, and has the same content there
  have hOthers {otherCall : StoreCall Value} {uploads : List (Upload Bytes)}
      (hRelies : store.Relies codec config id otherCall uploads) :
      ∀ kept ∈ uploads,
        kept.content ∈ contents ∧ (store.put upload).blobs kept.key = some kept.content := by
    intro kept hKept
    obtain ⟨hKnown, hKeptBlob⟩ := hHeld.relied id otherCall uploads hRelies kept hKept
    refine ⟨hKnown, ?_⟩
    rw [hBlob]
    by_cases hKey : kept.key = upload.key
    · have hOwns := (call.keys_uploads codec config).2 upload hMem
      have hTarget := StoreTarget.Owns.unique (hHeld.owns hRelies hKept) (hKey ▸ hOwns)
      rw [if_pos hKey, hSame otherCall uploads hRelies hTarget kept hKept hKey]
    · rwa [if_neg hKey]
  cases hRelies with
  | returned hReturned => exact hOthers (.returned hReturned)
  | @running third started hThird hStarted hAbandoned =>
      by_cases hSame : third = id
      · subst hSame
        obtain rfl : ⟨call, uploaded ++ [upload], remaining, abandoned⟩ = started := by
          simpa [BlobStore.setSession] using hStarted
        intro kept hKept
        show kept.content ∈ contents ∧ (store.put upload).blobs kept.key = some kept.content
        rw [hBlob]
        rcases List.mem_append.mp hKept with hOld | hNew
        · -- the keys of one call differ
          have hNodup := (call.keys_uploads codec config).1
          rw [← hUploads, List.map_append, List.map_cons] at hNodup
          have hKey : kept.key ≠ upload.key := by
            intro hKey
            exact (List.nodup_append.mp hNodup).2.2 kept.key (List.mem_map_of_mem hOld) upload.key
              List.mem_cons_self hKey
          rw [if_neg hKey]
          exact hHeld.relied (third + 1) call uploaded
            (.running (by omega) hSession hAbandoned) kept hOld
        · rw [List.mem_singleton.mp hNew, if_pos rfl]
          exact ⟨hContent, rfl⟩
      · exact hOthers (.running hSame
          (by simpa [BlobStore.setSession, BlobStore.put, hSame] using hStarted) hAbandoned)

theorem Held.setCache (hHeld : store.Held codec config contents) {worker : Nat} {sha256 : Digest}
    {content : Option Bytes}
    (hContent : ∀ cached, content = some cached →
      cached ∈ contents ∧ codec.sha256 cached = sha256) :
    (store.setCache worker sha256 content).Held codec config contents where
  progress := hHeld.progress
  relied id call uploads hRelies := by
    have hOld : store.Relies codec config id call uploads := by
      cases hRelies with
      | returned hReturned => exact .returned hReturned
      | running hOther hSession hAbandoned => exact .running hOther hSession hAbandoned
    exact hHeld.relied id call uploads hOld
  caches other digest cached hCached := by
    by_cases hOther : other = worker
    · subst hOther
      by_cases hDigest : digest = sha256
      · subst hDigest
        exact hContent cached (by simpa [BlobStore.setCache] using hCached)
      · exact hHeld.caches other digest cached
          (by simpa [BlobStore.setCache, hDigest] using hCached)
    · exact hHeld.caches other digest cached
        (by simpa [BlobStore.setCache, hOther] using hCached)

omit [DecidableEq Digest] in
/-- A reference of a returned call finds the content with its digest. -/
theorem Held.sha256_of_mem_returnedRefs (hHeld : store.Held codec config contents)
    {ref : ObjectRef Digest} (hRef : ref ∈ store.returnedRefs codec config) {content : Bytes}
    (hContent : store.blobs ref.key = some content) :
    content ∈ contents ∧ codec.sha256 content = ref.sha256 := by
  obtain ⟨upload, hUpload, rfl⟩ := List.mem_map.mp hRef
  obtain ⟨call, hCall, hMem⟩ := List.mem_flatMap.mp hUpload
  obtain ⟨hKnown, hBlob⟩ := hHeld.relied 0 call _ (.returned hCall) upload hMem
  have hSame : content = upload.content := by
    apply Option.some.inj
    rw [← hContent, ← hBlob]
    rfl
  rw [hSame]
  exact ⟨hKnown, rfl⟩

theorem AgreeingStep.held {event : StoreEvent Value Digest}
    (hStep : store.AgreeingStep codec config contents event next)
    (hHeld : store.Held codec config contents) : next.Held codec config contents := by
  obtain ⟨hNext, hAgrees⟩ := hStep
  cases event with
  | start id call =>
      simp only [step] at hNext
      split at hNext <;> cases hNext
      apply hHeld.setSession
      · rintro started ⟨⟩
        rfl
      · rintro started ⟨⟩ - upload hUpload
        cases hUpload
  | upload id =>
      simp only [step] at hNext
      split at hNext <;> cases hNext
      rename_i hSession
      exact hHeld.put hSession (hAgrees id rfl)
  | finish id =>
      simp only [step] at hNext
      split at hNext <;> cases hNext
      rename_i call uploaded hSession
      have hUploads := hHeld.progress id _ hSession
      have hEnded : (store.setSession id none).Held codec config contents :=
        hHeld.setSession (by simp) (by simp)
      refine ⟨hEnded.progress, fun other otherCall uploads hRelies => ?_, hEnded.caches⟩
      cases hRelies with
      | running hOther hStarted hAbandoned =>
          exact hEnded.relied other _ _ (.running hOther hStarted hAbandoned)
      | returned hReturned =>
          rcases List.mem_cons.mp hReturned with rfl | hOld
          · rw [← hUploads, List.append_nil]
            exact hHeld.relied (id + 1) _ uploaded (.running (by omega) hSession rfl)
          · exact hEnded.relied other _ _ (.returned hOld)
  | abandon id =>
      simp only [step] at hNext
      split at hNext <;> cases hNext
      rename_i session hSession
      apply hHeld.setSession
      · rintro started ⟨⟩
        exact hHeld.progress id session hSession
      · rintro started ⟨⟩ hAbandoned
        cases hAbandoned
  | crash id =>
      cases hNext
      exact hHeld.setSession (by simp) (by simp)
  | download worker ref =>
      simp only [step] at hNext
      split at hNext
      · rename_i hRef
        split at hNext <;> cases hNext
        · rename_i content _ hContent
          apply hHeld.setCache
          rintro cached ⟨⟩
          exact hHeld.sha256_of_mem_returnedRefs hRef hContent
        · exact hHeld
      · cases hNext
  | expire worker sha256 =>
      cases hNext
      exact hHeld.setCache (by simp)

end BlobStore

/-- In every run of stores whose uploads agree, every returned handle keeps its
value, where no two contents of the run share a digest. -/
theorem stored_handles_keep {contents : Set Bytes} {start store : BlobStore Value Bytes Digest}
    {events : List (StoreEvent Value Digest)} (hDigests : Set.InjOn codec.sha256 contents)
    (hStart : start.Fresh codec contents)
    (hRun : Run (BlobStore.AgreeingStep codec config contents) start events store) :
    store.Keeps codec config := by
  have hHeld : store.Held codec config contents := by
    refine Run.invariant (fun _ store => store.Held codec config contents) hStart.held ?_ hRun
    intro _ state next event hState hStep
    exact hStep.held hState
  exact hHeld.keeps hDigests

/-- Nothing of the execution is running. -/
def BlobStore.Idle (store : BlobStore Value Bytes Digest) : Prop :=
  ∀ id, store.sessions id = none

variable (codec config) in
theorem BlobStore.Idle.single {contents : Set Bytes} {store : BlobStore Value Bytes Digest}
    (hIdle : store.Idle) (id : Nat) (call : StoreCall Value) (upload : Upload Bytes)
    (hUploads : call.uploads codec config = [upload]) (hContent : upload.content ∈ contents)
    (hSame : ∀ other ∈ store.returned, other.target = call.target →
      ∀ kept ∈ other.uploads codec config, kept.key = upload.key →
        kept.content = upload.content) :
    ∃ next, Run (BlobStore.AgreeingStep codec config contents) store
        [.finish id, .upload id, .start id call] next ∧
      next.Idle ∧ next.returned = call :: store.returned := by
  let started := store.setSession id (some ⟨call, [], [upload], false⟩)
  let uploaded := (started.put upload).setSession id (some ⟨call, [upload], [], false⟩)
  let finished := { uploaded.setSession id none with returned := call :: store.returned }
  have hAgrees : started.UploadAgrees codec config contents id := by
    intro session next rest hSession hRemaining
    obtain rfl : ⟨call, [], [upload], false⟩ = session := by
      simpa [started, BlobStore.setSession] using hSession
    obtain ⟨rfl, rfl⟩ := List.cons.inj hRemaining
    refine ⟨hContent, fun other uploads hRelies hTarget => ?_⟩
    cases hRelies with
    | returned hReturned => exact hSame other hReturned hTarget
    | running hOther hOtherSession _ =>
        simp [started, BlobStore.setSession, hOther, hIdle _] at hOtherSession
  have hStarted : Run (BlobStore.AgreeingStep codec config contents) store
      [.start id call] started := by
    refine .cons _ .nil ⟨?_, ?_⟩
    · simp only [BlobStore.step, hIdle id, hUploads]
      rfl
    · rintro other ⟨⟩
  have hUploaded : Run (BlobStore.AgreeingStep codec config contents) store
      [.upload id, .start id call] uploaded := by
    refine .cons _ hStarted ⟨?_, ?_⟩
    · simp [BlobStore.step, started, uploaded, BlobStore.setSession]
    · rintro other ⟨⟩
      exact hAgrees
  refine ⟨finished, .cons _ hUploaded ⟨?_, ?_⟩, ?_, rfl⟩
  · simp [BlobStore.step, started, uploaded, finished, BlobStore.setSession, BlobStore.put]
  · rintro other ⟨⟩
  · intro other
    by_cases hOther : other = id
    · simp [finished, BlobStore.setSession, hOther]
    · simp [finished, uploaded, started, BlobStore.setSession, BlobStore.put, hOther, hIdle other]

section Sample

instance encodableChar : Encodable Char :=
  .ofLeftInverse Char.toNat Char.ofNat Char.ofNat_toNat

instance encodableString : Encodable String :=
  .ofLeftInverse String.toList String.ofList fun _ => String.ofList_toList

deriving instance Encodable for ObjectRef
deriving instance Encodable for ItemObject
deriving instance Encodable for ElementKind
deriving instance Encodable for ChunkItem
deriving instance Encodable for CollectionChunkV1
deriving instance Encodable for CollectionManifestV1
deriving instance Encodable for Document

/-- Numbers as values, documents kept as they are, and a numbering of the
documents for their digests. -/
def sampleCodec : BlobCodec Nat (Document Nat Nat) Nat where
  serialize := id
  deserialize := some
  size := fun _ => 1
  sha256 := Encodable.encode
  deserialize_serialize := fun _ => rfl

def sampleConfig : StorageConfig :=
  ⟨true, 0, 2, Nat.two_pos⟩

/-- A statement in the body of a loop that starts a child workflow. -/
def callChild : ActionSite where
  execution := ⟨"workspace", ["wf_1", "exec_1"], by simp, by decide⟩
  stream := .root
  ref := "call_child"
  slugs := by
    intro scope hScope
    rw [List.mem_singleton.mp hScope]
    decide

def emptyBlobStore : BlobStore Nat (Document Nat Nat) Nat :=
  ⟨fun _ => none, fun _ _ => none, fun _ => none, []⟩

theorem emptyBlobStore_fresh : emptyBlobStore.Fresh sampleCodec Set.univ where
  sessions _ := rfl
  returned := rfl
  caches _ _ _ hCached := by cases hCached

/-- The trigger inputs of one iteration are stored and handed to the child. -/
def iteration (id input : Nat) : List (StoreEvent Nat Nat) :=
  [.start id (.evaluateTemplatedObject callChild input), .upload id, .finish id]

def inputsUpload (input : Nat) : Upload (Document Nat Nat) :=
  ⟨callChild.key, .value input⟩

def notify : ActionSite where
  execution := callChild.execution
  stream := .root
  ref := "notify"
  slugs := by
    intro scope hScope
    rw [List.mem_singleton.mp hScope]
    decide

def notification (id result : Nat) : List (StoreEvent Nat Nat) :=
  [.start id (.executeAction notify result), .upload id, .finish id]

/-- The two statements in turn, and the first once more with its old inputs. -/
theorem firstIteration_handles_keep : ∃ store,
    Run (BlobStore.AgreeingStep sampleCodec sampleConfig Set.univ) emptyBlobStore
      (iteration 0 1 ++ (notification 1 7 ++ iteration 2 1)).reverse store ∧
    store.returned = [.evaluateTemplatedObject callChild 1, .executeAction notify 7,
      .evaluateTemplatedObject callChild 1] ∧
    store.Keeps sampleCodec sampleConfig := by
  have hKeys : notify.key ≠ callChild.key := by decide
  obtain ⟨first, hFirst, hFirstIdle, hFirstReturned⟩ :=
    BlobStore.Idle.single sampleCodec sampleConfig emptyBlobStore_fresh.sessions 0
      (.evaluateTemplatedObject callChild 1) (inputsUpload 1) rfl (Set.mem_univ _)
      (by simp [emptyBlobStore])
  -- the other statement has keys of its own
  obtain ⟨second, hSecond, hSecondIdle, hSecondReturned⟩ :=
    BlobStore.Idle.single sampleCodec sampleConfig hFirstIdle 1 (.executeAction notify 7)
      ⟨notify.key, .value 7⟩ rfl (Set.mem_univ _) (by
        intro other hReturned _ kept hKept hKey
        obtain rfl : other = .evaluateTemplatedObject callChild 1 := by
          simpa [hFirstReturned, emptyBlobStore] using hReturned
        obtain rfl : kept = inputsUpload 1 := List.mem_singleton.mp hKept
        exact absurd hKey.symm hKeys)
  -- the same inputs are stored again under the same key
  obtain ⟨third, hThird, -, hThirdReturned⟩ :=
    BlobStore.Idle.single sampleCodec sampleConfig hSecondIdle 2
      (.evaluateTemplatedObject callChild 1) (inputsUpload 1) rfl (Set.mem_univ _) (by
        intro other hReturned _ kept hKept hKey
        obtain rfl | rfl : other = .executeAction notify 7 ∨
            other = .evaluateTemplatedObject callChild 1 := by
          simpa [hSecondReturned, hFirstReturned, emptyBlobStore] using hReturned
        · obtain rfl : kept = ⟨notify.key, .value 7⟩ := List.mem_singleton.mp hKept
          exact absurd hKey hKeys
        · rw [show kept = inputsUpload 1 from List.mem_singleton.mp hKept])
  have hRun := (hFirst.append hSecond).append hThird
  refine ⟨third, hRun, ?_,
    stored_handles_keep (Encodable.encode_injective.injOn) emptyBlobStore_fresh hRun⟩
  rw [hThirdReturned, hSecondReturned, hFirstReturned]
  rfl

/-- Two iterations of a loop start a child each.  The second stores its trigger
inputs over those that the first child was given. -/
theorem secondIteration_not_keeps : ∃ store,
    Run (fun store event next => store.step sampleCodec sampleConfig event = some next)
      emptyBlobStore (iteration 0 1 ++ iteration 1 2).reverse store ∧
    ¬ store.Keeps sampleCodec sampleConfig := by
  obtain ⟨store, hFold, hReturned, hRead⟩ : ∃ store,
      (iteration 0 1 ++ iteration 1 2).foldlM
          (fun store event => store.step sampleCodec sampleConfig event) emptyBlobStore =
        some store ∧
      store.returned = [.evaluateTemplatedObject callChild 2, .evaluateTemplatedObject callChild 1] ∧
      store.read 0 (sampleCodec.refOf (inputsUpload 1)) = some (.value 2) := by
    refine ⟨_, rfl, rfl, ?_⟩
    show Function.update (Function.update emptyBlobStore.blobs callChild.key (some (.value 1)))
      callChild.key (some (.value 2)) callChild.key = some (.value 2)
    exact Function.update_self _ _ _
  refine ⟨store, Run.of_foldlM (fun _ _ _ _ hNext => hNext) hFold, fun hKeeps => ?_⟩
  have hHands : (StoreCall.evaluateTemplatedObject callChild 1).Hands sampleCodec sampleConfig
      (.item (.external (sampleCodec.refOf (inputsUpload 1)))) (.one 1) :=
    .handle
  have hValue := hKeeps _ (by simp [hReturned]) _ _ hHands 0
  have hDigest : sampleCodec.sha256 (.value 2) ≠ (sampleCodec.refOf (inputsUpload 1)).sha256 := by
    intro hEq
    cases Encodable.encode_injective hEq
  simp only [BlobCodec.retrieve, BlobCodec.retrieveItem, BlobCodec.itemBy, BlobCodec.fetch, hRead,
    hDigest, ne_eq, not_false_eq_true, if_true] at hValue
  cases hValue

end Sample

end Tracecat
