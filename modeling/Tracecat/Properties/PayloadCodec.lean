import Tracecat.Temporal.CodecLaws

/-!
# The payload codec chain

Compressing and encrypting a list of payloads, and decrypting and decompressing
it again, gives the list back exactly when each payload has an encoding that the
chain restores.  A payload that was altered is refused exactly when it no longer
names an encryption that the codec has made.
-/

namespace Tracecat
namespace Temporal

open CompressionPayloadCodec (compresses? stored decompressPayload)
open EncryptionPayloadCodec (encryptOne decryptPayload buildAad temporalEncoding metadataKeys)

/-! ## What the chain does -/

section Chain

variable {Key : Type} {compressors : Compressors} {cryptography : Cryptography Key}
  {compression : CompressionPayloadCodec} {encryption : EncryptionPayloadCodec}
  {urandom : Nat → Nonce} {payloads results : List Payload}

theorem payloadCodec_encode :
    (payloadCodec compressors cryptography compression encryption urandom).encode payloads =
      compression.encode compressors payloads >>= encryption.encode cryptography urandom := by
  unfold payloadCodec compositePayloadCodec
  simp only [List.foldlM_cons, List.foldlM_nil, bind_pure]
  rfl

theorem payloadCodec_decode :
    (payloadCodec compressors cryptography compression encryption urandom).decode payloads =
      payloads.mapM (decryptPayload cryptography encryption.keyring) >>=
        List.mapM (decompressPayload compressors) := by
  unfold payloadCodec compositePayloadCodec
  simp only [List.reverse_cons, List.reverse_nil, List.nil_append, List.cons_append,
    List.foldlM_cons, List.foldlM_nil, bind_pure]
  rfl

theorem encrypt_forall₂
    (hOk : encryption.encode cryptography urandom payloads = .ok results) :
    List.Forall₂ (fun payload encrypted => ∃ nonce,
      encryptOne cryptography encryption nonce payload = .ok encrypted) payloads results := by
  unfold EncryptionPayloadCodec.encode at hOk
  unfold encryptOne
  cases hEnabled : encryption.enabled with
  | false =>
      rw [hEnabled] at hOk
      obtain rfl := Except.ok.inj hOk
      exact List.forall₂_same.mpr fun payload _ => ⟨urandom 0, rfl⟩
  | true =>
      rw [hEnabled] at hOk
      obtain ⟨key, hKey, hAll⟩ := Checks.bind_eq_ok.mp hOk
      induction payloads generalizing urandom results with
      | nil =>
          obtain rfl := Except.ok.inj hAll
          exact .nil
      | cons payload payloads ih =>
          obtain ⟨first, hFirst, hRest⟩ := Checks.bind_eq_ok.mp hAll
          obtain ⟨rest, hTail, hEnd⟩ := Checks.bind_eq_ok.mp hRest
          obtain rfl := Except.ok.inj hEnd
          refine .cons ⟨urandom 0, ?_⟩ (ih (Checks.bind_eq_ok.mpr ⟨key, hKey, hTail⟩) hTail)
          exact Checks.bind_eq_ok.mpr ⟨key, hKey, hFirst⟩

theorem encrypt_isOk (hEach : ∀ payload ∈ payloads, ∀ nonce, ∃ encrypted,
      encryptOne cryptography encryption nonce payload = .ok encrypted) :
    ∃ results, encryption.encode cryptography urandom payloads = .ok results := by
  unfold EncryptionPayloadCodec.encode
  unfold encryptOne at hEach
  cases hEnabled : encryption.enabled with
  | false => exact ⟨payloads, rfl⟩
  | true =>
      rw [hEnabled] at hEach
      obtain ⟨rootSecret, hSecret⟩ := Finmap.mem_iff.mp encryption.keyring.current_mem
      have hKey : EncryptionPayloadCodec.getKey cryptography encryption.keyring
          (resolveWorkspaceScope encryption.role) encryption.keyring.currentKeyId =
            .ok (cryptography.deriveKey _ _ rootSecret) :=
        EncryptionPayloadCodec.getKey_eq_ok_iff.mpr ⟨rootSecret, hSecret, rfl⟩
      suffices hAll : ∃ results, EncryptionPayloadCodec.encryptPayloads cryptography
          (resolveWorkspaceScope encryption.role) encryption.keyring.currentKeyId
          (cryptography.deriveKey _ _ rootSecret) urandom payloads = .ok results by
        obtain ⟨results, hResults⟩ := hAll
        exact ⟨results, Checks.bind_eq_ok.mpr ⟨_, hKey, hResults⟩⟩
      induction payloads generalizing urandom with
      | nil => exact ⟨[], rfl⟩
      | cons payload payloads ih =>
          obtain ⟨first, hFirst⟩ := hEach payload List.mem_cons_self (urandom 0)
          obtain ⟨key, hSame, hFirst⟩ := Checks.bind_eq_ok.mp hFirst
          rw [hKey] at hSame
          obtain rfl := Except.ok.inj hSame
          obtain ⟨rest, hRest⟩ := @ih (fun draw => urandom (draw + 1))
            fun later hLater => hEach later (List.mem_cons_of_mem _ hLater)
          exact ⟨first :: rest, Checks.bind_eq_ok.mpr ⟨first, hFirst,
            Checks.bind_eq_ok.mpr ⟨rest, hRest, rfl⟩⟩⟩

end Chain

/-! ## One payload through the chain -/

/-- The chain restores the payload: an encoding that is not a text is compressed, one that is
empty is neither compressed nor encrypted, and what is encrypted is short enough. -/
structure Restorable (compressors : Compressors) (compression : CompressionPayloadCodec)
    (encryption : EncryptionPayloadCodec) (payload : Payload) : Prop where
  text : compresses? compressors compression payload = none →
    payload.metadata.encoding.text?.isSome
  kept : payload.metadata.lookup "encoding" = some [] →
    compresses? compressors compression payload = none ∧ ¬ encryption.Encrypts payload
  fits : encryption.Encrypts (stored compressors compression payload) →
    encryption.Fits (stored compressors compression payload)

section Trips

variable {Key : Type} {compressors : Compressors} {cryptography : Cryptography Key}
  {compression : CompressionPayloadCodec} {encryption : EncryptionPayloadCodec}
  {keyring : TemporalPayloadKeyring} {payload : Payload}

theorem stored_unencrypted (hUnmarked : Unmarked payload) :
    (∀ key ∈ metadataKeys,
      (stored compressors compression payload).metadata.lookup key = none) ∧
    (stored compressors compression payload).metadata.encoding ≠ temporalEncoding := by
  cases hCompresses : compresses? compressors compression payload with
  | none =>
      rw [CompressionPayloadCodec.stored_of_none hCompresses]
      exact ⟨hUnmarked.encryption, hUnmarked.marker⟩
  | some result =>
      obtain ⟨algorithm, compressed⟩ := result
      rw [CompressionPayloadCodec.stored_of_some hCompresses]
      constructor
      · intro key hKey
        unfold CompressionPayloadCodec.compressedMetadata
        rw [Metadata.lookup_update, hUnmarked.encryption key hKey, Option.or_none]
        have hOther : ∀ key ∈ metadataKeys, key ≠ "encoding" ∧ key ≠ "original_encoding" ∧
            key ≠ "original_size" ∧ key ≠ "compressed_size" := by decide
        obtain ⟨h₁, h₂, h₃, h₄⟩ := hOther key hKey
        simp only [Assoc.lookup_cons_eq_ite, if_neg h₁, if_neg h₂, if_neg h₃, if_neg h₄,
          List.lookup_nil]
      · rw [Metadata.encoding_of_lookup
          (CompressionPayloadCodec.compressedMetadata_lookup algorithm compressed).1]
        intro hSame
        have hNames := Bytes.ofText_inj.mp hSame
        revert hNames
        cases algorithm <;> decide

instance : Decidable (encryption.Encrypts payload) :=
  inferInstanceAs (Decidable (_ ∧ _))

/-- What the decryption gives back of an encrypted payload. -/
def decryptedOf (encryption : EncryptionPayloadCodec) (payload : Payload) : Payload :=
  if encryption.Encrypts payload then payload.normal else payload

theorem decryptedOf_eq_iff : decryptedOf encryption payload = payload ↔
    (payload.metadata.lookup "encoding" = some [] → ¬ encryption.Encrypts payload) := by
  unfold decryptedOf
  split
  next hEncrypts => simp [Payload.normal_eq_iff, hEncrypts]
  next hNot => simp [hNot]

theorem decryptedOf_encoding :
    (decryptedOf encryption payload).metadata.encoding = payload.metadata.encoding := by
  unfold decryptedOf
  split
  · exact Payload.normal_encoding
  · rfl

theorem decrypt_of_encryptOne (hSound : cryptography.Sound)
    (hKept : encryption.keyring.Keeps keyring)
    (hKeys : ∀ key ∈ metadataKeys, payload.metadata.lookup key = none)
    (hMarker : payload.metadata.encoding ≠ temporalEncoding) {nonce : Nonce} {encrypted : Payload}
    (hOk : encryptOne cryptography encryption nonce payload = .ok encrypted) :
    decryptPayload cryptography keyring encrypted = .ok (decryptedOf encryption payload) := by
  unfold decryptedOf
  split
  next hEncrypts =>
    exact EncryptionPayloadCodec.decryptPayload_encryptOne hSound hKept hEncrypts hKeys hOk
  next hNot =>
    rw [EncryptionPayloadCodec.encryptOne_of_not hNot] at hOk
    obtain rfl := Except.ok.inj hOk
    exact EncryptionPayloadCodec.decryptPayload_plain hMarker hKeys

theorem decompress_decryptedOf_iff (hLossless : compressors.Lossless)
    (hUnmarked : Unmarked payload) :
    decompressPayload compressors (decryptedOf encryption (stored compressors compression payload)) =
        .ok payload ↔
      (compresses? compressors compression payload = none →
        payload.metadata.encoding.text?.isSome) ∧
      (payload.metadata.lookup "encoding" = some [] →
        compresses? compressors compression payload = none ∧ ¬ encryption.Encrypts payload) := by
  cases hCompresses : compresses? compressors compression payload with
  | none =>
      -- the encryption changes no encoding, so what comes back is not taken for compressed
      have hPlain (algorithm : Algorithm) :
          (decryptedOf encryption payload).metadata.encoding ≠ .ofText algorithm.encoding := by
        rw [decryptedOf_encoding]
        exact hUnmarked.algorithm algorithm
      rw [CompressionPayloadCodec.stored_of_none hCompresses,
        CompressionPayloadCodec.decompressPayload_plain hPlain, decryptedOf_encoding]
      simp only [forall_const, true_and, ← decryptedOf_eq_iff]
      split
      next hText => simp [hText]
      next hNoText => simp [hNoText]
  | some result =>
      obtain ⟨algorithm, compressed⟩ := result
      -- the encoding of compressed data is not empty, so the encryption restores it
      have hSame : decryptedOf encryption (stored compressors compression payload) =
          stored compressors compression payload := by
        rw [decryptedOf_eq_iff, CompressionPayloadCodec.stored_of_some hCompresses,
          (CompressionPayloadCodec.compressedMetadata_lookup algorithm compressed).1]
        cases algorithm <;> exact fun hEmpty => absurd hEmpty (by decide)
      rw [hSame, CompressionPayloadCodec.decompressPayload_stored hLossless hUnmarked hCompresses,
        Except.ok.injEq, Payload.normal_eq_iff]
      simp

/-- A payload comes back through the chain exactly when the chain restores it. -/
theorem trip_iff (hLossless : compressors.Lossless) (hSound : cryptography.Sound)
    (hKept : encryption.keyring.Keeps keyring) (hUnmarked : Unmarked payload) (nonce : Nonce) :
    (∃ encrypted decrypted,
      encryptOne cryptography encryption nonce (stored compressors compression payload) =
        .ok encrypted ∧
      decryptPayload cryptography keyring encrypted = .ok decrypted ∧
      decompressPayload compressors decrypted = .ok payload) ↔
      Restorable compressors compression encryption payload := by
  obtain ⟨hKeys, hMarker⟩ := @stored_unencrypted compressors compression payload hUnmarked
  have hFits := @EncryptionPayloadCodec.encryptOne_isOk_iff Key cryptography hSound encryption
    (stored compressors compression payload) nonce
  have hRestored := @decompress_decryptedOf_iff compressors compression encryption payload
    hLossless hUnmarked
  constructor
  · rintro ⟨encrypted, decrypted, hOk, hDecrypt, hDecompress⟩
    rw [decrypt_of_encryptOne hSound hKept hKeys hMarker hOk] at hDecrypt
    obtain rfl := Except.ok.inj hDecrypt
    obtain ⟨hText, hEmpty⟩ := hRestored.mp hDecompress
    exact ⟨hText, hEmpty, hFits.mp ⟨encrypted, hOk⟩⟩
  · intro hRestorable
    obtain ⟨encrypted, hOk⟩ := hFits.mpr hRestorable.fits
    exact ⟨encrypted, _, hOk, decrypt_of_encryptOne hSound hKept hKeys hMarker hOk,
      hRestored.mpr ⟨hRestorable.text, hRestorable.kept⟩⟩

end Trips

/-! ## Lists of payloads -/

section Lists

variable {Key : Type} {compressors : Compressors} {cryptography : Cryptography Key}
  {compression other : CompressionPayloadCodec} {encryption reader : EncryptionPayloadCodec}
  {urandom urandom' : Nat → Nonce} {payloads : List Payload}

theorem decode_eq_ok_iff {results : List Payload} :
    (payloadCodec compressors cryptography other reader urandom').decode payloads = .ok results ↔
      ∃ middle, List.Forall₂ (fun encrypted decrypted =>
          decryptPayload cryptography reader.keyring encrypted = .ok decrypted) payloads middle ∧
        List.Forall₂ (fun decrypted payload =>
          decompressPayload compressors decrypted = .ok payload) middle results := by
  rw [payloadCodec_decode, Checks.bind_eq_ok]
  simp only [Checks.mapM_eq_ok_iff]

theorem roundTrip_iff (hLossless : compressors.Lossless) (hSound : cryptography.Sound)
    (hKept : encryption.keyring.Keeps reader.keyring)
    (hUnmarked : ∀ payload ∈ payloads, Unmarked payload) :
    (∃ encoded,
      (payloadCodec compressors cryptography compression encryption urandom).encode payloads =
        .ok encoded ∧
      (payloadCodec compressors cryptography other reader urandom').decode encoded = .ok payloads) ↔
      compression.Supported ∧
        ∀ payload ∈ payloads, Restorable compressors compression encryption payload := by
  simp only [payloadCodec_encode, Checks.bind_eq_ok, CompressionPayloadCodec.encode_eq_ok_iff,
    decode_eq_ok_iff]
  constructor
  · rintro ⟨encoded, ⟨_, ⟨hSupported, rfl⟩, hEncrypt⟩, middle, hDecrypt, hDecompress⟩
    refine ⟨hSupported, fun payload hPayload => ?_⟩
    have hSteps := List.forall₂_map_left_iff.mp (encrypt_forall₂ hEncrypt)
    -- the payloads stand in the same places of the four lists
    obtain ⟨place, hPlace, rfl⟩ := List.mem_iff_getElem.mp hPayload
    have hEncoded : place < encoded.length := hSteps.length_eq ▸ hPlace
    have hMiddle : place < middle.length := hDecrypt.length_eq ▸ hEncoded
    obtain ⟨nonce, hOk⟩ := hSteps.get hPlace hEncoded
    exact (trip_iff hLossless hSound hKept (hUnmarked _ (List.getElem_mem hPlace)) nonce).mp
      ⟨_, _, hOk, hDecrypt.get hEncoded hMiddle, hDecompress.get hMiddle hPlace⟩
  · rintro ⟨hSupported, hAll⟩
    obtain ⟨encoded, hEncrypt⟩ := @encrypt_isOk Key cryptography encryption urandom
      (payloads.map (stored compressors compression)) (by
        intro _ hStored nonce
        obtain ⟨payload, hPayload, rfl⟩ := List.mem_map.mp hStored
        exact (EncryptionPayloadCodec.encryptOne_isOk_iff hSound nonce).mpr (hAll payload hPayload).fits)
    have hSteps := List.forall₂_map_left_iff.mp (encrypt_forall₂ hEncrypt)
    have hTrips : List.Forall₂ (fun encrypted payload => ∃ decrypted,
        decryptPayload cryptography reader.keyring encrypted = .ok decrypted ∧
          decompressPayload compressors decrypted = .ok payload) encoded payloads := by
      rw [List.forall₂_iff_get]
      refine ⟨hSteps.length_eq.symm, fun place hEncoded hPlace => ?_⟩
      have hMem := List.get_mem payloads ⟨place, hPlace⟩
      obtain ⟨nonce, hOk⟩ := hSteps.get hPlace hEncoded
      obtain ⟨encrypted, decrypted, hFirst, hDecrypt, hDecompress⟩ :=
        (trip_iff hLossless hSound hKept (hUnmarked _ hMem) nonce).mpr (hAll _ hMem)
      rw [hOk] at hFirst
      obtain rfl := Except.ok.inj hFirst
      exact ⟨decrypted, hDecrypt, hDecompress⟩
    obtain ⟨middle, hDecrypt, hDecompress⟩ : ∃ middle, List.Forall₂ (fun encrypted decrypted =>
        decryptPayload cryptography reader.keyring encrypted = .ok decrypted) encoded middle ∧
        List.Forall₂ (fun decrypted payload =>
          decompressPayload compressors decrypted = .ok payload) middle payloads := by
      clear hSteps hEncrypt hAll hUnmarked
      induction hTrips with
      | nil => exact ⟨[], .nil, .nil⟩
      | cons hHead _ ih =>
          obtain ⟨decrypted, hFirst, hSecond⟩ := hHead
          obtain ⟨middle, hDecrypt, hDecompress⟩ := ih
          exact ⟨decrypted :: middle, .cons hFirst hDecrypt, .cons hSecond hDecompress⟩
    exact ⟨encoded, ⟨_, ⟨hSupported, rfl⟩, hEncrypt⟩, middle, hDecrypt, hDecompress⟩

end Lists

/-! ## Payloads that were altered -/

/-- An encryption that the codec has made. -/
structure Sealing where
  workspaceId : String
  keyId : String
  rootSecret : String
  originalEncoding : Bytes
  nonce : Bytes
  plaintext : Bytes
  workspace_ne : workspaceId ≠ ""

section Tampering

variable {Key : Type} (cryptography : Cryptography Key)

structure Sealing.Ciphertext (record : Sealing) (aad ciphertext : Bytes) : Prop where
  header : buildAad record.workspaceId record.keyId record.originalEncoding = some aad
  encrypted : cryptography.encrypt
    (cryptography.deriveKey record.workspaceId record.keyId record.rootSecret) record.nonce
    record.plaintext aad = some ciphertext

/-- Unforgeability, of the payloads that are presented to a codec: what is taken under a derived
key, with a header of the codec, is an encryption with this nonce and this header. -/
def Cryptography.Unforged (keyring : TemporalPayloadKeyring) (history : Set Sealing)
    (presented : Set Payload) : Prop :=
  ∀ payload ∈ presented, ∀ workspaceId keyId rootSecret nonce originalEncoding aad plaintext,
    EncryptionPayloadCodec.Opened cryptography keyring payload workspaceId keyId rootSecret nonce
      originalEncoding aad plaintext →
      ∃ record ∈ history, record.nonce = nonce ∧ record.Ciphertext cryptography aad payload.data

/-- The metadata and the data of a payload are those of an encryption. -/
structure Names (payload : Payload) (record : Sealing) : Prop where
  workspace : payload.metadata.lookup "tracecat_workspace_id" = some (.ofText record.workspaceId)
  key : payload.metadata.lookup "tracecat_key_id" = some (.ofText record.keyId)
  nonce : ∃ text, payload.metadata.lookup "tracecat_nonce" = some text ∧
    Base64.decode text = some record.nonce
  original : payload.metadata.lookup "tracecat_original_encoding" = some record.originalEncoding
  data : ∃ aad, record.Ciphertext cryptography aad payload.data

/-- A payload is not the other in its data, in what the encryption has recorded in its metadata,
or in the encoding that the compression has recorded. -/
def Altered (payload other : Payload) : Prop :=
  other.data ≠ payload.data ∨
    ∃ key ∈ "original_encoding" :: metadataKeys,
      other.metadata.lookup key ≠ payload.metadata.lookup key

variable {cryptography}

theorem buildAad_inj {workspaceId workspaceId' keyId keyId' : String}
    {originalEncoding originalEncoding' aad : Bytes}
    (hFirst : buildAad workspaceId keyId originalEncoding = some aad)
    (hSecond : buildAad workspaceId' keyId' originalEncoding' = some aad) :
    workspaceId = workspaceId' ∧ keyId = keyId' ∧ originalEncoding = originalEncoding' := by
  have hParts := Bytes.frame_inj hFirst hSecond
  simp only [List.cons.injEq, Bytes.ofText_inj, and_true, true_and] at hParts
  exact hParts

theorem decryptPayload_isOk_iff {history : Set Sealing} {presented : Set Payload}
    {keyring : TemporalPayloadKeyring} (hSound : cryptography.Sound)
    (hUnforged : cryptography.Unforged keyring history presented)
    (hKept : ∀ record ∈ history, keyring.keys.lookup record.keyId = some record.rootSecret)
    {payload decrypted : Payload} (hPresented : payload ∈ presented)
    (hMarker : payload.metadata.encoding = temporalEncoding) :
    decryptPayload cryptography keyring payload = .ok decrypted ↔
      ∃ record ∈ history, Names cryptography payload record ∧
        decrypted = EncryptionPayloadCodec.restored payload record.originalEncoding
          record.plaintext := by
  rw [EncryptionPayloadCodec.decryptPayload_eq_ok_iff hMarker]
  constructor
  · rintro ⟨workspaceId, keyId, rootSecret, nonce, originalEncoding, aad, plaintext, hOpened, rfl⟩
    obtain ⟨record, hRecord, rfl, hCiphertext⟩ :=
      hUnforged payload hPresented _ _ _ _ _ _ _ hOpened
    obtain ⟨rfl, rfl, rfl⟩ := buildAad_inj hOpened.header hCiphertext.header
    refine ⟨record, hRecord, ⟨hOpened.workspace, hOpened.key, hOpened.nonceText, hOpened.original,
      aad, hCiphertext⟩, ?_⟩
    -- the key is that of the encryption, so the plaintext is too
    have hSecret := hOpened.secret.symm.trans (hKept record hRecord)
    have hPlain := hOpened.plain
    rw [Option.some.inj hSecret, hSound.opens _ _ _ _ _ hCiphertext.encrypted] at hPlain
    rw [Option.some.inj hPlain]
  · rintro ⟨record, hRecord, hNames, rfl⟩
    obtain ⟨aad, hCiphertext⟩ := hNames.data
    have hSecret := hKept record hRecord
    refine ⟨record.workspaceId, record.keyId, record.rootSecret, record.nonce,
      record.originalEncoding, aad, record.plaintext, ?_, rfl⟩
    exact { workspace := hNames.workspace
            workspace_ne := record.workspace_ne
            key := hNames.key
            key_ne := fun hEmpty =>
              keyring.ids_ne (hEmpty ▸ Finmap.mem_of_lookup_eq_some hSecret)
            nonceText := hNames.nonce
            original := hNames.original
            secret := hSecret
            header := hCiphertext.header
            plain := hSound.opens _ _ _ _ _ hCiphertext.encrypted }

theorem restored_encoding (payload : Payload) (originalEncoding plaintext : Bytes) :
    (EncryptionPayloadCodec.restored payload originalEncoding plaintext).metadata.encoding =
      originalEncoding := by
  unfold EncryptionPayloadCodec.restored Metadata.withEncoding
  dsimp only
  by_cases hEmpty : originalEncoding = []
  · have hLost : (payload.metadata.without ("encoding" :: metadataKeys)).lookup "encoding" = none := by
      rw [Metadata.lookup_without, if_pos List.mem_cons_self]
    rw [if_pos hEmpty, Metadata.encoding, hLost, hEmpty, Option.getD_none]
  · rw [if_neg hEmpty]
    exact Metadata.encoding_of_lookup (Finmap.lookup_insert _)

/-- Only an encoding that is not a text stops the decompression. -/
theorem decompressPayload_isOk_iff {compressors : Compressors} {payload : Payload} :
    (∃ result, decompressPayload compressors payload = .ok result) ↔
      payload.metadata.encoding.text?.isSome := by
  unfold decompressPayload
  cases payload.metadata.encoding.text? with
  | none => exact iff_of_false (fun ⟨_, hError⟩ => by cases hError) Bool.false_ne_true
  | some encoding =>
      refine iff_of_true ?_ rfl
      dsimp only
      split
      · exact ⟨payload, rfl⟩
      · split
        · exact ⟨payload, rfl⟩
        · split
          · exact ⟨payload, rfl⟩
          · exact ⟨_, rfl⟩

theorem refused_iff {compressors : Compressors} {history : Set Sealing} {presented : Set Payload}
    {other : CompressionPayloadCodec} {reader : EncryptionPayloadCodec} {urandom' : Nat → Nonce}
    (hSound : cryptography.Sound)
    (hUnforged : cryptography.Unforged reader.keyring history presented)
    (hKept : ∀ record ∈ history,
      reader.keyring.keys.lookup record.keyId = some record.rootSecret)
    {payload : Payload} (hPresented : payload ∈ presented)
    (hMarker : payload.metadata.encoding = temporalEncoding) :
    (∃ error, (payloadCodec compressors cryptography other reader urandom').decode [payload] =
        .error error) ↔
      ¬ ∃ record ∈ history, Names cryptography payload record ∧
        record.originalEncoding.text?.isSome := by
  have hOk : (∃ results, (payloadCodec compressors cryptography other reader urandom').decode
      [payload] = .ok results) ↔
        ∃ record ∈ history, Names cryptography payload record ∧
          record.originalEncoding.text?.isSome := by
    simp only [decode_eq_ok_iff, List.forall₂_cons_left_iff, List.forall₂_nil_left_iff]
    constructor
    · rintro ⟨results, _, ⟨decrypted, _, hDecrypt, rfl, rfl⟩, hRest⟩
      obtain ⟨result, -, hResult, -, -⟩ := List.forall₂_cons_left_iff.mp hRest
      obtain ⟨record, hRecord, hNames, rfl⟩ :=
        (decryptPayload_isOk_iff hSound hUnforged hKept hPresented hMarker).mp hDecrypt
      refine ⟨record, hRecord, hNames, ?_⟩
      rw [← restored_encoding payload record.originalEncoding record.plaintext]
      exact decompressPayload_isOk_iff.mp ⟨result, hResult⟩
    · rintro ⟨record, hRecord, hNames, hText⟩
      have hDecrypt := (decryptPayload_isOk_iff hSound hUnforged hKept hPresented hMarker).mpr
        ⟨record, hRecord, hNames, rfl⟩
      rw [← restored_encoding payload record.originalEncoding record.plaintext] at hText
      obtain ⟨result, hResult⟩ := (@decompressPayload_isOk_iff compressors _).mpr hText
      exact ⟨[result], _, ⟨_, _, hDecrypt, rfl, rfl⟩, .cons hResult .nil⟩
  rw [← hOk]
  cases (payloadCodec compressors cryptography other reader urandom').decode [payload] with
  | ok results => simp
  | error error => simp

end Tampering

/-! ## The chain -/

/-- Payloads without the markers of the codecs come back through the chain, whatever the settings,
the role and the kept keys at decode time, exactly when the algorithm is supported and each payload
is restorable; and a payload that was altered after it was encrypted is refused exactly when it no
longer names an encryption of the codec. -/
theorem payloadCodec_iff {Key : Type} (compressors : Compressors) (cryptography : Cryptography Key)
    (compression other : CompressionPayloadCodec) (encryption reader : EncryptionPayloadCodec)
    (urandom urandom' : Nat → Nonce) (payloads : List Payload)
    (hUnmarked : ∀ payload ∈ payloads, Unmarked payload) :
    (compressors.Lossless → cryptography.Sound → encryption.keyring.Keeps reader.keyring →
      ((∃ encoded,
        (payloadCodec compressors cryptography compression encryption urandom).encode payloads =
          .ok encoded ∧
        (payloadCodec compressors cryptography other reader urandom').decode encoded =
          .ok payloads) ↔
        compression.Supported ∧
          ∀ payload ∈ payloads, Restorable compressors compression encryption payload)) ∧
    ∀ (history : Set Sealing) (presented : Set Payload), cryptography.Sound →
      cryptography.Unforged reader.keyring history presented →
      (∀ record ∈ history,
        reader.keyring.keys.lookup record.keyId = some record.rootSecret) →
      ∀ encoded,
        (payloadCodec compressors cryptography compression encryption urandom).encode payloads =
          .ok encoded →
        ∀ encrypted ∈ encoded, ∀ altered ∈ presented, Altered encrypted altered →
          altered.metadata.encoding = temporalEncoding →
            ((∃ error, (payloadCodec compressors cryptography other reader urandom').decode
                [altered] = .error error) ↔
              ¬ ∃ record ∈ history, Names cryptography altered record ∧
                record.originalEncoding.text?.isSome) := by
  constructor
  · intro hLossless hSound hKept
    exact roundTrip_iff hLossless hSound hKept hUnmarked
  · intro history presented hSound hUnforged hKept encoded _ encrypted _ altered hPresented _ hMarker
    exact refused_iff hSound hUnforged hKept hPresented hMarker

/-! ## A payload of two bytes -/

namespace CodecSample

/-- Compressed data has a byte in front. -/
def compressors : Compressors where
  compress _ data := some (0 :: data)
  decompress _ data := data.tail?

theorem lossless : compressors.Lossless := by
  intro algorithm data compressed hCompressed
  obtain rfl := Option.some.inj hCompressed
  rfl

/-- A cipher that puts the nonce and the header behind the data, and looks for them there. -/
def tagCipher : Cryptography Unit where
  deriveKey _ _ _ := ()
  encrypt _ nonce data aad :=
    if data.length < 2 ^ 31 ∧ aad.length < 2 ^ 31 then some (data ++ (nonce ++ aad)) else none
  decrypt _ nonce ciphertext aad :=
    if (nonce ++ aad) <:+ ciphertext then
      some (ciphertext.take (ciphertext.length - (nonce ++ aad).length))
    else none

theorem tagCipher_sound : tagCipher.Sound where
  opens key nonce data aad ciphertext hEncrypted := by
    unfold tagCipher at hEncrypted ⊢
    dsimp only at hEncrypted ⊢
    split at hEncrypted
    · obtain rfl := Option.some.inj hEncrypted
      rw [if_pos (List.suffix_append ..), List.length_append, Nat.add_sub_cancel,
        List.take_left]
    · cases hEncrypted
  encrypts key nonce data aad := by
    unfold tagCipher
    dsimp only
    split
    · exact iff_of_true rfl ‹_›
    · exact iff_of_false Bool.false_ne_true ‹_›

def keyring : TemporalPayloadKeyring where
  currentKeyId := "1"
  keys := Finmap.singleton "1" "secret"
  current_mem := by decide
  ids_ne := by decide
  secrets_ne keyId := by
    by_cases hKey : keyId = "1"
    · subst hKey
      rw [Finmap.lookup_singleton_eq]
      decide
    · have hNone : (Finmap.singleton "1" "secret" : Finmap fun _ : String => String).lookup keyId =
          none := by
        rw [Finmap.lookup_eq_none, Finmap.mem_singleton]
        exact hKey
      rw [hNone]
      exact fun hSome => by cases hSome

def compression : CompressionPayloadCodec where
  threshold := 0
  algorithm := "zstd"
  enabled := true

def noCompression : CompressionPayloadCodec where
  threshold := 0
  algorithm := "zstd"
  enabled := false

def encryption : EncryptionPayloadCodec where
  enabled := true
  keyring := keyring
  role := none

def noEncryption : EncryptionPayloadCodec where
  enabled := false
  keyring := keyring
  role := none

def urandom : Nat → Nonce := fun _ => ⟨List.replicate 12 0, rfl⟩

def payload (encoding : Bytes) : Payload where
  metadata := Finmap.singleton "encoding" encoding
  data := [1, 2]

/-- The only encryption that was made. -/
def record : Sealing where
  workspaceId := globalScope
  keyId := "1"
  rootSecret := "secret"
  originalEncoding := .ofText "json/plain"
  nonce := List.replicate 12 0
  plaintext := [1, 2]
  workspace_ne := by decide

def header : Bytes :=
  (buildAad globalScope "1" (.ofText "json/plain")).getD []

theorem unmarked_payload {encoding : Bytes}
    (hAlgorithm : ∀ algorithm : Algorithm, encoding ≠ .ofText algorithm.encoding)
    (hMarker : encoding ≠ temporalEncoding) : Unmarked (payload encoding) := by
  have hLookup : (payload encoding).metadata.lookup "encoding" = some encoding :=
    Finmap.lookup_singleton_eq
  have hNone {key : String} (hKey : key ≠ "encoding") :
      (payload encoding).metadata.lookup key = none := by
    rw [Finmap.lookup_eq_none]
    exact fun hMem => hKey ((Finmap.mem_singleton _ _ _).mp hMem)
  constructor
  case compression => exact fun key _ hKey => hNone hKey
  case encryption =>
    intro key hKey
    apply hNone
    rintro rfl
    exact absurd hKey (by decide)
  case algorithm =>
    rw [Metadata.encoding_of_lookup hLookup]
    exact hAlgorithm
  case marker =>
    rw [Metadata.encoding_of_lookup hLookup]
    exact hMarker

theorem unmarked_json : Unmarked (payload (.ofText "json/plain")) :=
  unmarked_payload (fun algorithm => by cases algorithm <;> decide) (by decide)

/-- The payload that the only encryption gives. -/
def encrypted : Payload where
  metadata := EncryptionPayloadCodec.encryptedMetadata globalScope "1" (List.replicate 12 0)
    (payload (.ofText "json/plain"))
  data := [1, 2] ++ (List.replicate 12 0 ++ header)

/-- The same with another ciphertext. -/
def altered : Payload := { encrypted with data := [8] }

/-- The other ciphertext is too short for a nonce and a header. -/
theorem altered_unforged : tagCipher.Unforged keyring {record} {altered} := by
  rintro _ rfl workspaceId keyId rootSecret nonce originalEncoding aad plaintext hOpened
  obtain ⟨text, hText, hNonce⟩ := hOpened.nonceText
  have hEncoded : altered.metadata.lookup "tracecat_nonce" =
      some (Base64.encode (List.replicate 12 0)) := by decide
  obtain rfl := Option.some.inj (hEncoded.symm.trans hText)
  have hDecoded : Base64.decode (Base64.encode (List.replicate 12 0)) =
      some (List.replicate 12 0) := by decide
  obtain rfl := Option.some.inj (hDecoded.symm.trans hNonce)
  have hPlain := hOpened.plain
  unfold tagCipher at hPlain
  dsimp only at hPlain
  split at hPlain
  · next hSuffix =>
      have hLength := hSuffix.length_le
      rw [List.length_append, List.length_replicate] at hLength
      exact absurd hLength (by show ¬ _ ≤ 1; omega)
  · cases hPlain

end CodecSample

open CodecSample in
/-- A payload that is compressed and encrypted comes back, and one with another ciphertext is
refused. -/
theorem json_payloadCodec_iff :
    (∃ encoded,
      (payloadCodec compressors tagCipher compression encryption urandom).encode
        [payload (.ofText "json/plain")] = .ok encoded ∧
      (payloadCodec compressors tagCipher noCompression noEncryption urandom).decode encoded =
        .ok [payload (.ofText "json/plain")]) ∧
    ∃ error, (payloadCodec compressors tagCipher compression noEncryption urandom).decode
      [altered] = .error error := by
  have hUnmarked : ∀ other ∈ [payload (.ofText "json/plain")], Unmarked other := by
    intro other hOther
    rw [List.mem_singleton.mp hOther]
    exact unmarked_json
  constructor
  · refine ((payloadCodec_iff compressors tagCipher compression noCompression encryption
      noEncryption urandom urandom [payload (.ofText "json/plain")] hUnmarked).1 lossless
      tagCipher_sound fun _ _ hSecret => hSecret).mpr ⟨fun _ => rfl, ?_⟩
    intro other hOther
    rw [List.mem_singleton.mp hOther]
    constructor
    case text => exact fun hNone => by cases hNone
    case kept => exact fun hEmpty => absurd hEmpty (by decide)
    case fits => exact fun _ => ⟨by decide, _, rfl, by decide⟩
  · have hEncoded : (payloadCodec compressors tagCipher noCompression encryption urandom).encode
        [payload (.ofText "json/plain")] = .ok [encrypted] := by decide
    refine ((payloadCodec_iff compressors tagCipher noCompression compression encryption
      noEncryption urandom urandom [payload (.ofText "json/plain")] hUnmarked).2 {record} {altered}
      tagCipher_sound altered_unforged ?kept [encrypted] hEncoded encrypted
      (List.mem_singleton_self _) altered rfl (.inl (by decide)) (by decide)).mpr ?unnamed
    case kept =>
      rintro _ rfl
      exact Finmap.lookup_singleton_eq
    case unnamed =>
      rintro ⟨_, rfl, hNames, -⟩
      obtain ⟨aad, -, hEncrypted⟩ := hNames.data
      unfold tagCipher at hEncrypted
      dsimp only at hEncrypted
      split at hEncrypted
      · exact absurd (congrArg List.length (Option.some.inj hEncrypted)) (by simp [record, altered])
      · cases hEncrypted

open CodecSample in
/-- An encoding that is present and empty is not written back. -/
theorem empty_encoding_lost :
    Unmarked (payload []) ∧
      ¬ ∃ encoded,
        (payloadCodec compressors tagCipher noCompression encryption urandom).encode
          [payload []] = .ok encoded ∧
        (payloadCodec compressors tagCipher noCompression encryption urandom).decode encoded =
          .ok [payload []] := by
  have hUnmarked : Unmarked (payload []) :=
    unmarked_payload (fun algorithm => by cases algorithm <;> decide) (by decide)
  refine ⟨hUnmarked, fun hTrip => ?_⟩
  have hAll : ∀ other ∈ [payload []], Unmarked other := by
    intro other hOther
    rw [List.mem_singleton.mp hOther]
    exact hUnmarked
  have hRestorable := ((roundTrip_iff lossless tagCipher_sound (fun _ _ hSecret => hSecret)
    hAll).mp hTrip).2 _ (List.mem_singleton_self _)
  refine (hRestorable.kept Finmap.lookup_singleton_eq).2 ⟨rfl, ?_, ?_⟩
  · decide
  · decide

end Temporal
end Tracecat
