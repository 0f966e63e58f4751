import Tracecat.Lib.Assoc
import Tracecat.Temporal.Codec

/-!
# What the codecs undo

Each codec undoes itself on one payload, but for an encoding that is present and
empty, which neither of them writes back.
-/

namespace Tracecat
namespace Temporal

/-! ## Metadata -/

namespace Metadata

variable {metadata : Metadata} {key : String}

theorem lookup_update (entries : List (String × Bytes)) :
    (metadata.update entries).lookup key = (entries.lookup key).or (metadata.lookup key) := by
  induction entries with
  | nil => rfl
  | cons entry entries ih =>
      change Finmap.lookup key (Finmap.insert entry.1 entry.2 (metadata.update entries)) = _
      rw [Assoc.lookup_cons_eq_ite]
      by_cases hKey : key = entry.1
      · rw [if_pos hKey, hKey, Finmap.lookup_insert, Option.some_or]
      · rw [if_neg hKey, Finmap.lookup_insert_of_ne _ hKey, ih]

theorem lookup_without (keys : List String) :
    (metadata.without keys).lookup key = if key ∈ keys then none else metadata.lookup key := by
  induction keys with
  | nil => rfl
  | cons first keys ih =>
      change Finmap.lookup key (Finmap.erase first (metadata.without keys)) = _
      by_cases hKey : key = first
      · rw [hKey, Finmap.lookup_erase, if_pos List.mem_cons_self]
      · rw [Finmap.lookup_erase_ne hKey, ih]
        simp only [List.mem_cons, hKey, false_or]

/-- The metadata without an encoding that is empty. -/
def normal (metadata : Metadata) : Metadata :=
  (metadata.without ["encoding"]).withEncoding metadata.encoding

theorem encoding_of_lookup {value : Bytes} (hLookup : metadata.lookup "encoding" = some value) :
    metadata.encoding = value := by
  rw [encoding, hLookup, Option.getD_some]

/-- An encoding that is empty is lost, and nothing else. -/
theorem normal_eq_iff : metadata.normal = metadata ↔ metadata.lookup "encoding" ≠ some [] := by
  have hLost : (metadata.without ["encoding"]).lookup "encoding" = none := by
    rw [lookup_without, if_pos List.mem_cons_self]
  unfold normal withEncoding
  constructor
  · intro hSame hEmpty
    rw [encoding_of_lookup hEmpty, if_pos rfl] at hSame
    rw [hSame, hEmpty] at hLost
    cases hLost
  · intro hEncoding
    apply Finmap.ext_lookup
    intro key
    by_cases hKey : key = "encoding"
    · subst hKey
      cases hLookup : metadata.lookup "encoding" with
      | none => rw [encoding, hLookup, Option.getD_none, if_pos rfl, hLost]
      | some value =>
          rw [hLookup] at hEncoding
          rw [encoding_of_lookup hLookup, if_neg fun hEmpty => hEncoding (congrArg some hEmpty),
            Finmap.lookup_insert]
    · have hKept : (metadata.without ["encoding"]).lookup key = metadata.lookup key := by
        rw [lookup_without, if_neg fun hMem => hKey (List.mem_singleton.mp hMem)]
      split
      · exact hKept
      · rw [Finmap.lookup_insert_of_ne _ hKey, hKept]

/-- What is left when the entries of a codec are taken out again. -/
theorem restore_update {entries : List (String × Bytes)} {keys : List String}
    (hEntries : ∀ key, key ∉ keys → entries.lookup key = none) (hEncoding : "encoding" ∈ keys)
    (hNone : ∀ key ∈ keys, key ≠ "encoding" → metadata.lookup key = none) :
    ((metadata.update entries).without keys).withEncoding metadata.encoding = metadata.normal := by
  have hWithout : (metadata.update entries).without keys = metadata.without ["encoding"] := by
    apply Finmap.ext_lookup
    intro key
    rw [lookup_without, lookup_without, lookup_update]
    by_cases hKey : key ∈ keys
    · rw [if_pos hKey]
      by_cases hEq : key = "encoding"
      · rw [if_pos (List.mem_singleton.mpr hEq)]
      · rw [if_neg fun hMem => hEq (List.mem_singleton.mp hMem), hNone key hKey hEq]
    · have hEq : key ≠ "encoding" := fun hEq => hKey (hEq ▸ hEncoding)
      rw [if_neg hKey, if_neg fun hMem => hEq (List.mem_singleton.mp hMem), hEntries key hKey,
        Option.none_or]
  rw [hWithout, normal]

end Metadata

/-- The payload without an encoding that is empty. -/
def Payload.normal (payload : Payload) : Payload :=
  { payload with metadata := payload.metadata.normal }

theorem Payload.normal_eq_iff {payload : Payload} :
    payload.normal = payload ↔ payload.metadata.lookup "encoding" ≠ some [] := by
  rw [← Metadata.normal_eq_iff]
  constructor
  · exact congrArg Payload.metadata
  · intro hSame
    unfold Payload.normal
    rw [hSame]

theorem Payload.normal_encoding {payload : Payload} :
    payload.normal.metadata.encoding = payload.metadata.encoding := by
  by_cases hEncoding : payload.metadata.lookup "encoding" = some []
  · have hEmpty := Metadata.encoding_of_lookup hEncoding
    have hLost : (payload.metadata.without ["encoding"]).lookup "encoding" = none := by
      rw [Metadata.lookup_without, if_pos List.mem_cons_self]
    change payload.metadata.normal.encoding = _
    rw [Metadata.normal, Metadata.withEncoding, if_pos hEmpty, hEmpty, Metadata.encoding, hLost,
      Option.getD_none]
  · rw [Payload.normal_eq_iff.mpr hEncoding]

/-- No key and no encoding of the codecs is in the metadata of a payload. -/
structure Unmarked (payload : Payload) : Prop where
  compression : ∀ key ∈ CompressionPayloadCodec.keys, key ≠ "encoding" →
    payload.metadata.lookup key = none
  encryption : ∀ key ∈ EncryptionPayloadCodec.metadataKeys, payload.metadata.lookup key = none
  algorithm : ∀ algorithm : Algorithm, payload.metadata.encoding ≠ .ofText algorithm.encoding
  marker : payload.metadata.encoding ≠ EncryptionPayloadCodec.temporalEncoding

/-! ## Compression -/

/-- What is compressed is decompressed. -/
def Compressors.Lossless (compressors : Compressors) : Prop :=
  ∀ algorithm data compressed, compressors.compress algorithm data = some compressed →
    compressors.decompress algorithm compressed = some data

namespace CompressionPayloadCodec

variable {compressors : Compressors} {codec : CompressionPayloadCodec} {payload : Payload}

/-- The algorithm is a supported one, or nothing is compressed. -/
def Supported (codec : CompressionPayloadCodec) : Prop :=
  codec.enabled = true → (Algorithm.ofName? codec.algorithm).isSome

/-- The algorithm that compresses a payload, and its result. -/
def compresses? (compressors : Compressors) (codec : CompressionPayloadCodec) (payload : Payload) :
    Option (Algorithm × Bytes) :=
  if codec.enabled ∧ codec.threshold < payload.data.length then
    (Algorithm.ofName? codec.algorithm).bind fun algorithm =>
      (compressors.compress algorithm payload.data).map fun compressed => (algorithm, compressed)
  else none

/-- The payload that is stored for one. -/
def stored (compressors : Compressors) (codec : CompressionPayloadCodec) (payload : Payload) :
    Payload :=
  match compresses? compressors codec payload with
  | none => payload
  | some (algorithm, compressed) =>
      { metadata := compressedMetadata algorithm payload compressed
        data := compressed }

theorem stored_of_none (hNone : compresses? compressors codec payload = none) :
    stored compressors codec payload = payload := by
  unfold stored
  rw [hNone]

theorem stored_of_some {algorithm : Algorithm} {compressed : Bytes}
    (hSome : compresses? compressors codec payload = some (algorithm, compressed)) :
    stored compressors codec payload =
      { metadata := compressedMetadata algorithm payload compressed, data := compressed } := by
  unfold stored
  rw [hSome]

theorem compressedMetadata_lookup (algorithm : Algorithm) (compressed : Bytes) :
    (compressedMetadata algorithm payload compressed).lookup "encoding" =
        some (.ofText algorithm.encoding) ∧
      (compressedMetadata algorithm payload compressed).lookup "original_encoding" =
        some payload.metadata.encoding := by
  unfold compressedMetadata
  constructor
  · rw [Metadata.lookup_update]
    rfl
  · rw [Metadata.lookup_update]
    rfl

theorem encode_eq_ok_iff {payloads encoded : List Payload} :
    codec.encode compressors payloads = .ok encoded ↔
      codec.Supported ∧ encoded = payloads.map (stored compressors codec) := by
  unfold encode Supported
  cases hEnabled : codec.enabled with
  | false =>
      have hStored : stored compressors codec = id := by
        funext payload
        apply stored_of_none
        rw [compresses?, hEnabled, if_neg fun hBoth => Bool.false_ne_true hBoth.1]
      rw [hStored, List.map_id]
      constructor
      · exact fun hEncoded => ⟨fun hTrue => absurd hTrue Bool.false_ne_true,
          (Except.ok.inj hEncoded).symm⟩
      · rintro ⟨-, rfl⟩
        rfl
  | true =>
      cases hAlgorithm : Algorithm.ofName? codec.algorithm with
      | none => simp
      | some algorithm =>
          have hStored : compressPayload compressors codec.threshold algorithm =
              stored compressors codec := by
            funext payload
            unfold compressPayload stored compresses?
            rw [hEnabled, hAlgorithm]
            by_cases hSmall : (payload.data.length : Int) ≤ codec.threshold
            · rw [if_pos hSmall, if_neg fun hBoth => Int.not_lt.mpr hSmall hBoth.2]
            · rw [if_neg hSmall, if_pos ⟨rfl, Int.not_le.mp hSmall⟩, Option.bind_some]
              cases compressors.compress algorithm payload.data <;> rfl
          rw [← hStored]
          constructor
          · exact fun hEncoded => ⟨fun _ => rfl, (Except.ok.inj hEncoded).symm⟩
          · rintro ⟨-, rfl⟩
            rfl

theorem text?_encoding (algorithm : Algorithm) :
    Algorithm.ofEncoding? algorithm.encoding = some algorithm ∧
      (!"binary/".toList.isPrefixOf algorithm.encoding.toList ||
        decide (algorithm.encoding = "binary/null")) = false := by
  cases algorithm <;> decide

theorem ofEncoding?_eq_some {encoding : String} {algorithm : Algorithm}
    (hSome : Algorithm.ofEncoding? encoding = some algorithm) : encoding = algorithm.encoding := by
  unfold Algorithm.ofEncoding? at hSome
  split at hSome <;> cases hSome <;> rfl

/-- A payload that no algorithm is named in is returned, when its encoding is a text. -/
theorem decompressPayload_plain
    (hPlain : ∀ algorithm : Algorithm, payload.metadata.encoding ≠ .ofText algorithm.encoding) :
    decompressPayload compressors payload =
      if payload.metadata.encoding.text?.isSome then .ok payload else .error .notText := by
  unfold decompressPayload
  cases hText : payload.metadata.encoding.text? with
  | none => rfl
  | some encoding =>
      have hNone : Algorithm.ofEncoding? encoding = none := by
        cases hAlgorithm : Algorithm.ofEncoding? encoding with
        | none => rfl
        | some algorithm =>
            have hEncoding := Bytes.text?_eq_some_iff.mp hText
            rw [ofEncoding?_eq_some hAlgorithm] at hEncoding
            exact absurd hEncoding (hPlain algorithm)
      dsimp only
      rw [hNone]
      split <;> rfl

theorem decompressPayload_stored (hLossless : compressors.Lossless) (hUnmarked : Unmarked payload)
    {algorithm : Algorithm} {compressed : Bytes}
    (hSome : compresses? compressors codec payload = some (algorithm, compressed)) :
    decompressPayload compressors (stored compressors codec payload) = .ok payload.normal := by
  have hData : compressors.decompress algorithm compressed = some payload.data := by
    unfold compresses? at hSome
    split at hSome
    · obtain ⟨found, -, hMap⟩ := Option.bind_eq_some_iff.mp hSome
      obtain ⟨result, hCompress, hPair⟩ := Option.map_eq_some_iff.mp hMap
      obtain ⟨rfl, rfl⟩ := Prod.mk.inj hPair
      exact hLossless _ _ _ hCompress
    · cases hSome
  obtain ⟨hLookup, hOriginal⟩ := @compressedMetadata_lookup payload algorithm compressed
  have hEncoding := Metadata.encoding_of_lookup hLookup
  have hRestored : ((compressedMetadata algorithm payload compressed).without keys).withEncoding
      payload.metadata.encoding = payload.metadata.normal := by
    refine Metadata.restore_update (fun key hKey => ?_) List.mem_cons_self hUnmarked.compression
    rw [List.lookup_eq_none_iff]
    intro entry hEntry
    have hMem : entry.1 ∈ keys := by
      have hKeys := List.mem_map_of_mem (f := Prod.fst) hEntry
      exact hKeys
    simp only [bne_iff_ne, ne_eq]
    rintro rfl
    exact hKey hMem
  obtain ⟨hAlgorithm, hBinary⟩ := text?_encoding algorithm
  rw [stored_of_some hSome]
  unfold decompressPayload
  dsimp only
  rw [hEncoding, Bytes.text?_ofText]
  dsimp only
  rw [if_neg (by rw [hBinary]; exact Bool.false_ne_true), hAlgorithm]
  dsimp only
  rw [hData]
  dsimp only
  rw [hOriginal, Option.getD_some, hRestored]
  rfl

end CompressionPayloadCodec

/-! ## Encryption -/

/-- `AESGCM` decrypts what it has encrypted, and with a nonce of 12 bytes it takes what is shorter
than 2 ^ 31 bytes. -/
structure Cryptography.Sound {Key : Type} (cryptography : Cryptography Key) : Prop where
  opens : ∀ key nonce data aad ciphertext, cryptography.encrypt key nonce data aad = some ciphertext →
    cryptography.decrypt key nonce ciphertext aad = some data
  encrypts : ∀ key (nonce : Nonce) data aad, (cryptography.encrypt key nonce.val data aad).isSome ↔
    data.length < 2 ^ 31 ∧ aad.length < 2 ^ 31

/-- A rotation that keeps the keys there are. -/
def TemporalPayloadKeyring.Keeps (old new : TemporalPayloadKeyring) : Prop :=
  ∀ keyId rootSecret, old.keys.lookup keyId = some rootSecret →
    new.keys.lookup keyId = some rootSecret

theorem resolveWorkspaceScope_ne (role : Option Role) : resolveWorkspaceScope role ≠ "" := by
  unfold resolveWorkspaceScope
  cases role.bind Role.workspaceId with
  | none => decide
  | some workspaceId => exact workspaceId.property

namespace EncryptionPayloadCodec

theorem orRaise_eq_ok {α : Type} {error : CodecError} {outcome : Option α} {value : α} :
    orRaise error outcome = .ok value ↔ outcome = some value := by
  cases outcome with
  | none => exact iff_of_false (fun hError => by cases hError) (fun hNone => by cases hNone)
  | some found =>
      constructor
      · exact fun hOk => congrArg some (Except.ok.inj hOk)
      · exact fun hSome => congrArg Except.ok (Option.some.inj hSome)

theorem nonempty_eq_ok {message text result : String} :
    nonempty message text = .ok result ↔ text ≠ "" ∧ text = result := by
  unfold nonempty
  rw [Checks.throw_if_eq_ok]
  constructor
  · exact fun ⟨hText, hOk⟩ => ⟨hText, Except.ok.inj hOk⟩
  · exact fun ⟨hText, hSame⟩ => ⟨hText, congrArg Except.ok hSame⟩

theorem getD_text?_iff {outcome : Option Bytes} {text : String} (hText : text ≠ "") :
    (outcome.getD []).text? = some text ↔ outcome = some (.ofText text) := by
  rw [Bytes.text?_eq_some_iff]
  cases outcome with
  | none =>
      refine iff_of_false (fun hEmpty => hText ?_) (fun hNone => by cases hNone)
      exact Bytes.ofText_inj.mp hEmpty.symm
  | some data =>
      rw [Option.getD_some, Option.some.injEq]

variable {Key : Type} {cryptography : Cryptography Key}

/-! ### One payload -/

/-- The encryption of one payload. -/
def encryptOne (cryptography : Cryptography Key) (codec : EncryptionPayloadCodec) (nonce : Nonce)
    (payload : Payload) : Except CodecError Payload :=
  if !codec.enabled then .ok payload
  else do
    let workspaceId := resolveWorkspaceScope codec.role
    let keyId := codec.keyring.currentKeyId
    let key ← getKey cryptography codec.keyring workspaceId keyId
    encryptPayload cryptography workspaceId keyId key nonce.val payload

/-- The codec encrypts the payload. -/
def Encrypts (codec : EncryptionPayloadCodec) (payload : Payload) : Prop :=
  codec.enabled = true ∧ payload.metadata.encoding ≠ .ofText "binary/null" ∧ payload.data ≠ []

/-- The data and the header of a payload are short enough to be encrypted. -/
def Fits (codec : EncryptionPayloadCodec) (payload : Payload) : Prop :=
  payload.data.length < 2 ^ 31 ∧
    ∃ aad, buildAad (resolveWorkspaceScope codec.role) codec.keyring.currentKeyId
      payload.metadata.encoding = some aad ∧ aad.length < 2 ^ 31

theorem getKey_eq_ok_iff {keyring : TemporalPayloadKeyring} {workspaceId keyId : String} {key : Key} :
    getKey cryptography keyring workspaceId keyId = .ok key ↔
      ∃ rootSecret, keyring.keys.lookup keyId = some rootSecret ∧
        cryptography.deriveKey workspaceId keyId rootSecret = key := by
  unfold getKey rootSecretForKeyId
  rw [Checks.bind_eq_ok]
  constructor
  · rintro ⟨rootSecret, hSecret, hKey⟩
    exact ⟨rootSecret, orRaise_eq_ok.mp hSecret, Except.ok.inj hKey⟩
  · rintro ⟨rootSecret, hSecret, rfl⟩
    exact ⟨rootSecret, orRaise_eq_ok.mpr hSecret, rfl⟩

theorem sealPayload_eq_ok_iff {workspaceId keyId : String} {key : Key} {nonce : Bytes}
    {payload encrypted : Payload} :
    sealPayload cryptography workspaceId keyId key nonce payload = .ok encrypted ↔
      ∃ aad ciphertext, buildAad workspaceId keyId payload.metadata.encoding = some aad ∧
        cryptography.encrypt key nonce payload.data aad = some ciphertext ∧
          encrypted = { metadata := encryptedMetadata workspaceId keyId nonce payload
                        data := ciphertext } := by
  unfold sealPayload
  rw [Checks.bind_eq_ok]
  constructor
  · rintro ⟨aad, hAad, hRest⟩
    obtain ⟨ciphertext, hCiphertext, hOk⟩ := Checks.bind_eq_ok.mp hRest
    exact ⟨aad, ciphertext, orRaise_eq_ok.mp hAad, orRaise_eq_ok.mp hCiphertext,
      (Except.ok.inj hOk).symm⟩
  · rintro ⟨aad, ciphertext, hAad, hCiphertext, rfl⟩
    exact ⟨aad, orRaise_eq_ok.mpr hAad,
      Checks.bind_eq_ok.mpr ⟨ciphertext, orRaise_eq_ok.mpr hCiphertext, rfl⟩⟩

theorem encryptOne_of_not {codec : EncryptionPayloadCodec} {payload : Payload}
    (hNot : ¬ codec.Encrypts payload) (nonce : Nonce) :
    encryptOne cryptography codec nonce payload = .ok payload := by
  unfold encryptOne
  cases hEnabled : codec.enabled with
  | false => rfl
  | true =>
      have hSkip : payload.metadata.encoding = .ofText "binary/null" ∨ payload.data = [] := by
        by_contra hBoth
        push Not at hBoth
        exact hNot ⟨hEnabled, hBoth⟩
      obtain ⟨rootSecret, hSecret⟩ := Finmap.mem_iff.mp codec.keyring.current_mem
      change (getKey cryptography codec.keyring _ _ >>= _) = _
      rw [Checks.bind_eq_ok]
      refine ⟨_, getKey_eq_ok_iff.mpr ⟨rootSecret, hSecret, rfl⟩, ?_⟩
      rw [encryptPayload, if_pos hSkip]

theorem encryptOne_eq_ok_iff {codec : EncryptionPayloadCodec} {payload encrypted : Payload}
    (hEncrypts : codec.Encrypts payload) {nonce : Nonce} :
    encryptOne cryptography codec nonce payload = .ok encrypted ↔
      ∃ rootSecret aad ciphertext,
        codec.keyring.keys.lookup codec.keyring.currentKeyId = some rootSecret ∧
        buildAad (resolveWorkspaceScope codec.role) codec.keyring.currentKeyId
          payload.metadata.encoding = some aad ∧
        cryptography.encrypt (cryptography.deriveKey (resolveWorkspaceScope codec.role)
          codec.keyring.currentKeyId rootSecret) nonce.val payload.data aad = some ciphertext ∧
        encrypted = { metadata := encryptedMetadata (resolveWorkspaceScope codec.role)
                        codec.keyring.currentKeyId nonce.val payload
                      data := ciphertext } := by
  obtain ⟨hEnabled, hEncoding, hData⟩ := hEncrypts
  have hSeal (key : Key) : encryptPayload cryptography (resolveWorkspaceScope codec.role)
      codec.keyring.currentKeyId key nonce.val payload = .ok encrypted ↔
        sealPayload cryptography (resolveWorkspaceScope codec.role) codec.keyring.currentKeyId key
          nonce.val payload = .ok encrypted := by
    rw [encryptPayload, if_neg (not_or.mpr ⟨hEncoding, hData⟩)]
    cases sealPayload cryptography (resolveWorkspaceScope codec.role) codec.keyring.currentKeyId key
      nonce.val payload with
    | ok result => exact Iff.rfl
    | error error => exact iff_of_false (fun hError => by cases hError) (fun hError => by cases hError)
  unfold encryptOne
  rw [hEnabled]
  change (getKey cryptography codec.keyring _ _ >>= _) = _ ↔ _
  rw [Checks.bind_eq_ok]
  constructor
  · rintro ⟨key, hKey, hOk⟩
    obtain ⟨rootSecret, hSecret, rfl⟩ := getKey_eq_ok_iff.mp hKey
    obtain ⟨aad, ciphertext, hAad, hCiphertext, rfl⟩ := sealPayload_eq_ok_iff.mp ((hSeal _).mp hOk)
    exact ⟨rootSecret, aad, ciphertext, hSecret, hAad, hCiphertext, rfl⟩
  · rintro ⟨rootSecret, aad, ciphertext, hSecret, hAad, hCiphertext, rfl⟩
    refine ⟨_, getKey_eq_ok_iff.mpr ⟨rootSecret, hSecret, rfl⟩, (hSeal _).mpr ?_⟩
    exact sealPayload_eq_ok_iff.mpr ⟨aad, ciphertext, hAad, hCiphertext, rfl⟩

/-- A payload is encrypted, if it has to be, when it is short enough. -/
theorem encryptOne_isOk_iff (hSound : cryptography.Sound) {codec : EncryptionPayloadCodec}
    {payload : Payload} (nonce : Nonce) :
    (∃ encrypted, encryptOne cryptography codec nonce payload = .ok encrypted) ↔
      (codec.Encrypts payload → codec.Fits payload) := by
  by_cases hEncrypts : codec.Encrypts payload
  · simp only [encryptOne_eq_ok_iff hEncrypts]
    constructor
    · rintro ⟨_, rootSecret, aad, ciphertext, -, hAad, hCiphertext, -⟩ -
      obtain ⟨hData, hHeader⟩ := (hSound.encrypts _ nonce _ _).mp
        (Option.isSome_iff_exists.mpr ⟨ciphertext, hCiphertext⟩)
      exact ⟨hData, aad, hAad, hHeader⟩
    · intro hFits
      obtain ⟨hData, aad, hAad, hHeader⟩ := hFits hEncrypts
      obtain ⟨rootSecret, hSecret⟩ := Finmap.mem_iff.mp codec.keyring.current_mem
      obtain ⟨ciphertext, hCiphertext⟩ := Option.isSome_iff_exists.mp
        ((hSound.encrypts _ nonce _ _).mpr ⟨hData, hHeader⟩)
      exact ⟨_, rootSecret, aad, ciphertext, hSecret, hAad, hCiphertext, rfl⟩
  · refine iff_of_true ⟨payload, encryptOne_of_not hEncrypts nonce⟩ fun hAbsurd => ?_
    exact absurd hAbsurd hEncrypts

/-! ### Opening -/

/-- What the metadata of a payload names, and what its data decrypts to. -/
structure Opened (cryptography : Cryptography Key) (keyring : TemporalPayloadKeyring)
    (payload : Payload) (workspaceId keyId rootSecret : String)
    (nonce originalEncoding aad plaintext : Bytes) : Prop where
  workspace : payload.metadata.lookup "tracecat_workspace_id" = some (.ofText workspaceId)
  workspace_ne : workspaceId ≠ ""
  key : payload.metadata.lookup "tracecat_key_id" = some (.ofText keyId)
  key_ne : keyId ≠ ""
  nonceText : ∃ text, payload.metadata.lookup "tracecat_nonce" = some text ∧
    Base64.decode text = some nonce
  original : payload.metadata.lookup "tracecat_original_encoding" = some originalEncoding
  secret : keyring.keys.lookup keyId = some rootSecret
  header : buildAad workspaceId keyId originalEncoding = some aad
  plain : cryptography.decrypt (cryptography.deriveKey workspaceId keyId rootSecret) nonce
    payload.data aad = some plaintext

/-- The payload that is restored. -/
def restored (payload : Payload) (originalEncoding plaintext : Bytes) : Payload where
  metadata := (payload.metadata.without ("encoding" :: metadataKeys)).withEncoding originalEncoding
  data := plaintext

theorem openPayload_eq_ok_iff {keyring : TemporalPayloadKeyring} {payload decrypted : Payload} :
    openPayload cryptography keyring payload = .ok decrypted ↔
      ∃ workspaceId keyId rootSecret nonce originalEncoding aad plaintext,
        Opened cryptography keyring payload workspaceId keyId rootSecret nonce originalEncoding aad
          plaintext ∧ decrypted = restored payload originalEncoding plaintext := by
  unfold openPayload
  simp only [Checks.bind_eq_ok, orRaise_eq_ok, nonempty_eq_ok, getKey_eq_ok_iff]
  constructor
  · rintro ⟨workspaceId, hWorkspace, _, ⟨hWorkspaceNe, rfl⟩, keyId, hKey, _, ⟨hKeyNe, rfl⟩,
      nonceText, hText, originalEncoding, hOriginal, _, ⟨rootSecret, hSecret, rfl⟩, aad, hAad, nonce,
      hNonce, plaintext, hPlain, hOk⟩
    refine ⟨workspaceId, keyId, rootSecret, nonce, originalEncoding, aad, plaintext, ?_,
      (Except.ok.inj hOk).symm⟩
    exact { workspace := (getD_text?_iff hWorkspaceNe).mp hWorkspace
            workspace_ne := hWorkspaceNe
            key := (getD_text?_iff hKeyNe).mp hKey
            key_ne := hKeyNe
            nonceText := ⟨nonceText, hText, hNonce⟩
            original := hOriginal
            secret := hSecret
            header := hAad
            plain := hPlain }
  · rintro ⟨workspaceId, keyId, rootSecret, nonce, originalEncoding, aad, plaintext, hOpened, rfl⟩
    obtain ⟨nonceText, hText, hNonce⟩ := hOpened.nonceText
    exact ⟨workspaceId, (getD_text?_iff hOpened.workspace_ne).mpr hOpened.workspace, workspaceId,
      ⟨hOpened.workspace_ne, rfl⟩, keyId, (getD_text?_iff hOpened.key_ne).mpr hOpened.key, keyId,
      ⟨hOpened.key_ne, rfl⟩, nonceText, hText, originalEncoding, hOpened.original, _,
      ⟨rootSecret, hOpened.secret, rfl⟩, aad, hOpened.header, nonce, hNonce, plaintext,
      hOpened.plain, rfl⟩

/-- A payload without the marker and without the keys of the codec is returned. -/
theorem decryptPayload_plain {keyring : TemporalPayloadKeyring} {payload : Payload}
    (hMarker : payload.metadata.encoding ≠ temporalEncoding)
    (hKeys : ∀ key ∈ metadataKeys, payload.metadata.lookup key = none) :
    decryptPayload cryptography keyring payload = .ok payload := by
  have hNone : hasEncryptionMetadata payload = false := by
    unfold hasEncryptionMetadata
    rw [List.any_eq_false]
    intro key hKey
    rw [hKeys key hKey]
    exact Bool.false_ne_true
  rw [decryptPayload, if_pos hMarker, if_neg (by rw [hNone]; exact Bool.false_ne_true)]

theorem decryptPayload_eq_ok_iff {keyring : TemporalPayloadKeyring} {payload decrypted : Payload}
    (hMarker : payload.metadata.encoding = temporalEncoding) :
    decryptPayload cryptography keyring payload = .ok decrypted ↔
      ∃ workspaceId keyId rootSecret nonce originalEncoding aad plaintext,
        Opened cryptography keyring payload workspaceId keyId rootSecret nonce originalEncoding aad
          plaintext ∧ decrypted = restored payload originalEncoding plaintext := by
  rw [← openPayload_eq_ok_iff, decryptPayload, if_neg (not_not_intro hMarker)]
  cases openPayload cryptography keyring payload with
  | ok result => exact Iff.rfl
  | error error => exact iff_of_false (fun hError => by cases hError) (fun hError => by cases hError)

theorem decryptPayload_encryptOne (hSound : cryptography.Sound) {codec : EncryptionPayloadCodec}
    {keyring : TemporalPayloadKeyring} (hKept : codec.keyring.Keeps keyring) {nonce : Nonce}
    {payload encrypted : Payload} (hEncrypts : codec.Encrypts payload)
    (hKeys : ∀ key ∈ metadataKeys, payload.metadata.lookup key = none)
    (hOk : encryptOne cryptography codec nonce payload = .ok encrypted) :
    decryptPayload cryptography keyring encrypted = .ok payload.normal := by
  obtain ⟨rootSecret, aad, ciphertext, hSecret, hAad, hCiphertext, rfl⟩ :=
    (encryptOne_eq_ok_iff hEncrypts).mp hOk
  have hLookup (key : String) : (encryptedMetadata (resolveWorkspaceScope codec.role)
      codec.keyring.currentKeyId nonce.val payload).lookup key = _ :=
    @Metadata.lookup_update payload.metadata key _
  have hMarker : (encryptedMetadata (resolveWorkspaceScope codec.role)
      codec.keyring.currentKeyId nonce.val payload).encoding = temporalEncoding :=
    Metadata.encoding_of_lookup (hLookup _)
  rw [decryptPayload_eq_ok_iff hMarker]
  refine ⟨resolveWorkspaceScope codec.role, codec.keyring.currentKeyId, rootSecret, nonce.val,
    payload.metadata.encoding, aad, payload.data, ?opened, ?restored⟩
  case opened =>
    exact { workspace := hLookup _
            workspace_ne := resolveWorkspaceScope_ne codec.role
            key := hLookup _
            key_ne := fun hEmpty => codec.keyring.ids_ne (hEmpty ▸ codec.keyring.current_mem)
            nonceText := ⟨_, hLookup _, Base64.decode_encode nonce.val⟩
            original := hLookup _
            secret := hKept _ _ hSecret
            header := hAad
            plain := hSound.opens _ _ _ _ _ hCiphertext }
  case restored =>
    unfold restored Payload.normal
    rw [encryptedMetadata, Metadata.restore_update _ List.mem_cons_self]
    · intro key hKey hNe
      exact hKeys key ((List.mem_cons.mp hKey).resolve_left hNe)
    · intro key hKey
      rw [List.lookup_eq_none_iff]
      intro entry hEntry
      have hMem : entry.1 ∈ "encoding" :: metadataKeys := by
        have hNames := List.mem_map_of_mem (f := Prod.fst) hEntry
        simp only [List.map_cons, List.map_nil] at hNames
        revert hNames
        generalize entry.1 = name
        intro hNames
        simp only [metadataKeys, List.mem_cons] at hNames ⊢
        tauto
      simp only [bne_iff_ne, ne_eq]
      rintro rfl
      exact hKey hMem

end EncryptionPayloadCodec

end Temporal
end Tracecat
