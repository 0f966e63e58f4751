import Mathlib.Data.Finmap
import Tracecat.Lib.Base64
import Tracecat.Lib.Checks

/-!
# Payload codecs

`temporal/codec.py`: payloads are compressed and then encrypted on their way to
Temporal, and decrypted and decompressed on their way back.  What compresses,
derives keys and encrypts is a parameter.
-/

namespace Tracecat
namespace Temporal

/-! ## Payloads -/

abbrev Metadata : Type := Finmap fun _ : String => Bytes

/-- `Payload`. -/
structure Payload where
  metadata : Metadata
  data : Bytes
  deriving DecidableEq

namespace Metadata

/-- `metadata.update(entries)`, with entries of distinct keys. -/
def update (metadata : Metadata) (entries : List (String × Bytes)) : Metadata :=
  entries.foldr (fun entry metadata => metadata.insert entry.1 entry.2) metadata

/-- The entries of other keys. -/
def without (metadata : Metadata) (keys : List String) : Metadata :=
  keys.foldr Finmap.erase metadata

/-- `metadata.get("encoding", b"")`. -/
def encoding (metadata : Metadata) : Bytes :=
  (metadata.lookup "encoding").getD []

/-- The metadata with an original encoding that is not empty. -/
def withEncoding (metadata : Metadata) (originalEncoding : Bytes) : Metadata :=
  if originalEncoding = [] then metadata else metadata.insert "encoding" originalEncoding

end Metadata

inductive CodecError
  /-- `ValueError` of an algorithm. -/
  | unsupportedAlgorithm (algorithm : String)
  /-- `UnicodeDecodeError`. -/
  | notText
  /-- `OverflowError`. -/
  | overflow
  /-- `binascii.Error`. -/
  | notBase64
  /-- `InvalidTag`. -/
  | invalidTag
  /-- `TemporalPayloadCodecError`. -/
  | codec (message : String)
  deriving DecidableEq, Repr

/-- The message of an unsupported algorithm. -/
def CodecError.unsupportedMessage (algorithm : String) : String :=
  s!"Unsupported compression algorithm: {algorithm}. Supported algorithms: brotli, gzip, zstd"

/-- `PayloadCodec`. -/
structure PayloadCodec where
  encode : List Payload → Except CodecError (List Payload)
  decode : List Payload → Except CodecError (List Payload)

/-! ## Compression -/

/-- `_COMPRESSION_ALGORITHMS`. -/
inductive Algorithm
  | zstd
  | gzip
  | brotli
  deriving DecidableEq, Repr

def Algorithm.ofName? : String → Option Algorithm
  | "zstd" => some .zstd
  | "gzip" => some .gzip
  | "brotli" => some .brotli
  | _ => none

def Algorithm.encoding : Algorithm → String
  | zstd => "binary/zstd"
  | gzip => "binary/gzip"
  | brotli => "binary/brotli"

def Algorithm.ofEncoding? : String → Option Algorithm
  | "binary/zstd" => some .zstd
  | "binary/gzip" => some .gzip
  | "binary/brotli" => some .brotli
  | _ => none

/-- The modules of `cramjam`; `none` is an exception. -/
structure Compressors where
  compress : Algorithm → Bytes → Option Bytes
  decompress : Algorithm → Bytes → Option Bytes

/-- `CompressionPayloadCodec`. -/
structure CompressionPayloadCodec where
  threshold : Int
  algorithm : String
  enabled : Bool

namespace CompressionPayloadCodec

variable (compressors : Compressors)

def keys : List String :=
  ["encoding", "original_encoding", "original_size", "compressed_size"]

def compressedMetadata (algorithm : Algorithm) (payload : Payload) (compressed : Bytes) : Metadata :=
  payload.metadata.update
    [("encoding", .ofText algorithm.encoding),
     ("original_encoding", payload.metadata.encoding),
     ("original_size", .ofText (toString payload.data.length)),
     ("compressed_size", .ofText (toString compressed.length))]

/-- The payload that `encode` stores for one. -/
def compressPayload (threshold : Int) (algorithm : Algorithm) (payload : Payload) : Payload :=
  if (payload.data.length : Int) ≤ threshold then payload
  else
    match compressors.compress algorithm payload.data with
    | none => payload
    | some compressed =>
        { metadata := compressedMetadata algorithm payload compressed
          data := compressed }

/-- `CompressionPayloadCodec.encode`. -/
def encode (codec : CompressionPayloadCodec) (payloads : List Payload) :
    Except CodecError (List Payload) :=
  if !codec.enabled then .ok payloads
  else
    match Algorithm.ofName? codec.algorithm with
    | none => .error (.unsupportedAlgorithm codec.algorithm)
    | some algorithm => .ok (payloads.map (compressPayload compressors codec.threshold algorithm))

/-- What `decode` makes of one payload. -/
def decompressPayload (payload : Payload) : Except CodecError Payload :=
  match payload.metadata.encoding.text? with
  | none => .error .notText
  | some encoding =>
      if !"binary/".toList.isPrefixOf encoding.toList || encoding = "binary/null" then .ok payload
      else
        match Algorithm.ofEncoding? encoding with
        | none => .ok payload
        | some algorithm =>
            match compressors.decompress algorithm payload.data with
            | none => .ok payload
            | some decompressed =>
                let originalEncoding := (payload.metadata.lookup "original_encoding").getD []
                .ok
                  { metadata := (payload.metadata.without keys).withEncoding originalEncoding
                    data := decompressed }

/-- `CompressionPayloadCodec`, as a codec; `decode` reads no setting. -/
def toCodec (codec : CompressionPayloadCodec) : PayloadCodec where
  encode := codec.encode compressors
  decode := List.mapM (decompressPayload compressors)

end CompressionPayloadCodec

/-! ## Keys -/

/-- `TemporalPayloadKeyring`, as its validators leave it. -/
structure TemporalPayloadKeyring where
  currentKeyId : String
  keys : Finmap fun _ : String => String
  current_mem : currentKeyId ∈ keys
  ids_ne : "" ∉ keys
  secrets_ne : ∀ keyId, keys.lookup keyId ≠ some ""

/-- The text of a workspace's UUID. -/
abbrev WorkspaceID : Type := {text : String // text ≠ ""}

/-- `Role`. -/
structure Role where
  workspaceId : Option WorkspaceID

/-- `TRACECAT_TEMPORAL_GLOBAL_SCOPE`. -/
def globalScope : String := "__global__"

/-- `_resolve_workspace_scope`, with the role of the context. -/
def resolveWorkspaceScope (role : Option Role) : String :=
  match role.bind Role.workspaceId with
  | some workspaceId => workspaceId.val
  | none => globalScope

/-- The bytes of `os.urandom(12)`. -/
abbrev Nonce : Type := {bytes : Bytes // bytes.length = 12}

/-- `HKDF`, as `_derive_key` uses it, and `AESGCM`; `none` is an exception. -/
structure Cryptography (Key : Type) where
  deriveKey : (workspaceId keyId rootSecret : String) → Key
  encrypt : Key → Bytes → Bytes → Bytes → Option Bytes
  decrypt : Key → Bytes → Bytes → Bytes → Option Bytes

/-! ## Encryption -/

/-- `EncryptionPayloadCodec`, with the keyring and the role of the context that it is run in. -/
structure EncryptionPayloadCodec where
  enabled : Bool
  keyring : TemporalPayloadKeyring
  role : Option Role

namespace EncryptionPayloadCodec

/-- `TRACECAT_TEMPORAL_ENCODING`. -/
def temporalEncoding : Bytes := .ofText "binary/tracecat-aes256gcm"

/-- `_TRACECAT_TEMPORAL_ENCRYPTION_METADATA_KEYS`. -/
def metadataKeys : List String :=
  ["tracecat_original_encoding", "tracecat_workspace_id", "tracecat_key_id", "tracecat_nonce"]

/-- `_build_aad`; `none` is the exception for a part that is too long. -/
def buildAad (workspaceId keyId : String) (originalEncoding : Bytes) : Option Bytes :=
  Bytes.frame [.ofText workspaceId, .ofText keyId, temporalEncoding, originalEncoding]

/-- `_has_encryption_metadata`. -/
def hasEncryptionMetadata (payload : Payload) : Bool :=
  metadataKeys.any fun key => (payload.metadata.lookup key).isSome

def encryptedMetadata (workspaceId keyId : String) (nonce : Bytes) (payload : Payload) : Metadata :=
  payload.metadata.update
    [("encoding", temporalEncoding),
     ("tracecat_original_encoding", payload.metadata.encoding),
     ("tracecat_workspace_id", .ofText workspaceId),
     ("tracecat_key_id", .ofText keyId),
     ("tracecat_nonce", Base64.encode nonce)]

def orRaise {α : Type} (error : CodecError) : Option α → Except CodecError α
  | some value => .ok value
  | none => .error error

/-- A text, or an exception when it is empty. -/
def nonempty (message : String) (text : String) : Except CodecError String :=
  if text = "" then .error (.codec message) else .ok text

variable {Key : Type} (cryptography : Cryptography Key)

def sealPayload (workspaceId keyId : String) (key : Key) (nonce : Bytes) (payload : Payload) :
    Except CodecError Payload := do
  let aad ← orRaise .overflow (buildAad workspaceId keyId payload.metadata.encoding)
  let ciphertext ← orRaise .overflow (cryptography.encrypt key nonce payload.data aad)
  return { metadata := encryptedMetadata workspaceId keyId nonce payload
           data := ciphertext }

/-- What `encode` makes of one payload. -/
def encryptPayload (workspaceId keyId : String) (key : Key) (nonce : Bytes) (payload : Payload) :
    Except CodecError Payload :=
  if payload.metadata.encoding = .ofText "binary/null" ∨ payload.data = [] then .ok payload
  else
    match sealPayload cryptography workspaceId keyId key nonce payload with
    | .ok encrypted => .ok encrypted
    | .error _ => .error (.codec "Failed to encrypt Temporal payload")

/-- The loop of `encode`, with a draw of random bytes for each payload. -/
def encryptPayloads (workspaceId keyId : String) (key : Key) :
    (Nat → Nonce) → List Payload → Except CodecError (List Payload)
  | _, [] => .ok []
  | urandom, payload :: payloads => do
      let first ← encryptPayload cryptography workspaceId keyId key (urandom 0).val payload
      let rest ← encryptPayloads workspaceId keyId key (fun draw => urandom (draw + 1)) payloads
      return first :: rest

/-- `root_secret_for_key_id`. -/
def rootSecretForKeyId (keyring : TemporalPayloadKeyring) (keyId : String) :
    Except CodecError String :=
  orRaise (.codec "Temporal payload encryption keyring does not contain the requested key id")
    (keyring.keys.lookup keyId)

/-- `get_key`. -/
def getKey (keyring : TemporalPayloadKeyring) (workspaceId keyId : String) :
    Except CodecError Key := do
  let rootSecret ← rootSecretForKeyId keyring keyId
  return cryptography.deriveKey workspaceId keyId rootSecret

/-- `EncryptionPayloadCodec.encode`. -/
def encode (codec : EncryptionPayloadCodec) (urandom : Nat → Nonce) (payloads : List Payload) :
    Except CodecError (List Payload) :=
  if !codec.enabled then .ok payloads
  else do
    let workspaceId := resolveWorkspaceScope codec.role
    let keyId := codec.keyring.currentKeyId
    let key ← getKey cryptography codec.keyring workspaceId keyId
    encryptPayloads cryptography workspaceId keyId key urandom payloads

def openPayload (keyring : TemporalPayloadKeyring) (payload : Payload) :
    Except CodecError Payload := do
  let workspaceId ← orRaise .notText
    ((payload.metadata.lookup "tracecat_workspace_id").getD []).text?
  let workspaceId ← nonempty "Encrypted Temporal payload is missing its workspace scope" workspaceId
  let keyId ← orRaise .notText ((payload.metadata.lookup "tracecat_key_id").getD []).text?
  let keyId ← nonempty "Encrypted Temporal payload is missing its key id" keyId
  let nonceText ← orRaise (.codec "Encrypted Temporal payload is missing its nonce")
    (payload.metadata.lookup "tracecat_nonce")
  let originalEncoding ←
    orRaise (.codec "Encrypted Temporal payload is missing its original encoding")
      (payload.metadata.lookup "tracecat_original_encoding")
  let key ← getKey cryptography keyring workspaceId keyId
  let aad ← orRaise .overflow (buildAad workspaceId keyId originalEncoding)
  let nonce ← orRaise .notBase64 (Base64.decode nonceText)
  let plaintext ← orRaise .invalidTag (cryptography.decrypt key nonce payload.data aad)
  return { metadata := (payload.metadata.without ("encoding" :: metadataKeys)).withEncoding
             originalEncoding
           data := plaintext }

/-- What `decode` makes of one payload. -/
def decryptPayload (keyring : TemporalPayloadKeyring) (payload : Payload) :
    Except CodecError Payload :=
  if payload.metadata.encoding ≠ temporalEncoding then
    if hasEncryptionMetadata payload then
      .error (.codec "Encrypted Temporal payload has an invalid encoding marker")
    else .ok payload
  else
    match openPayload cryptography keyring payload with
    | .ok decrypted => .ok decrypted
    | .error _ => .error (.codec "Failed to decrypt Temporal payload")

/-- `EncryptionPayloadCodec`, as a codec; `decode` reads the keyring only. -/
def toCodec (codec : EncryptionPayloadCodec) (urandom : Nat → Nonce) : PayloadCodec where
  encode := codec.encode cryptography urandom
  decode := List.mapM (decryptPayload cryptography codec.keyring)

end EncryptionPayloadCodec

/-! ## The chain -/

/-- `CompositePayloadCodec`. -/
def compositePayloadCodec (codecs : List PayloadCodec) : PayloadCodec where
  encode payloads := codecs.foldlM (fun current codec => codec.encode current) payloads
  decode payloads := codecs.reverse.foldlM (fun current codec => codec.decode current) payloads

/-- The chain of `get_payload_codec`. -/
def payloadCodec {Key : Type} (compressors : Compressors) (cryptography : Cryptography Key)
    (compression : CompressionPayloadCodec) (encryption : EncryptionPayloadCodec)
    (urandom : Nat → Nonce) : PayloadCodec :=
  compositePayloadCodec
    [compression.toCodec compressors, encryption.toCodec cryptography urandom]

end Temporal
end Tracecat
