import Strongbox.Entry.Cipher
import Strongbox.Encoding.Base64
import Strongbox.Json.Writer
import Strongbox.Value.Literal

/-!
# Stored records

Three kinds of record are stored as compact JSON objects. A key blob holds an entry key sealed
under the owner's master key, with the key id and the cipher:
`{"key", "metadata": {"keyId", "cipher"}}`. An envelope holds the sealed value and its
headers: `{"data", "metadata"}`. A grant holds an entry key sealed to a recipient:
`{"grant", "spaceId", "metadata"}`. A record is read from an object or from its JSON text; every
field of the wrong shape counts, and a record with any is malformed. Fields have a second name
(`key_id`, `space_id`) that is read when the first is absent.
-/

namespace Strongbox

/-- Ordered text fields, where storing under a present name keeps its place. -/
abbrev Headers := List (Text × Text)

namespace Headers

/-- The headers with `v` under `k`: a present name keeps its place, a new one goes last. -/
def insert (h : Headers) (k v : Text) : Headers :=
  if h.any (·.1 == k) then h.map fun e => if e.1 == k then (k, v) else e else h ++ [(k, v)]

/-- The value under a name. -/
def get? (h : Headers) (k : String) : Option Text := h.lookup (Text.ofString k)

/-- Headers from any pairs of values, each name and value as its display text. -/
def ofValues (entries : List (Value × Value)) : Headers :=
  entries.foldl (fun h e => h.insert e.1.display e.2.display) []

/-- The headers as a dictionary value. -/
def toValue (h : Headers) : Value := .dict (h.map fun e => (.str e.1, .str e.2))

/-- The headers as a JSON object. -/
def toJson (h : Headers) : Json := .obj (h.map fun e => (e.1, .str e.2))

end Headers

namespace CompactJson

/-- The compact text of a document; text that holds a surrogate has none. -/
def write (j : Json) : Except Failure String :=
  (Json.writeWith CompactJson.style j).mapError fun _ => .unencodable .surrogate

end CompactJson

/-! ## Reading records -/

namespace Record

/-- A record as an object: objects pass, text and bytes are read as compact JSON and must hold
an object. -/
def load : Value → Except Failure (List (Value × Value))
  | .dict entries => .ok entries
  | .str t => ofRead (CompactJson.decodeText t)
  | .bytes b => ofRead (CompactJson.decodeBytes b)
  | _ => .error .malformedRecord
where
  /-- The object a reading gave. -/
  ofRead : Except CompactJson.DecodeError Value → Except Failure (List (Value × Value))
    | .ok (.dict entries) => .ok entries
    | .ok _ => .error .recordNotObject
    | .error _ => .error .malformedRecord

/-- The field under a name, or under its second name. -/
def field? (entries : List (Value × Value)) (name : String) (second : Option String := none) :
    Option Value :=
  match Value.lookup entries (Value.ofString name), second with
  | some v, _ => some v
  | none, some s => Value.lookup entries (Value.ofString s)
  | none, none => none

/-- A text field; a missing one takes the default if there is one. Failures count one each. -/
def textField (v : Option Value) (default : Option String := none) : Except Nat Text :=
  match v, default with
  | some (.str t), _ => .ok t
  | some _, _ => .error 1
  | none, some d => .ok (Text.ofString d)
  | none, none => .error 1

/-- Text headers; missing means none, and each entry that is not text to text counts. -/
def headersField : Option Value → Except Nat Headers
  | none => .ok []
  | some (.dict entries) =>
    let bad := entries.foldl (fun n e =>
      n + (match e.1 with | .str _ => 0 | _ => 1) + (match e.2 with | .str _ => 0 | _ => 1)) 0
    if bad = 0 then
      .ok (entries.filterMap fun e => match e with
        | (.str k, .str v) => some (k, v)
        | _ => none)
    else .error bad
  | some _ => .error 1

/-- The number of failures of a check. -/
def failures {α : Type} : Except Nat α → Nat
  | .ok _ => 0
  | .error n => n

end Record

/-! ## Key blobs -/

/-- An entry key sealed under the owner's master key. -/
structure KeyBlob where
  /-- Base64 of the sealed key. -/
  key : Text
  keyId : Text
  /-- The recorded cipher name, checked when the key is opened. -/
  cipher : Text := Text.ofString "aes-256-gcm"

namespace KeyBlob

/-- The JSON of a key blob; a field holding a surrogate has none. -/
def toJson (b : KeyBlob) : Except Failure String :=
  CompactJson.write (.record [("key", .str b.key),
    ("metadata", .record [("keyId", .str b.keyId), ("cipher", .str b.cipher)])])

/-- The key blob an object describes. -/
def ofRecord (entries : List (Value × Value)) : Except Failure KeyBlob :=
  let key := Record.textField (Record.field? entries "key")
  let fields : Except Nat (Text × Text) :=
    match Record.field? entries "metadata" with
    | some (.dict m) =>
      let kid := Record.textField (Record.field? m "keyId" (some "key_id"))
      let cipher := Record.textField (Record.field? m "cipher") (some "aes-256-gcm")
      match kid, cipher with
      | .ok k, .ok c => .ok (k, c)
      | _, _ => .error (Record.failures kid + Record.failures cipher)
    | _ => .error 1
  match key, fields with
  | .ok k, .ok (kid, c) => .ok ⟨k, kid, c⟩
  | _, _ => .error (.invalidRecord "KeyBlob" (Record.failures key + Record.failures fields))

/-- The key blob a stored record holds. -/
def load (raw : Value) : Except Failure KeyBlob := Record.load raw >>= ofRecord

end KeyBlob

/-! ## Envelopes -/

namespace Header

/-- The version of the record format. -/
def version : String := "x-vault-version"
/-- The name of the entry cipher. -/
def cipher : String := "x-vault-cipher"
/-- The key id of the entry key. -/
def keyId : String := "x-vault-key-id"
/-- The content type of the plaintext. -/
def contentType : String := "x-vault-content-type"
/-- The key derivation function. -/
def kdf : String := "x-vault-kdf"
/-- The rotation policy the entry was written under. -/
def keyRotation : String := "x-vault-key-rotation"
/-- The version of the grant format. -/
def grantVersion : String := "x-vault-grant-version"
/-- The principal who granted. -/
def grantor : String := "x-vault-grantor"
/-- Headers with this prefix are the vault's own. -/
def reservedPrefix : String := "x-vault-"

end Header

/-- A sealed value with its headers. -/
structure Envelope where
  /-- Base64 of the sealed value. -/
  data : Text
  metadata : Headers := []

namespace Envelope

/-- The JSON of an envelope; a field holding a surrogate has none. -/
def toJson (e : Envelope) : Except Failure String :=
  CompactJson.write (.record [("data", .str e.data), ("metadata", e.metadata.toJson)])

/-- The envelope an object describes. -/
def ofRecord (entries : List (Value × Value)) : Except Failure Envelope :=
  let data := Record.textField (Record.field? entries "data")
  let fields := Record.headersField (Record.field? entries "metadata")
  match data, fields with
  | .ok d, .ok m => .ok ⟨d, m⟩
  | _, _ => .error (.invalidRecord "VaultEnvelope" (Record.failures data + Record.failures fields))

/-- The envelope a stored record holds. -/
def load (raw : Value) : Except Failure Envelope := Record.load raw >>= ofRecord

/-- The key id of the sealing key, if recorded. -/
def keyId? (e : Envelope) : Option Text := e.metadata.get? Header.keyId

/-- The recorded cipher name. -/
def cipher (e : Envelope) : Text :=
  (e.metadata.get? Header.cipher).getD (Text.ofString "aes-256-gcm")

/-- The recorded content type. -/
def contentType (e : Envelope) : Text :=
  (e.metadata.get? Header.contentType).getD (Text.ofString "application/json")

/-- The headers the caller gave: those without the vault's prefix. -/
def customMetadata (e : Envelope) : Headers :=
  e.metadata.filter fun h => !h.1.startsWith (Text.ofString Header.reservedPrefix)

end Envelope

/-! ## Sealing keys and values -/

/-- Strict base64 of a recorded field; a field that is not base64 is a malformed ciphertext. -/
def decodeSealed (t : Text) : Except Failure ByteArray :=
  (Base64.decodePoints true t.points).mapError fun _ => .badEncoding

/-- Seal an entry key under the master key. -/
def wrap (masterKey entryKey : ByteArray) (cipher : Aead := .aesGcm) : Drawing KeyBlob := do
  let sealed ← cipher.encryptBlob masterKey entryKey
  pure ⟨Text.ofString (Base64.encode sealed), Text.ofString (keyId entryKey),
    Text.ofString cipher.name⟩

/-- The entry key of a key blob; the key must match the recorded key id. -/
def unwrap (masterKey : ByteArray) (blob : KeyBlob) : Except Failure ByteArray := do
  let cipher ← Aead.ofText blob.cipher
  let entryKey ← cipher.decryptBlob masterKey (← decodeSealed blob.key)
  if Text.ofString (keyId entryKey) == blob.keyId then pure entryKey
  else .error (.keyIdMismatch blob.keyId)

/-- The headers of a sealed value: the caller's, then the vault's own in a fixed order; the
vault's own replace the caller's of the same name. -/
def buildMetadata (entryKeyId : Text) (cipher : Text)
    (contentType : Text := Text.ofString "application/json")
    (rotation : Text := Text.ofString "per-write") (custom : List (Value × Value) := []) : Headers :=
  [(Header.version, Text.ofString "1"), (Header.cipher, cipher), (Header.keyId, entryKeyId),
    (Header.contentType, contentType), (Header.kdf, Text.ofString "hkdf-sha256"),
    (Header.keyRotation, rotation)]
    |>.foldl (fun h e => h.insert (Text.ofString e.1) e.2) (Headers.ofValues custom)

/-- Seal a value's bytes under its entry key. -/
def sealValue (entryKey plaintext : ByteArray) (cipher : Aead := .aesGcm)
    (contentType : Text := Text.ofString "application/json")
    (rotation : Text := Text.ofString "per-write")
    (custom : List (Value × Value) := []) : Drawing Envelope := do
  let sealed ← cipher.encryptBlob entryKey plaintext
  pure ⟨Text.ofString (Base64.encode sealed),
    buildMetadata (Text.ofString (keyId entryKey)) (Text.ofString cipher.name) contentType rotation
      custom⟩

/-- The bytes of a sealed value, with the cipher the envelope records. -/
def openValue (entryKey : ByteArray) (e : Envelope) : Except Failure ByteArray := do
  let cipher ← Aead.ofText e.cipher
  cipher.decryptBlob entryKey (← decodeSealed e.data)

end Strongbox
