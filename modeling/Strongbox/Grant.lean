import Strongbox.Entry.Record
import Strongbox.Hash.Hkdf

/-!
# Grants

A grant shares one entry key with one recipient. The key is sealed to the recipient's X25519
public key through a fresh ephemeral key pair:

    shared    = X25519(ephemeral private, recipient public)
    grant key = HKDF-SHA256(shared, salt = "x25519-domain", info = "vault-grant")
    blob      = ephemeral public (32 bytes) ‖ AES-256-GCM(grant key, entry key)

The recipient recomputes `shared` from its private key and the ephemeral public key. A grant is
stored at `grants/{recipient}/{key}` in the owner's space, as a record holding the blob in
base64, the owner's space and the grant headers.
-/

namespace Strongbox

/-- A stored grant. -/
structure GrantRecord where
  /-- Base64 of the grant blob. -/
  grant : Text
  spaceId : Text
  metadata : Headers := []

namespace GrantRecord

/-- The JSON of a grant record; a field holding a surrogate has none. -/
def toJson (g : GrantRecord) : Except Failure String :=
  CompactJson.write (.record [("grant", .str g.grant), ("spaceId", .str g.spaceId),
    ("metadata", g.metadata.toJson)])

/-- The grant record an object describes. -/
def ofRecord (entries : List (Value × Value)) : Except Failure GrantRecord :=
  let grant := Record.textField (Record.field? entries "grant")
  let space := Record.textField (Record.field? entries "spaceId" (some "space_id"))
  let headers := Record.headersField (Record.field? entries "metadata")
  match grant, space, headers with
  | .ok g, .ok s, .ok h => .ok ⟨g, s, h⟩
  | _, _, _ => .error (.invalidRecord "GrantRecord"
      (Record.failures grant + Record.failures space + Record.failures headers))

/-- The grant record a stored record holds. -/
def load (raw : Value) : Except Failure GrantRecord := Record.load raw >>= ofRecord

/-- The grant blob. -/
def blob (g : GrantRecord) : Except Failure ByteArray := decodeSealed g.grant

/-- The principal who granted, if recorded. -/
def grantor? (g : GrantRecord) : Option Text := g.metadata.get? Header.grantor

/-- A grant record for a blob: the caller's headers as text, then the grant version and the
grantor. -/
def build (blob : ByteArray) (spaceId grantor : Text) (custom : List (Value × Value) := []) :
    GrantRecord :=
  ⟨Text.ofString (Base64.encode blob), spaceId,
    ((Headers.ofValues custom).insert (Text.ofString Header.grantVersion) (Text.ofString "1")).insert
      (Text.ofString Header.grantor) grantor⟩

end GrantRecord

namespace Grant

/-- The folder of grants. -/
def pathPrefix : String := "grants/"

/-- Where a grant of `key` to `recipient` is stored. -/
def path (recipient key : Text) : Text :=
  Text.ofString pathPrefix ++ recipient ++ Text.ofString "/" ++ key

/-- The recipient and key of a grant path, the folder optional; both must be non-empty, and the
recipient ends at the first `/`. -/
def parsePath? (p : Text) : Option (Text × Text) :=
  let rest := (p.dropPrefix? (Text.ofString pathPrefix)).getD p
  match rest.splitOn '/' with
  | recipient :: k :: ks =>
    let key := Text.join (Text.ofString "/") (k :: ks)
    if recipient.isEmpty || key.isEmpty then none else some (recipient, key)
  | _ => none

/-- The recipients found so far, with the one a grant path names for an entry when it is new. -/
def addRecipient (key : Text) (acc : List Text) (path : Text) : List Text :=
  match parsePath? path with
  | some (r, k) => if k == key && !acc.contains r then acc ++ [r] else acc
  | none => acc

/-- The recipients that grant paths name for an entry, each once, in the order of the paths. -/
def recipients (key : Text) (paths : List Text) : List Text :=
  paths.foldl (addRecipient key) []

/-- The key that seals an entry key for a shared secret. -/
def keyOf (shared : ByteArray) : ByteArray :=
  (Hkdf.derive? shared "vault-grant".toUTF8 (some "x25519-domain".toUTF8) 32).getD ByteArray.empty

/-- The shortest grant blob: an ephemeral key, a nonce and a tag. -/
def minimumSize : Nat := 32 + nonceSize + tagSize

/-- Seal an entry key to a recipient's public key with a fresh ephemeral key. -/
def sealEntryKey (entryKey recipient : ByteArray) : Drawing ByteArray := do
  if recipient.size ≠ 32 then throw (.recipientKeySize recipient.size)
  let ephemeral ← drawBytes 32
  match X25519.exchange ephemeral recipient with
  | .error e => throw (.exchange e)
  | .ok shared =>
    let sealed ← Aead.aesGcm.encryptBlob (keyOf shared) entryKey
    pure (X25519.publicKey ephemeral ++ sealed)

/-- Seal the entry key of a key blob to a recipient. -/
def create (masterKey : ByteArray) (blob : KeyBlob) (recipient : ByteArray) : Drawing ByteArray := do
  let entryKey ← liftExcept (unwrap masterKey blob)
  sealEntryKey entryKey recipient
where
  /-- A failure or a value, in a computation that draws. -/
  liftExcept {α : Type} : Except Failure α → Drawing α
    | .ok a => pure a
    | .error e => throw e

/-- The entry key of a grant blob, with the recipient's private key. -/
def open? (privateKey blob : ByteArray) : Except Failure ByteArray :=
  if blob.size < minimumSize then .error (.grantTooShort blob.size)
  else match X25519.exchange privateKey (Bytes.slice blob 0 32) with
    | .error e => .error (.badGrantExchange e)
    | .ok shared => Aead.aesGcm.decryptBlob (keyOf shared) (Bytes.dropBytes blob 32)

end Grant

end Strongbox
