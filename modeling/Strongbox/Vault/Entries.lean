import Strongbox.Vault.Directory
import Strongbox.Entry.Name
import Strongbox.Entry.Record
import Strongbox.Content
import Strongbox.Grant

/-!
# Entries

An entry named `key` is two records in the vault's space: its entry key sealed under the master
key at `keys/{key}`, and its value sealed under the entry key at `vault/{key}`. Writing seals the
value under a fresh entry key (or, under the per-key policy, the key already stored) and writes
both records; both writes are tried even when the first fails, and the first failure is
reported. Reading opens both and checks that they name the same key, reading once more if they
do not, since a reader may meet an overwrite half done. Deleting removes the entry's grants, then
its value, then its key.
-/

namespace Strongbox

namespace Vault

/-- The folder of key blobs. -/
def keysPrefix : Text := Text.ofString "keys/"

/-- The folder of values. -/
def valuesPrefix : Text := Text.ofString "vault/"

/-! ## Lifecycle -/

/-- Drop the keys. -/
def lock : VaultM Unit := update fun v => { v with masterKey := none, identity := none }

/-- Derive the keys from the owner's signer, then publish the public key when the settings ask
for it; a failure to publish leaves the vault unlocked. The answer is the public key. -/
def unlock (signer : Signer) : VaultM ByteArray := do
  lock
  let v ← current
  let master ← liftExcept (Keys.deriveMasterKey signer v.settings.space)
  let identity ← liftExcept (Keys.deriveIdentity signer)
  update fun v => { v with masterKey := some master, identity := some identity }
  if v.settings.publishOnUnlock then
    publish v.principal identity.publicKey (some v.settings.space)
  pure identity.publicKey

/-- The messages a signer is asked to sign to unlock a vault. -/
def unlockMessages (v : Vault) : List Text :=
  [Keys.masterMessage v.settings.space, Keys.identityMessage]

/-- An entry name, checked. -/
def checkName (key : Value) : VaultM Text :=
  liftExcept ((EntryName.ofValue key).mapError .badName)

/-! ## Records -/

/-- The key blob of an entry. -/
def loadKeyBlob (key : Text) : VaultM KeyBlob := do
  match ← storeGet (keysPrefix ++ key) with
  | none => throw (.keyNotFound key)
  | some s => liftExcept (KeyBlob.load s.data.toValue)

/-- The envelope of an entry, in the vault's space or another. -/
def loadEnvelope (key : Text) (space : Option Text := none) : VaultM Envelope := do
  match ← storeGet (valuesPrefix ++ key) space with
  | none => throw (.keyNotFound key)
  | some s => liftExcept (Envelope.load s.data.toValue)

/-- Headers as pairs of text values, the form the store keeps. -/
def headerPairs (h : Headers) : List (Value × Value) :=
  h.map fun e => (.str e.1, .str e.2)

/-- Run a store call, keeping a store failure as a result; other failures pass. -/
def attempt (m : VaultM Unit) : VaultM (Option Failure) :=
  tryCatch (do m; pure none) fun e =>
    match e with
    | .storage _ _ => pure (some e)
    | _ => throw e

/-- Write both records of an entry: both writes are tried, and the first store failure is
reported. A record without JSON text fails as it is written, whatever came before. -/
def storeEntry (key : Text) (blob : KeyBlob) (e : Envelope) : VaultM Unit := do
  let blobJson ← liftExcept blob.toJson
  let first ← attempt (storePut (keysPrefix ++ key) (.ofString blobJson))
  let envelopeJson ← liftExcept e.toJson
  let second ← attempt
    (storePut (valuesPrefix ++ key) (.ofString envelopeJson) (headerPairs e.metadata))
  match first, second with
  | some f, _ => throw f
  | none, some f => throw f
  | none, none => pure ()

/-! ## Writing and reading -/

/-- How a value is written: by its content type, or by the caller's serializer, which makes a
value of it or fails. -/
inductive Writing where
  | content
  | custom (serialize : Value → Except Failure Value)

/-- The serializer scenarios call `raw`: text as its UTF-8, bytes as they are. -/
def Writing.raw : Writing := .custom fun v => (Content.writeBinary v).map .bytes

/-- What a write makes of a value before sealing it: its bytes under the content type, or what
the caller's serializer returns. -/
def Writing.produce : Writing → Value → Text → Except Failure Value
  | .content, value, contentType => (Content.serialize value contentType .vault).map .bytes
  | .custom serialize, value, _ => serialize value

/-- One byte of a sequence: an integer below 256. -/
def byteOf : Value → Except Failure UInt8
  | .bool b => .ok (if b then 1 else 0)
  | .int n => if 0 ≤ n ∧ n < 256 then .ok n.toNat.toUInt8 else .error .byteOutOfRange
  | v => .error (.notByteIndex v.typeName)

/-- The buffer a value makes: bytes as they are, a non-negative integer as that many zero bytes,
a sequence of small integers (the keys of a dictionary) as those bytes. Text has no encoding
to go by, and any other value makes none. -/
def bufferOf : Value → Except Failure ByteArray
  | .bytes b => .ok b
  | .bool b => .ok (Bytes.replicate (if b then 1 else 0) 0)
  | .int n => if n < 0 then .error .negativeCount else .ok (Bytes.replicate n.toNat 0)
  | .str _ => .error .bufferOfText
  | .tuple items | .list items | .frozenset items => (items.mapM byteOf).map fun bs => ⟨bs.toArray⟩
  | .dict entries => (entries.mapM (byteOf ·.1)).map fun bs => ⟨bs.toArray⟩
  | v => .error (.notBuffer v.typeName)

/-- The bytes a value is written as. -/
def plaintextOf (value : Value) (contentType : Text) (writing : Writing) :
    Except Failure ByteArray :=
  writing.produce value contentType >>= bufferOf

/-- The content type a value is written under: the given one unless empty, else a guess. -/
def contentTypeOf (value : Value) : Option Text → Text
  | some c => if c.isEmpty then Content.guess value else c
  | none => Content.guess value

/-- Under the per-key policy, the entry key already stored under a name, if there is one. -/
def keptKey (master : ByteArray) (key : Text) : Rotation → VaultM (Option ByteArray)
  | .perKey =>
    tryCatch (do pure (some (← liftExcept (unwrap master (← loadKeyBlob key))))) fun e =>
      match e with
      | .keyNotFound _ => pure none
      | _ => throw e
  | .perWrite => pure none

/-- The entry key to write with: the kept one, or a fresh one. -/
def entryKeyOf : Option ByteArray → VaultM ByteArray
  | some k => pure k
  | none => drawing generateEntryKey

/-- Seal what a write made of a value: the cipher checks the key and draws the nonce before it
reads the plaintext, so a result that makes no buffer fails having drawn the nonce. -/
def sealResult (entryKey : ByteArray) (result : Value) (cipher : Aead) (contentType rotation : Text)
    (custom : List (Value × Value)) : Drawing Envelope :=
  match bufferOf result with
  | .ok plaintext => sealValue entryKey plaintext cipher contentType rotation custom
  | .error f =>
    match cipher.checkKey entryKey with
    | .error e => throw (.keySize e)
    | .ok () => do
      let _ ← drawBytes nonceSize
      throw f

/-- The records a write stores: the checked name, the entry key sealed under the master key
(a fresh key, or under the per-key policy the one already stored), and the value sealed under
the entry key. Nothing is written. -/
def sealEntry (key : Value) (value : Value) (contentType : Option Text)
    (custom : List (Value × Value)) (writing : Writing) : VaultM (Text × KeyBlob × Envelope) := do
  let (master, _) ← requireUnlocked
  let key ← checkName key
  let v ← current
  let ct := contentTypeOf value contentType
  let result ← liftExcept (writing.produce value ct)
  let kept ← keptKey master key v.settings.rotation
  let entryKey ← entryKeyOf kept
  let blob ← drawing (wrap master entryKey v.settings.cipher)
  let e ← drawing (sealResult entryKey result v.settings.cipher ct
    (Text.ofString v.settings.rotation.name) custom)
  pure (key, blob, e)

/-- Write a value under a name; the answer is the headers written. -/
def put (key : Value) (value : Value) (contentType : Option Text := none)
    (custom : List (Value × Value) := []) (writing : Writing := .content) : VaultM Headers := do
  let (key, blob, e) ← sealEntry key value contentType custom writing
  storeEntry key blob e
  pure e.metadata

/-- How read bytes become a value: kept as bytes, read as UTF-8 text, or read by the recorded
content type, typed JSON only when allowed. -/
inductive Reading where
  | raw
  | utf8
  | content (allowTyped : Bool)

/-- The value of opened bytes; a content format's failure to read them is an integrity failure,
while a wrong type passes as it is. -/
def decodeValue (plaintext : ByteArray) (e : Envelope) : Reading → Except Failure Value
  | .raw => .ok (.bytes plaintext)
  | .utf8 => (Content.read plaintext true .vault .text)
  | .content allow => (Content.deserialize plaintext e.contentType allow .vault).mapError fun f =>
    if f.isInvalidValue || f.kind == .runtime then .undecodable e.contentType f else f

/-- A read entry: its value, headers and key id. -/
structure Entry where
  value : Value
  metadata : Headers
  keyId : Text

/-- Read the key blob and envelope once; whether they agree, with what was read. -/
def readPair (master : ByteArray) (key : Text) :
    VaultM (Bool × KeyBlob × ByteArray × Envelope) := do
  let blob ← loadKeyBlob key
  let entryKey ← liftExcept (unwrap master blob)
  let e ← loadEnvelope key
  pure (e.keyId? == some blob.keyId, blob, entryKey, e)

/-- The key blob, entry key and envelope of an entry once they agree: read once, and once more
if they do not, since a reader may meet an overwrite half done. -/
def readAgreed (master : ByteArray) (key : Text) : VaultM (KeyBlob × ByteArray × Envelope) := do
  let (agree, blob, entryKey, e) ← readPair master key
  if agree then pure (blob, entryKey, e)
  else do
    let (agree, blob, entryKey, e) ← readPair master key
    if agree then pure (blob, entryKey, e)
    else throw (.envelopeMismatch e.keyId? blob.keyId key)

/-- Read the value under a name. -/
def getEntry (key : Value) (reading : Reading := .content false) : VaultM Entry := do
  let (master, _) ← requireUnlocked
  let key ← checkName key
  let (blob, entryKey, e) ← readAgreed master key
  let plaintext ← liftExcept (openValue entryKey e)
  let value ← liftExcept (decodeValue plaintext e reading)
  pure ⟨value, e.metadata, blob.keyId⟩

/-- The headers of an entry, without opening it. -/
def head (key : Value) : VaultM Headers := do
  let _ ← requireUnlocked
  let key ← checkName key
  return (← loadEnvelope key).metadata

/-- The names of entries, under a prefix when given: relative to the prefix when asked, else
with it. -/
def listEntries (pathPrefix : Option Text := none) (removePrefix : Bool := false) :
    VaultM (List Text) := do
  let _ ← requireUnlocked
  let p := pathPrefix.getD (Text.ofString "")
  let names ← storeList (valuesPrefix ++ p)
  pure (if removePrefix || p.isEmpty then names else names.map (p ++ ·))

/-- The recipients holding a grant for an entry, each once, in path order. -/
def listGrants (key : Value) : VaultM (List Text) := do
  let _ ← requireUnlocked
  let key ← checkName key
  let paths ← storeList (Text.ofString Grant.pathPrefix)
  pure (Grant.recipients key paths)

/-- Delete an entry with its grants. -/
def delete (key : Value) : VaultM Unit := do
  let _ ← requireUnlocked
  let name ← checkName key
  for r in ← listGrants key do
    storeDelete (Grant.path r name)
  storeDelete (valuesPrefix ++ name)
  storeDelete (keysPrefix ++ name)

end Vault

end Strongbox
