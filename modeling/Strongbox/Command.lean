import Strongbox.Answer.Records
import Strongbox.Content
import Strongbox.Keys
import Strongbox.Grant
import Strongbox.Remote
import Strongbox.Scenario.Storage
import Strongbox.Scenario.Signers
import Strongbox.Scenario.Vaults

/-!
# Commands

The operations the library offers one at a time, each with its inputs, and what each answers.
Randomness comes from one entropy source per command, seeded by the caller, so every answer can
be replayed.
-/

namespace Strongbox

/-- An operation and its inputs. -/
inductive Command where
  | sha256 (data : ByteArray)
  | keyId (key : ByteArray)
  | hkdf (ikm info : ByteArray) (salt : Option ByteArray) (length : Nat)
  | clamp (seed : ByteArray)
  | getCipher (name : Value)
  | encrypt (cipher : Value) (key plaintext : ByteArray)
  | decrypt (cipher : Value) (key blob : ByteArray)
  | cipherRoundtrip (cipher : Value) (key plaintext decryptKey : ByteArray)
  | generateEntryKey
  | publicKey (privateKey : ByteArray)
  | exchange (privateKey publicKey : ByteArray)
  | signatureBytes (signature : Value)
  | masterKeyFromSignature (signature : ByteArray) (scope : Text)
  | identityFromSignature (signature : ByteArray)
  | deriveMasterKey (signer : Signer) (scope : Text)
  | deriveIdentity (signer : Signer)
  | secretBytes (data : ByteArray) (other : Option ByteArray)
  | base64Decode (data : Value)
  | base64Encode (data : ByteArray)
  | loadRecord (raw : Value)
  | keyBlobOfRecord (raw : Value)
  | envelopeOfRecord (raw : Value)
  | grantOfRecord (raw : Value)
  | wrap (masterKey entryKey : ByteArray) (cipher : Value)
  | unwrap (masterKey : ByteArray) (keyBlob : Value)
  | wrapUnwrap (masterKey entryKey : ByteArray) (cipher : Value) (unwrapKey : ByteArray)
  | buildMetadata (keyId cipher contentType rotation : Text) (custom : List (Value × Value))
  | sealValue (entryKey plaintext : ByteArray) (cipher : Value) (contentType rotation : Text)
      (custom : List (Value × Value))
  | openValue (entryKey : ByteArray) (envelope : Value)
  | sealOpen (entryKey plaintext : ByteArray) (cipher : Value) (openKey : ByteArray)
  | mediaType (contentType : Text)
  | formatFor (contentType : Text)
  | guessContentType (v : Value)
  | serialize (v : Value) (contentType : Text)
  | deserialize (data : ByteArray) (contentType : Text) (allowTyped : Bool)
  | serializeRoundtrip (v : Value) (contentType : Text) (allowTyped : Bool)
  | grantPath (recipient key : Text)
  | parseGrantPath (path : Text)
  | grantKey (shared : ByteArray)
  | buildGrant (blob : ByteArray) (spaceId grantor : Text) (custom : List (Value × Value))
  | sealEntryKey (entryKey recipient : ByteArray)
  | createGrant (masterKey : ByteArray) (keyBlob : Value) (recipient : ByteArray)
  | openGrant (privateKey blob : ByteArray)
  | grantRoundtrip (entryKey recipientKey openKey : ByteArray)
  | parseDid (did : Value)
  | parseSpaceId (spaceId : Value)
  | didForAddress (address chainId chainNamespace : Value)
  | spaceId (did name scheme : Value)
  | settings (fields : List (Value × Value))
  | settingsFromEnvironment (env : List (Text × Text)) (overrides : List (Value × Value))
  | remoteUrl (baseUrl spaceId : Text) (space : Option Text) (path : Text) (publicRoot : Bool)
  | remoteMetadata (headers : List (Text × Text))
  | memoryStorage (home : Text) (steps : List StoreStep)
  | scenario (steps : List ScenarioStep)

namespace Command

/-! ## Running commands -/

/-- A failure or a value, in a computation that draws. -/
def liftExcept {α : Type} : Except Failure α → Drawing α
  | .ok a => pure a
  | .error e => throw e

/-- The cipher a value names, where null means the default cipher. -/
def cipherOrDefault : Value → Except Failure Aead
  | .null => .ok .aesGcm
  | v => Aead.named v

/-- Strict base64 of text or bytes; other values are refused. -/
def decodeBase64Value : Value → Except Failure ByteArray
  | .str t => (Base64.decodePoints true t.points).mapError fun _ => .badEncoding
  | .bytes b => (Base64.decodePoints true (b.data.toList.map UInt8.toNat)).mapError
      fun _ => .badEncoding
  | v => .error (.base64Argument v.typeName)

/-- The answer of a secret buffer: its length, description and state, how it compares, and its
state after wiping. -/
def secretAnswer (data : ByteArray) (other : Option ByteArray) : Answer :=
  let s : SecretBytes := ⟨data⟩
  let w := s.wipe
  .fields ([("len", .value (.int s.bytes.size)), ("repr", .text s.describe),
      ("wiped", .value (.bool s.wiped)), ("bytes", .bytes s.bytes)] ++
    (match other with
     | some o => [("eq_bytes", .value (.bool (s.bytes.data == o.data))),
         ("eq_secret", .value (.bool (s.bytes.data == o.data))), ("eq_int", .value (.bool false))]
     | none => []) ++
    [("after_wipe", .fields [("wiped", .value (.bool w.wiped)), ("bytes", .bytes w.bytes),
      ("len", .value (.int w.bytes.size))])])

/-- The outcome of a command that draws. -/
def outcome (c : Command) : Drawing Answer :=
  match c with
  | sha256 data => pure (.bytes (Sha256.hash data))
  | keyId key => pure (.text (Strongbox.keyId key))
  | hkdf ikm info salt length => liftExcept ((Keys.derive ikm info salt length).map .bytes)
  | clamp seed => liftExcept ((Keys.clamp seed).map .bytes)
  | getCipher name => liftExcept do
    let a ← Aead.named name
    pure (.fields [("name", .text a.name), ("class", .text a.className), ("repr", .text a.describe)])
  | encrypt cipher key plaintext => do
    let a ← liftExcept (Aead.named cipher)
    pure (.bytes (← a.encryptBlob key plaintext))
  | decrypt cipher key blob => liftExcept do
    let a ← Aead.named cipher
    pure (.bytes (← a.decryptBlob key blob))
  | cipherRoundtrip cipher key plaintext decryptKey => do
    let a ← liftExcept (Aead.named cipher)
    let blob ← a.encryptBlob key plaintext
    let opened ← liftExcept (a.decryptBlob decryptKey blob)
    pure (.fields [("blob", .bytes blob), ("plaintext", .bytes opened)])
  | generateEntryKey => do pure (.bytes (← Strongbox.generateEntryKey))
  | publicKey priv => liftExcept ((X25519.publicKey? priv).map .bytes |>.mapError .exchange)
  | exchange priv pub => liftExcept ((X25519.exchange priv pub).map .bytes |>.mapError .exchange)
  | signatureBytes v => liftExcept ((Keys.signatureBytes v).map .bytes)
  | masterKeyFromSignature sig scope => liftExcept ((Keys.masterKeyOf sig scope).map .bytes)
  | identityFromSignature sig => pure (Answer.ofIdentity (Keys.identityOf sig))
  | deriveMasterKey signer scope => liftExcept ((Keys.deriveMasterKey signer scope).map .bytes)
  | deriveIdentity signer => liftExcept ((Keys.deriveIdentity signer).map Answer.ofIdentity)
  | secretBytes data other => pure (secretAnswer data other)
  | base64Decode data => liftExcept ((decodeBase64Value data).map .bytes)
  | base64Encode data => pure (.text (Base64.encode data))
  | loadRecord raw => liftExcept ((Record.load raw).map fun e => .value (.dict e))
  | keyBlobOfRecord raw => liftExcept (KeyBlob.load raw >>= Answer.ofKeyBlob)
  | envelopeOfRecord raw => liftExcept (Envelope.load raw >>= Answer.ofEnvelope)
  | grantOfRecord raw => liftExcept (GrantRecord.load raw >>= Answer.ofGrant)
  | wrap master entry cipher => do
    let a ← liftExcept (cipherOrDefault cipher)
    liftExcept (Answer.ofKeyBlob (← Strongbox.wrap master entry a))
  | unwrap master raw => liftExcept do
    let b ← KeyBlob.load raw
    pure (.bytes (← Strongbox.unwrap master b))
  | wrapUnwrap master entry cipher unwrapKey => do
    let a ← liftExcept (cipherOrDefault cipher)
    let b ← Strongbox.wrap master entry a
    let json ← liftExcept b.toJson
    let b' ← liftExcept (KeyBlob.load (Value.ofString json))
    let k ← liftExcept (Strongbox.unwrap unwrapKey b')
    pure (.fields [("key_blob", .text json), ("unwrapped", .bytes k)])
  | buildMetadata kid cipher ct rotation custom =>
    pure (.value (Strongbox.buildMetadata kid cipher ct rotation custom).toValue)
  | sealValue entryKey plaintext cipher ct rotation custom => do
    let a ← liftExcept (cipherOrDefault cipher)
    liftExcept (Answer.ofEnvelope (← Strongbox.sealValue entryKey plaintext a ct rotation custom))
  | openValue entryKey raw => liftExcept do
    let e ← Envelope.load raw
    pure (.bytes (← Strongbox.openValue entryKey e))
  | sealOpen entryKey plaintext cipher openKey => do
    let a ← liftExcept (cipherOrDefault cipher)
    let e ← Strongbox.sealValue entryKey plaintext a
    let json ← liftExcept e.toJson
    let opened ← liftExcept (Strongbox.openValue openKey e)
    pure (.fields [("envelope", .text json), ("opened", .bytes opened)])
  | mediaType ct => pure (.text (Content.mediaType ct))
  | formatFor ct => pure (.text? ((Content.formatFor? ct).map fun f => Text.ofString f.mediaType))
  | guessContentType v => pure (.text (Content.guess v))
  | serialize v ct => liftExcept ((Content.serialize v ct .direct).map .bytes)
  | deserialize data ct allow => liftExcept ((Content.deserialize data ct allow .direct).map .value)
  | serializeRoundtrip v ct allow => liftExcept do
    let data ← Content.serialize v ct .direct
    let back ← Content.deserialize data ct allow .direct
    pure (.fields [("data", .bytes data), ("value", .value back)])
  | grantPath recipient key => pure (.text (Grant.path recipient key))
  | parseGrantPath path => pure (match Grant.parsePath? path with
    | some (r, k) => .value (.tuple [.str r, .str k])
    | none => .value .null)
  | grantKey shared => pure (.bytes (Grant.keyOf shared))
  | buildGrant blob space grantor custom =>
    liftExcept (Answer.ofGrant (GrantRecord.build blob space grantor custom))
  | sealEntryKey entryKey recipient => do pure (.bytes (← Grant.sealEntryKey entryKey recipient))
  | createGrant master raw recipient => do
    let b ← liftExcept (KeyBlob.load raw)
    pure (.bytes (← Grant.create master b recipient))
  | openGrant priv blob => liftExcept ((Grant.open? priv blob).map .bytes)
  | grantRoundtrip entryKey recipientKey openKey => do
    let pub ← liftExcept ((X25519.publicKey? recipientKey).mapError .exchange)
    let blob ← Grant.sealEntryKey entryKey pub
    let opened ← liftExcept (Grant.open? openKey blob)
    pure (.fields [("public_key", .bytes pub), ("blob", .bytes blob), ("opened", .bytes opened)])
  | parseDid did => liftExcept ((Principal.parseValue did).map Answer.ofPrincipal |>.mapError .principal)
  | parseSpaceId v => liftExcept ((Principal.parseSpaceIdValue v).map
      (fun (p, name) => .fields [("principal", Answer.ofPrincipal p), ("name", .text name)])
      |>.mapError .principal)
  | didForAddress address chainId ns =>
    liftExcept ((Principal.didForAddress address.display chainId.display ns.display).map
      (fun d => Answer.text (Text.ofString d)) |>.mapError .principal)
  | spaceId did name scheme => liftExcept do
    let p ← (Principal.parseValue did).mapError .principal
    match name with
    | .str n =>
      let s ← (p.spaceId n scheme.display).mapError .principal
      pure (.text s)
    | .bytes _ => .error .textPatternOnBytes
    | v => .error (.patternArgument v.typeName)
  | settings fields => liftExcept ((Settings.ofFields fields).map Answer.ofSettings
      |>.mapError Failure.ofRejection)
  | settingsFromEnvironment env overrides =>
    liftExcept ((Settings.ofEnvironment env overrides).map Answer.ofSettings
      |>.mapError Failure.ofEnvironment)
  | remoteUrl base homeSpace space path publicRoot => liftExcept do
    let e := Endpoint.make base homeSpace
    pure (.fields [("base_url", .text e.baseUrl), ("url", .text (← e.url space path publicRoot))])
  | remoteMetadata headers => pure (.value (Endpoint.metadata headers).toValue)
  | memoryStorage home steps => pure (runStoreSteps home steps)
  | scenario steps => do
    let (a, e) := runScenario steps (← get)
    set e
    pure a

/-- The messages a command asks its signer to sign. -/
def messages : Command → Option (List Text)
  | deriveMasterKey _ scope => some [Keys.masterMessage scope]
  | deriveIdentity _ => some [Keys.identityMessage]
  | _ => none

/-- The reply to a command, with randomness from the stream of `seed`. -/
def run (c : Command) (seed : ByteArray) : Reply :=
  ⟨(c.outcome.run.run ⟨seed, 0⟩).1, c.messages⟩

end Command

end Strongbox
