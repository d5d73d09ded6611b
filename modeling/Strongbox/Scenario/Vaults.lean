import Strongbox.Vault.Sharing
import Strongbox.Answer.Records
import Strongbox.Codec.Compact

/-!
# Vault scenarios

Named vaults over one shared store, driven step by step. A step creates a vault, acts on a named
vault, or edits the store directly to set up a state no vault would write, such as a damaged
record. Each step has its own outcome; a failing step keeps what it changed before failing and
does not stop the steps after it. All vaults draw from one entropy source, in step order.
-/

namespace Strongbox

/-- What a step asks of a named vault. -/
inductive VaultCall where
  | unlock (signer : Signer)
  | lock
  | signOut
  | state
  | setFaults (faults : List Fault)
  | put (key value : Value) (contentType : Option Text) (custom : List (Value × Value))
      (writing : Vault.Writing)
  | get (key : Value) (reading : Vault.Reading)
  | getShared (owner : Text) (key : Value) (reading : Vault.Reading)
  | delete (key : Value)
  | head (key : Value)
  | list (pathPrefix : Option Text) (removePrefix : Bool)
  | grant (key : Value) (recipient : Text) (custom : List (Value × Value))
  | listGrants (key : Value)
  | revoke (key : Value) (recipient : Text)
  | resolvePublicKey (did : Text)
  | resolve (did : Text)
  | resolveVaultSpace (did : Text)
  | forget (did : Option Text)
  | publish (did : Value) (publicKey : ByteArray) (vaultSpace : Option Text)
  | rotate (key : Text) (grantees : List Text) (cipher : Value)

/-- A direct edit of the store, outside any vault; an edit of an absent path does nothing. -/
inductive StoreEdit where
  | get (space path : Text)
  | put (space path : Text) (data : Value) (metadata : List (Value × Value))
  | delete (space path : Text)
  | copy (fromSpace fromPath toSpace toPath : Text)
  /-- Set and remove items of a stored JSON record, each named by a dotted path. -/
  | edit (space path : Text) (set : List (Text × Value)) (unset : List Text)
  /-- Flip bits of one byte of a base64 item of a stored JSON record. -/
  | flip (space path field : Text) (index mask : Int)
  | dump
  | spaces

/-- A step of a scenario. -/
inductive ScenarioStep where
  | create (name : String) (did : Value) (space : Option Text)
      (config : Option (List (Value × Value))) (faults : List Fault)
  | call (name : String) (c : VaultCall)
  | edit (e : StoreEdit)

/-- The state of a scenario: the named vaults, their shared store, and the entropy. -/
structure Scene where
  vaults : List (String × Vault) := []
  store : Store := {}
  entropy : Entropy

namespace Scene

/-- The vaults with one under a name: a present name keeps its place. -/
def withVault (s : Scene) (name : String) (v : Vault) : Scene :=
  { s with vaults := if s.vaults.any (·.1 == name)
      then s.vaults.map (fun e => if e.1 == name then (name, v) else e)
      else s.vaults ++ [(name, v)] }

/-- Run a vault operation on a named vault; what it changed stays changed when it fails. -/
def onVault (s : Scene) (name : String) (m : VaultM Answer) : Except Failure Answer × Scene :=
  match s.vaults.lookup name with
  | none => (.error (.unknownVault name), s)
  | some v =>
    let (r, w) := (m.run).run ⟨v, s.store, s.entropy⟩
    (r, { (s.withVault name w.vault) with store := w.store, entropy := w.entropy })

end Scene

namespace Vault

/-- The public key, while unlocked. -/
def publicKey? (v : Vault) : Option ByteArray := v.identity.map (·.publicKey)

/-- A new vault of the principal a value names, storing through the session of `space` or else
the principal's default space, with settings from `config` or else the defaults for the
principal's default space. The identifier is read before the settings when no space is named,
since the default space depends on it, and after them otherwise. -/
def create (did : Value) (space : Option Text) (config : Option (List (Value × Value)))
    (faults : List Fault) : Except Failure Vault := do
  let principal := (Principal.parseValue did).mapError Failure.principal
  let home ← match space with
    | some s => if s.isEmpty then (Text.ofString ·.defaultSpaceId) <$> principal else pure s
    | none => (Text.ofString ·.defaultSpaceId) <$> principal
  let settings? ← match config with
    | some fields => (some <$> (Settings.ofFields fields).mapError Failure.ofRejection)
    | none => pure none
  let p ← principal
  let settings := settings?.getD { space := Text.ofString p.defaultSpaceId }
  pure { principal := p, settings := settings, session := ⟨home⟩, faults := faults }

end Vault

namespace VaultCall

/-- An entry as an answer. -/
def entryAnswer (e : Vault.Entry) : Answer :=
  .fields [("value", .value e.value), ("metadata", .value e.metadata.toValue),
    ("key_id", .text e.keyId)]

/-- A rotation report as named parts. -/
def reportFields (r : Vault.Rotation.Report) : List (String × Answer) :=
  [("key_id", .text r.keyId), ("previous_key_id", .text r.previousKeyId),
    ("reissued", .value (.int r.reissued)), ("errors", .value (.int r.failed.length)),
    ("failed", .value (.list (r.failed.map .str)))]

/-- Text values as a list answer. -/
def textList (xs : List Text) : Answer := .value (.list (xs.map .str))

/-- The vault operation a call runs, and its answer. -/
def run : VaultCall → VaultM Answer
  | unlock signer => do
    let key ← Vault.unlock signer
    let v ← Vault.current
    pure (.fields [("messages", textList (Vault.unlockMessages v)),
      ("public_key", .bytes key)])
  | lock => do Vault.lock; pure (.value .null)
  | signOut => do Vault.lock; pure (.value .null)
  | state => do
    let v ← Vault.current
    pure (.fields [("is_unlocked", .value (.bool v.isUnlocked)), ("did", .text v.did),
      ("space_id", .text v.settings.space),
      ("public_key", match v.publicKey? with
        | some k => .bytes k
        | none => .value .null),
      ("repr", .text v.describe)])
  | setFaults faults => do
    Vault.update fun v => { v with faults := faults }
    pure (.value .null)
  | put key value contentType custom writing => do
    let h ← Vault.put key value contentType custom writing
    pure (.value h.toValue)
  | get key reading => entryAnswer <$> Vault.getEntry key reading
  | getShared owner key reading => entryAnswer <$> Vault.getShared owner key reading
  | delete key => do Vault.delete key; pure (.value .null)
  | head key => do pure (.value (← Vault.head key).toValue)
  | list pathPrefix removePrefix => textList <$> Vault.listEntries pathPrefix removePrefix
  | grant key recipient custom => do
    Vault.liftExcept (Answer.ofGrant (← Vault.grant key recipient custom))
  | listGrants key => textList <$> Vault.listGrants key
  | revoke key recipient => do
    let r ← Vault.revoke key recipient
    pure (.fields (reportFields r ++ [("revoked", .text recipient)]))
  | resolvePublicKey did => .bytes <$> Vault.resolvePublicKey did
  | resolve did => do
    let r ← Vault.resolve did
    pure (.fields [("did", .text r.did), ("public_key", .bytes r.publicKey),
      ("version", .text r.version), ("vault_space", .text? r.vaultSpace)])
  | resolveVaultSpace did => .text <$> Vault.resolveVaultSpace did
  | forget did => do Vault.forget did; pure (.value .null)
  | publish did publicKey vaultSpace => do
    let p ← Vault.liftExcept ((Principal.parseValue did).mapError Failure.principal)
    Vault.publish p publicKey vaultSpace
    pure (.value .null)
  | rotate key grantees cipher => do
    let _ ← Vault.requireUnlocked
    let c ← Vault.liftExcept (match cipher with
      | .null => .ok .aesGcm
      | v => Aead.named v)
    let r ← Vault.rotate key grantees c
    pure (.fields (reportFields r))

end VaultCall

namespace StoreEdit

/-- The keys of a dotted path. -/
def parts (dotted : Text) : List Text := dotted.splitOn '.'

/-- The JSON value a stored record holds. -/
def parse (s : Stored) : Except Failure Value :=
  match s.data with
  | .text t => (CompactJson.decodeText t).mapError fun _ => .jsonSyntax
  | .bytes b => (CompactJson.decodeBytes b).mapError fun _ => .jsonSyntax

/-- Compact JSON text of a value. -/
def render (v : Value) : Except Failure String :=
  (CompactJson.encode v).mapError .unencodable

/-- Replace a stored JSON record by an edit of it, keeping its headers; the answer is the new
text. -/
def replaceRecord (st : Store) (space path : Text) (f : Value → Except Failure Value) :
    Except Failure Answer × Store :=
  match st.find? space path with
  | none => (.ok (.value .null), st)
  | some s =>
    match parse s >>= f >>= render with
    | .ok text => (.ok (.text text), st.write space path { s with data := .ofString text })
    | .error e => (.error e, st)

/-- The outcome of an edit and the store after it. -/
def run (st : Store) : StoreEdit → Except Failure Answer × Store
  | get space path => (.ok (match st.find? space path with
      | some s => .value s.toValue
      | none => .value .null), st)
  | put space path data metadata => match Data.ofValue data with
    | .ok d => (.ok (.value .null), st.write space path ⟨d, metadata⟩)
    | .error e => (.error e, st)
  | delete space path =>
    (.ok (.value .null), if (st.find? space path).isSome then st.erase space path else st)
  | copy fromSpace fromPath toSpace toPath =>
    (.ok (.value .null), match st.find? fromSpace fromPath with
      | some s => st.write toSpace toPath s
      | none => st)
  | edit space path set unset => replaceRecord st space path fun v =>
    (do
      let v ← set.foldlM (fun v (dotted, x) => Value.setAt x (parts dotted) v) v
      unset.foldlM (fun v dotted => Value.removeAt (parts dotted) v) v).mapError .access
  | flip space path field index mask => replaceRecord st space path fun v => do
    let raw ← match ← (v.item field).mapError .access with
      | .str t => (Base64.decodePoints false t.points).mapError fun e =>
          if e = .nonAscii then .nonAsciiBase64 else .badBase64
      | x => .error (.base64Argument x.typeName)
    let flipped ← (flipByte raw index mask).mapError .access
    (v.setItem field (Value.ofString (Base64.encode flipped))).mapError .access
  | dump => (.ok (.value st.dump), st)
  | spaces => (.ok (.value st.layout), st)

end StoreEdit

namespace ScenarioStep

/-- The outcome of a step and the scene after it. -/
def run (s : Scene) : ScenarioStep → Except Failure Answer × Scene
  | create name did space config faults =>
    match Vault.create did space config faults with
    | .ok v => (.ok (.fields [("repr", .text v.describe), ("did", .text v.did),
        ("space_id", .text v.settings.space), ("config", .ofSettings v.settings)]),
        s.withVault name v)
    | .error e => (.error e, s)
  | call name c => s.onVault name c.run
  | edit e =>
    let (r, st) := e.run s.store
    (r, { s with store := st })

end ScenarioStep

/-- Run a scenario from an empty store and the given entropy; the answer lists each step's
outcome, with the entropy left after. -/
def runScenario (steps : List ScenarioStep) (entropy : Entropy) : Answer × Entropy :=
  let (outcomes, scene) := steps.foldl (fun (acc : List (Except Failure Answer) × Scene) step =>
    let (r, s) := step.run acc.2
    (acc.1 ++ [r], s)) ([], { entropy := entropy })
  (.steps outcomes, scene.entropy)

end Strongbox
