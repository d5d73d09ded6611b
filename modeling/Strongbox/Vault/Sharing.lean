import Strongbox.Vault.Entries

/-!
# Sharing

A grant seals an entry's key to a recipient's published public key and stores it in the
owner's space at `grants/{recipient}/{key}`; the recipient finds the owner's space through the
directory and opens the grant with its private key. Revoking deletes the grant and rotates the
entry: the value is sealed again under a fresh entry key, so the revoked grant opens to a key
that decrypts nothing current, and every remaining grantee gets a fresh grant. A grantee whose
fresh grant fails is counted, not fatal.
-/

namespace Strongbox

namespace Vault

/-! ## Granting -/

/-- Seal an entry's key to a recipient; a recipient key the exchange refuses counts as no
published key. -/
def grant (key : Value) (recipient : Text) (custom : List (Value × Value) := []) :
    VaultM GrantRecord := do
  let (master, _) ← requireUnlocked
  let name ← checkName key
  let publicKey ← resolvePublicKey recipient
  let blob ← loadKeyBlob name
  let sealed ← tryCatch (drawing (Grant.create master blob publicKey)) fun e =>
    if e.isInvalidValue then throw (.publicKeyNotFound recipient (some e.message)) else throw e
  let v ← current
  let record := GrantRecord.build sealed v.settings.space (Text.ofString v.did)
    custom
  let json ← liftExcept record.toJson
  storePut (Grant.path recipient name) (.ofString json)
  pure record

/-! ## Rotating -/

/-- What a rotation did: the new and previous key ids, how many grants were issued again, and
the grantees left without one. -/
structure Rotation.Report where
  keyId : Text
  previousKeyId : Text
  reissued : Nat := 0
  failed : List Text := []

/-- Issue a fresh grant of an entry key to one grantee. -/
def reissue (key : Text) (entryKey : ByteArray) (recipient : Text) : VaultM Unit := do
  let publicKey ← resolvePublicKey recipient
  let sealed ← drawing (Grant.sealEntryKey entryKey publicKey)
  let v ← current
  let record := GrantRecord.build sealed v.settings.space (Text.ofString v.did)
  let json ← liftExcept record.toJson
  storePut (Grant.path recipient key) (.ofString json)

/-- The records of an entry sealed again, nothing written: the previous key id, the fresh
entry key, its key blob under `cipher`, and the value sealed under it with its cipher, content
type, rotation policy and the caller's headers kept. -/
def resealEntry (key : Text) (cipher : Aead) : VaultM (Text × ByteArray × KeyBlob × Envelope) := do
  let (master, _) ← requireUnlocked
  let blob ← loadKeyBlob key
  let e ← loadEnvelope key
  let oldKey ← liftExcept (unwrap master blob)
  let plaintext ← liftExcept (openValue oldKey e)
  let newKey ← drawing generateEntryKey
  let valueCipher ← liftExcept (Aead.ofText e.cipher)
  let rotation := (e.metadata.get? Header.keyRotation).getD (Text.ofString Rotation.perWrite.name)
  let e' ← drawing (sealValue newKey plaintext valueCipher e.contentType rotation
    (headerPairs e.customMetadata))
  let blob' ← drawing (wrap master newKey cipher)
  pure (blob.keyId, newKey, blob', e')

/-- Issue fresh grants of an entry key to grantees in turn, counting each issued and listing
each that failed; a failure of another kind stops the rest. -/
def reissueAll (key : Text) (entryKey : ByteArray) :
    List Text → Rotation.Report → VaultM Rotation.Report
  | [], report => pure report
  | recipient :: rest, report => do
    let failure ← tryCatch (do reissue key entryKey recipient; pure none) fun f =>
      if f.isVaultFailure || f.isInvalidValue then pure (some f) else throw f
    let report := match failure with
      | none => { report with reissued := report.reissued + 1 }
      | some _ => { report with failed := report.failed ++ [recipient] }
    reissueAll key entryKey rest report

/-- Seal an entry again under a fresh entry key, its key blob under `cipher`, and issue fresh
grants to the grantees. -/
def rotate (key : Text) (grantees : List Text) (cipher : Aead := .aesGcm) :
    VaultM Rotation.Report := do
  let (previous, newKey, blob', e') ← resealEntry key cipher
  storeEntry key blob' e'
  reissueAll key newKey grantees { keyId := blob'.keyId, previousKeyId := previous }

/-- Take back a recipient's grant and rotate the entry for the others. -/
def revoke (key : Value) (recipient : Text) : VaultM Rotation.Report := do
  let _ ← requireUnlocked
  let name ← checkName key
  let grantees ← listGrants key
  let v ← current
  if !grantees.contains recipient then throw (.grantNotFound (Text.ofString v.did) name)
  else do
    storeDelete (Grant.path recipient name)
    rotate name (grantees.filter (· != recipient)) (← current).settings.cipher

/-! ## Reading what others share -/

/-- Read an entry another principal shared: find the owner's space, open the grant stored for
this vault's principal, and open the value with the key it holds. -/
def getShared (owner : Text) (key : Value) (reading : Reading := .content false) :
    VaultM Entry := do
  let (_, identity) ← requireUnlocked
  let name ← checkName key
  let space ← tryCatch (resolveVaultSpace owner) fun f =>
    match f with
    | .publicKeyNotFound _ _ => throw (.grantNotFound owner name)
    | _ => throw f
  let v ← current
  let stored ← storeGet (Grant.path (Text.ofString v.did) name) (some space)
  let stored ← match stored with
    | some s => pure s
    | none => throw (.grantNotFound owner name)
  let record ← liftExcept (GrantRecord.load stored.data.toValue)
  let sealed ← liftExcept record.blob
  let entryKey ← liftExcept (Grant.open? identity.privateKey sealed)
  let e ← loadEnvelope name (some space)
  let plaintext ← liftExcept (openValue entryKey e)
  let value ← liftExcept (decodeValue plaintext e reading)
  pure ⟨value, e.metadata, Text.ofString (keyId entryKey)⟩

end Vault

end Strongbox
