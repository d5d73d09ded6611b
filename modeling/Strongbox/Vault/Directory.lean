import Strongbox.Vault.Basic
import Strongbox.Encoding.Base64

/-!
# The public key directory

Each principal publishes, in its public space, its vault public key in base64 at
`.well-known/vault-pubkey`, the directory version at `.well-known/vault-version`, and the space of
its vault at `.well-known/vault-space` when that is not its default space. Anyone can read them.
A missing or malformed key is reported as a missing public key; a resolved key is cached by the
vault that resolved it, until it forgets it.
-/

namespace Strongbox

namespace Directory

/-- Where the public key is published. -/
def keyPath : String := ".well-known/vault-pubkey"

/-- Where the directory version is published. -/
def versionPath : String := ".well-known/vault-version"

/-- Where the vault space is published. -/
def spacePath : String := ".well-known/vault-space"

/-- The version of the directory format. -/
def version : String := "1"

end Directory

namespace Vault

/-- The cache with a record under a name: a present name keeps its place. -/
def cacheInsert (c : List (Text × KeyRecord)) (did : Text) (r : KeyRecord) :
    List (Text × KeyRecord) :=
  if c.any (·.1 == did) then c.map (fun e => if e.1 == did then (did, r) else e) else c ++ [(did, r)]

/-- Publish a public key and the vault-space pointer of a principal; the pointer is removed
when the vault lives in the default space. -/
def publish (p : Principal) (publicKey : ByteArray) (vaultSpace : Option Text := none) :
    VaultM Unit := do
  if publicKey.size ≠ 32 then throw .publicKeySize
  let space := some (Text.ofString p.publicSpaceId)
  storePut (Text.ofString Directory.keyPath) (.ofString (Base64.encode publicKey)) [] space
  storePut (Text.ofString Directory.versionPath) (.ofString Directory.version) [] space
  match vaultSpace with
  | some s =>
    if !s.isEmpty && s != Text.ofString p.defaultSpaceId then
      storePut (Text.ofString Directory.spacePath) (.text s) [] space
    else storeDelete (Text.ofString Directory.spacePath) space
  | none => storeDelete (Text.ofString Directory.spacePath) space
  let did := Text.ofString p.did
  let r : KeyRecord := ⟨did, publicKey, Text.ofString Directory.version, vaultSpace⟩
  update fun v => { v with cache := cacheInsert v.cache did r }

/-- The principal of an identifier; an invalid one has no public key. -/
def principalOf (did : Text) : VaultM Principal :=
  liftExcept ((Principal.parse did).mapError fun e =>
    .publicKeyNotFound did (some (Text.ofString e.message)))

/-- Published text without surrounding blanks; none when absent or not UTF-8. -/
def readText (space path : String) : VaultM (Option Text) := do
  match ← storeGetPublic (Text.ofString space) (Text.ofString path) with
  | none => pure none
  | some s => match s.data.asText with
    | .ok t => pure (some t.trim)
    | .error _ => pure none

/-- Non-empty text, or none. -/
def nonEmpty : Option Text → Option Text
  | some s => if s.isEmpty then none else some s
  | none => none

/-- The public key a published text gives: it must be present, base64, and 32 bytes long. -/
def publishedKey (did : Text) : Option Text → Except Failure ByteArray
  | none => .error (.publicKeyNotFound did none)
  | some encoded =>
    match Base64.decodePoints true encoded.points with
    | .error _ =>
      .error (.publicKeyNotFound did (some (Text.ofString "malformed public key encoding")))
    | .ok key =>
      if key.size ≠ 32 then
        .error (.publicKeyNotFound did
          (some (Text.ofString ("public key must be 32 bytes, got " ++ toString key.size))))
      else .ok key

/-- The published key of a principal, from the cache when resolved before. -/
def resolve (did : Text) : VaultM KeyRecord := do
  match (← current).cache.lookup did with
  | some r => pure r
  | none =>
    let p ← principalOf did
    let space := p.publicSpaceId
    let key ← liftExcept (publishedKey did (nonEmpty (← readText space Directory.keyPath)))
    let version :=
      (nonEmpty (← readText space Directory.versionPath)).getD (Text.ofString Directory.version)
    let vaultSpace := nonEmpty (← readText space Directory.spacePath)
    let r : KeyRecord := ⟨Text.ofString p.did, key, version, vaultSpace⟩
    update fun v => { v with cache := cacheInsert v.cache did r }
    pure r

/-- The public key of a principal. -/
def resolvePublicKey (did : Text) : VaultM ByteArray := return (← resolve did).publicKey

/-- The space of a principal's vault: the published pointer, read afresh and written into any
cached record, or the principal's default space. -/
def resolveVaultSpace (did : Text) : VaultM Text := do
  let p ← principalOf did
  let pointer := nonEmpty (← readText p.publicSpaceId Directory.spacePath)
  match (← current).cache.lookup did with
  | some r =>
    if r.vaultSpace != pointer then
      update fun v => { v with cache := cacheInsert v.cache did { r with vaultSpace := pointer } }
  | none => pure ()
  pure (pointer.getD (Text.ofString p.defaultSpaceId))

/-- Drop one cached record, or all. -/
def forget (did : Option Text) : VaultM Unit :=
  update fun v => { v with cache := match did with
    | some d => v.cache.filter (·.1 != d)
    | none => [] }

end Vault

end Strongbox
