import Strongbox.Store
import Strongbox.Keys
import Strongbox.Entry.Cipher

/-!
# Vaults

A vault belongs to one principal and keeps its entries in a session of a shared store. It is
locked until its keys are derived from the owner's signer. Every call it makes to the store may
meet an injected fault, which names the operation and a path prefix and may be limited to a
number of calls; a call that meets one fails before touching the store. A vault also caches the
public keys it has resolved.

Vault operations run with the vault, the store and the entropy source as state; a failure keeps
every change made before it, as a store does.
-/

namespace Strongbox

/-- A store operation, as faults name them. -/
inductive Operation where
  | get
  | put
  | delete
  | list
  | getPublic
  deriving DecidableEq, Repr

/-- The name of an operation. -/
def Operation.name : Operation → String
  | .get => "get"
  | .put => "put"
  | .delete => "delete"
  | .list => "list"
  | .getPublic => "get_public"

/-- A failure injected into matching store calls. -/
structure Fault where
  /-- The operation that fails; none means every operation. -/
  operation : Option Operation := none
  pathPrefix : Text := Text.ofString ""
  /-- How many more calls fail; none means every call. -/
  remaining : Option Nat := none
  /-- The failure is an integrity failure, which the vault passes on as it is. -/
  integrity : Bool := false

namespace Fault

/-- Whether the fault fires on a call. -/
def fires (f : Fault) (op : Operation) (path : Text) : Bool :=
  f.operation.all (· == op) && path.startsWith f.pathPrefix && f.remaining != some 0

/-- The first fault that fires on a call, and the faults after it fired. -/
def fire : List Fault → Operation → Text → Option (Fault × List Fault)
  | [], _, _ => none
  | f :: fs, op, path =>
    if f.fires op path then some (f, { f with remaining := f.remaining.map (· - 1) } :: fs)
    else (fire fs op path).map fun r => (r.1, f :: r.2)

end Fault

/-- A published public key, as resolved. -/
structure KeyRecord where
  did : Text
  publicKey : ByteArray
  version : Text := Text.ofString "1"
  vaultSpace : Option Text := none

/-- A vault: its owner and settings, the session it stores through, the faults of that
session, what it holds while unlocked, and the keys it has resolved. -/
structure Vault where
  principal : Principal
  settings : Settings
  session : Session
  faults : List Fault := []
  masterKey : Option ByteArray := none
  identity : Option Keys.Identity := none
  cache : List (Text × KeyRecord) := []

namespace Vault

/-- A vault with the store it uses and the entropy it draws from. -/
structure World where
  vault : Vault
  store : Store
  entropy : Entropy

end Vault

/-- Vault operations. -/
abbrev VaultM := ExceptT Failure (StateM Vault.World)

namespace Vault

/-- Whether the vault holds its keys. -/
def isUnlocked (v : Vault) : Bool := v.masterKey.isSome && v.identity.isSome

/-- The owner's identifier. -/
def did (v : Vault) : String := v.principal.did

/-- How a vault shows itself. -/
def describe (v : Vault) : Text :=
  Text.ofString ("<DataVault " ++ v.did ++ " space=") ++ v.settings.space ++
    Text.ofString (" " ++ (if v.isUnlocked then "unlocked" else "locked") ++ ">")

/-- A failure or a value, as a vault operation. -/
def liftExcept {α : Type} : Except Failure α → VaultM α
  | .ok a => pure a
  | .error e => throw e

/-- Run a computation that draws, with the world's entropy. -/
def drawing {α : Type} (m : Drawing α) : VaultM α := do
  let w ← get
  let (r, e) := m.run.run w.entropy
  set { w with entropy := e }
  liftExcept r

/-- The vault's state. -/
def current : VaultM Vault := return (← get).vault

/-- Change the vault's state. -/
def update (f : Vault → Vault) : VaultM Unit := modify fun w => { w with vault := f w.vault }

/-- The master key and identity, or the failure of a locked vault. -/
def requireUnlocked : VaultM (ByteArray × Keys.Identity) := do
  let v ← current
  match v.masterKey, v.identity with
  | some k, some i => pure (k, i)
  | _, _ => throw .locked

/-! ## Store calls -/

/-- Meet the faults of a call: the first that fires uses one of its calls and fails it. -/
def meetFaults (op : Operation) (path : Text) : VaultM Unit := do
  match Fault.fire (← current).faults op path with
  | none => pure ()
  | some (f, fs) =>
    update fun v => { v with faults := fs }
    throw (if f.integrity then .injectedIntegrity else .storage op.name path)

/-- Read a path of the vault's space, or of another. -/
def storeGet (path : Text) (space : Option Text := none) : VaultM (Option Stored) := do
  meetFaults .get path
  let w ← get
  let (r, st) := w.vault.session.get w.store path space
  set { w with store := st }
  pure r

/-- Write a path. -/
def storePut (path : Text) (data : Data) (metadata : List (Value × Value) := [])
    (space : Option Text := none) : VaultM Unit := do
  meetFaults .put path
  modify fun w => { w with store := w.vault.session.put w.store path data metadata space }

/-- Remove a path. -/
def storeDelete (path : Text) (space : Option Text := none) : VaultM Unit := do
  meetFaults .delete path
  modify fun w => { w with store := w.vault.session.delete w.store path space }

/-- The paths under a prefix, the prefix removed. -/
def storeList (pathPrefix : Text) : VaultM (List Text) := do
  meetFaults .list pathPrefix
  let w ← get
  let (r, st) := w.vault.session.list w.store pathPrefix none true
  set { w with store := st }
  pure r

/-- Read a path of a public space. -/
def storeGetPublic (space path : Text) : VaultM (Option Stored) := do
  meetFaults .getPublic path
  return Session.getPublic (← get).store space path

end Vault

end Strongbox
