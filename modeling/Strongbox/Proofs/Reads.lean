import Strongbox.Proofs.Effects
import Strongbox.Vault.Sharing

/-!
# Operations built from reads

Many relations between worlds are kept by every step that only reads: the fault check, reads
and listings of the store, reads of public spaces and draws of entropy. `KeptByReads R` says so
of `R`, and then every operation built from such steps keeps `R`: loading and opening entries,
listing entries and grants, sealing a write or a rotation, reading the directory. Operations that
also write keep `R` when their writes do (`storeEntry`, `delete`).
-/

namespace Strongbox

namespace Vault

/-- A relation between worlds that every reading step keeps. -/
structure KeptByReads (R : WorldOrder) : Prop where
  meetFaults : ∀ op path, Stays R (meetFaults op path)
  storeGet : ∀ path space, Stays R (storeGet path space)
  storeList : ∀ pathPrefix, Stays R (storeList pathPrefix)
  storeGetPublic : ∀ space path, Stays R (storeGetPublic space path)
  drawing : ∀ {α : Type} (m : Drawing α), Stays R (drawing m)

/-- A store call whose failures are kept as results keeps what the call keeps. -/
theorem Stays.attempt {R : WorldOrder} {m : VaultM Unit} (hm : Stays R m) :
    Stays R (Vault.attempt m) := by
  unfold Vault.attempt
  refine Stays.tryCatch (hm.bind fun _ => Stays.pure _) fun e => ?_
  split
  · exact Stays.pure _
  · exact Stays.throw _

/-- Storing an entry's records keeps what writing each record keeps. -/
theorem Stays.storeEntry {R : WorldOrder} {key : Text}
    (hkeys : ∀ data metadata, Stays R (storePut (keysPrefix ++ key) data metadata none))
    (hvalues : ∀ data metadata, Stays R (storePut (valuesPrefix ++ key) data metadata none))
    (blob : KeyBlob) (e : Envelope) : Stays R (Vault.storeEntry key blob e) := by
  unfold Vault.storeEntry
  refine (Stays.liftExcept _).bind fun _ => (Stays.attempt (hkeys _ _)).bind
    fun first => (Stays.liftExcept _).bind fun _ => (Stays.attempt (hvalues _ _)).bind
      fun second => ?_
  split
  · exact Stays.throw _
  · exact Stays.throw _
  · exact Stays.pure _

namespace KeptByReads

variable {R : WorldOrder} (h : KeptByReads R)
include h

theorem loadKeyBlob (key : Text) : Stays R (Vault.loadKeyBlob key) := by
  unfold Vault.loadKeyBlob
  refine (h.storeGet _ _).bind fun r => ?_
  cases r with
  | none => exact Stays.throw _
  | some s => exact Stays.liftExcept _

theorem loadEnvelope (key : Text) (space : Option Text) : Stays R (Vault.loadEnvelope key space) := by
  unfold Vault.loadEnvelope
  refine (h.storeGet _ _).bind fun r => ?_
  cases r with
  | none => exact Stays.throw _
  | some s => exact Stays.liftExcept _

theorem readPair (master : ByteArray) (key : Text) : Stays R (Vault.readPair master key) :=
  (h.loadKeyBlob key).bind fun _ => (Stays.liftExcept _).bind fun _ =>
    (h.loadEnvelope key none).bind fun _ => Stays.pure _

theorem readAgreed (master : ByteArray) (key : Text) : Stays R (Vault.readAgreed master key) := by
  unfold Vault.readAgreed
  refine (h.readPair master key).bind fun ⟨agree, _, _, _⟩ => ?_
  cases agree
  · refine (h.readPair master key).bind fun ⟨agree, _, _, _⟩ => ?_
    cases agree
    · exact Stays.throw _
    · exact Stays.pure _
  · exact Stays.pure _

theorem getEntry (key : Value) (reading : Reading) : Stays R (Vault.getEntry key reading) :=
  Stays.requireUnlocked.bind fun _ => (Stays.liftExcept _).bind fun name =>
    (h.readAgreed _ name).bind fun _ => (Stays.liftExcept _).bind fun _ =>
      (Stays.liftExcept _).bind fun _ => Stays.pure _

theorem head (key : Value) : Stays R (Vault.head key) :=
  Stays.requireUnlocked.bind fun _ => (Stays.liftExcept _).bind fun name =>
    (h.loadEnvelope name none).bind fun _ => Stays.pure _

theorem listEntries (pathPrefix : Option Text) (removePrefix : Bool) :
    Stays R (Vault.listEntries pathPrefix removePrefix) :=
  Stays.requireUnlocked.bind fun _ => (h.storeList _).bind fun _ => Stays.pure _

theorem listGrants (key : Value) : Stays R (Vault.listGrants key) :=
  Stays.requireUnlocked.bind fun _ => (Stays.liftExcept _).bind fun _ =>
    (h.storeList _).bind fun _ => Stays.pure _

theorem keptKey (master : ByteArray) (key : Text) (rotation : Rotation) :
    Stays R (Vault.keptKey master key rotation) := by
  cases rotation with
  | perKey =>
    refine Stays.tryCatch ((h.loadKeyBlob key).bind fun _ =>
      (Stays.liftExcept _).bind fun _ => Stays.pure _) fun e => ?_
    split
    · exact Stays.pure _
    · exact Stays.throw _
  | perWrite => exact Stays.pure _

theorem entryKeyOf (kept : Option ByteArray) : Stays R (Vault.entryKeyOf kept) := by
  cases kept with
  | some k => exact Stays.pure _
  | none => exact h.drawing _

/-- Everything a write does before it stores its records. -/
theorem sealEntry (key value : Value) (contentType : Option Text)
    (custom : List (Value × Value)) (writing : Writing) :
    Stays R (Vault.sealEntry key value contentType custom writing) :=
  Stays.requireUnlocked.bind fun _ => (Stays.liftExcept _).bind fun _ =>
    Stays.current.bind fun _ => (Stays.liftExcept _).bind fun _ =>
      (h.keptKey _ _ _).bind fun kept => (h.entryKeyOf kept).bind fun _ =>
        (h.drawing _).bind fun _ => (h.drawing _).bind fun _ => Stays.pure _

/-- Everything a rotation does before it stores the entry's records again. -/
theorem resealEntry (key : Text) (cipher : Aead) : Stays R (Vault.resealEntry key cipher) :=
  Stays.requireUnlocked.bind fun _ => (h.loadKeyBlob key).bind fun _ =>
    (h.loadEnvelope key none).bind fun _ => (Stays.liftExcept _).bind fun _ =>
      (Stays.liftExcept _).bind fun _ => (h.drawing _).bind fun _ =>
        (Stays.liftExcept _).bind fun _ => (h.drawing _).bind fun _ =>
          (h.drawing _).bind fun _ => Stays.pure _

theorem readText (space path : String) : Stays R (Vault.readText space path) := by
  unfold Vault.readText
  refine (h.storeGetPublic _ _).bind fun r => ?_
  cases r with
  | none => exact Stays.pure _
  | some s =>
    dsimp only
    split <;> exact Stays.pure _

/-- Deleting an entry keeps what erasing a path keeps: its grants are listed by reading. -/
theorem delete (herase : ∀ path space, Stays R (storeDelete path space)) (key : Value) :
    Stays R (Vault.delete key) := by
  unfold Vault.delete
  refine Stays.requireUnlocked.bind fun _ => (Stays.liftExcept _).bind fun name => ?_
  refine (h.listGrants key).bind fun grantees => ?_
  refine (Stays.forIn fun r _ => (herase _ _).bind fun _ => Stays.pure _).bind fun _ => ?_
  exact (herase _ _).bind fun _ => herase _ _

end KeptByReads

end Vault

end Strongbox
