import Strongbox.Proofs.Reads
import Strongbox.Scenario.Vaults

/-!
# The lock state of a vault

A vault holds its owner's secrets, the master key and the encryption identity, only between an
unlock that derived both and the next lock or sign-out. Unlocking first drops what the vault
held, then derives the two keys and holds them, and only then publishes the public key: a
failure to derive leaves the vault holding nothing, a failure to publish leaves it unlocked.
No other call changes the secrets or the settings, and each operation on entries or grants
checks the keys first, so on a locked vault it fails before it calls the store or draws.
-/

namespace Strongbox

namespace Vault

/-- What a vault holds of its owner's secrets: the master key and the encryption identity. -/
def secrets (v : Vault) : Option ByteArray × Option Keys.Identity := (v.masterKey, v.identity)

theorem isUnlocked_eq (v : Vault) :
    v.isUnlocked = (v.secrets.1.isSome && v.secrets.2.isSome) := rfl

/-- Worlds whose vaults have the same settings and hold the same secrets. -/
def sameSecrets : WorldOrder where
  rel w w' := w'.vault.settings = w.vault.settings ∧ w'.vault.secrets = w.vault.secrets
  refl _ := ⟨rfl, rfl⟩
  trans h₁ h₂ := ⟨h₂.1.trans h₁.1, h₂.2.trans h₁.2⟩

/-! ## Calls that keep the secrets -/

section Keeping

variable {α : Type}

theorem stays_update {f : Vault → Vault}
    (hf : ∀ v, (f v).settings = v.settings ∧ (f v).secrets = v.secrets) :
    Stays sameSecrets (update f) := by
  intro w
  rw [exec_update]
  exact hf w.vault

theorem stays_drawing (m : Drawing α) : Stays sameSecrets (drawing m) := by
  intro w
  rw [exec_drawing]
  exact ⟨rfl, rfl⟩

theorem stays_meetFaults (op : Operation) (path : Text) : Stays sameSecrets (meetFaults op path) := by
  unfold meetFaults
  refine Stays.bind Stays.current fun v => ?_
  split
  · exact Stays.pure _
  · refine Stays.bind (stays_update ?_) fun _ => Stays.throw _
    exact fun _ => ⟨rfl, rfl⟩

theorem stays_storeGet (path : Text) (space : Option Text) : Stays sameSecrets (storeGet path space) := by
  unfold storeGet
  refine (stays_meetFaults _ _).bind fun _ w => ?_
  simp only [exec_bind, exec_get, exec_set, exec_pure]
  exact ⟨rfl, rfl⟩

theorem stays_storePut (path : Text) (data : Data) (metadata : List (Value × Value))
    (space : Option Text) : Stays sameSecrets (storePut path data metadata space) := by
  unfold storePut
  refine (stays_meetFaults _ _).bind fun _ w => ?_
  rw [exec_modify]
  exact ⟨rfl, rfl⟩

theorem stays_storeDelete (path : Text) (space : Option Text) :
    Stays sameSecrets (storeDelete path space) := by
  unfold storeDelete
  refine (stays_meetFaults _ _).bind fun _ w => ?_
  rw [exec_modify]
  exact ⟨rfl, rfl⟩

theorem stays_storeList (pathPrefix : Text) : Stays sameSecrets (storeList pathPrefix) := by
  unfold storeList
  refine (stays_meetFaults _ _).bind fun _ w => ?_
  simp only [exec_bind, exec_get, exec_set, exec_pure]
  exact ⟨rfl, rfl⟩

theorem stays_storeGetPublic (space path : Text) :
    Stays sameSecrets (storeGetPublic space path) := by
  unfold storeGetPublic
  refine (stays_meetFaults _ _).bind fun _ w => ?_
  simp only [exec_bind, exec_get, exec_pure]
  exact ⟨rfl, rfl⟩

end Keeping

/-! ## Operations that keep the secrets -/

section Operations

theorem stays_checkName (key : Value) : Stays sameSecrets (checkName key) := Stays.liftExcept _

/-- Reading changes neither the secrets nor the settings. -/
theorem secrets_reads : KeptByReads sameSecrets :=
  ⟨stays_meetFaults, stays_storeGet, stays_storeList, stays_storeGetPublic, stays_drawing⟩

theorem stays_storeEntry (key : Text) (blob : KeyBlob) (e : Envelope) :
    Stays sameSecrets (storeEntry key blob e) :=
  Stays.storeEntry (fun _ _ => stays_storePut _ _ _ _) (fun _ _ => stays_storePut _ _ _ _) blob e

theorem stays_put (key value : Value) (contentType : Option Text) (custom : List (Value × Value))
    (writing : Writing) : Stays sameSecrets (put key value contentType custom writing) :=
  (secrets_reads.sealEntry key value contentType custom writing).bind fun _ =>
    (stays_storeEntry _ _ _).bind fun _ => Stays.pure _

/-- The directory's cache is the only part of the vault resolving changes. -/
theorem stays_cache {f : Vault → Vault}
    (hf : ∀ v, f v = { v with cache := (f v).cache }) : Stays sameSecrets (update f) :=
  stays_update fun v => by rw [hf v]; exact ⟨rfl, rfl⟩

theorem stays_resolve (did : Text) : Stays sameSecrets (resolve did) := by
  unfold resolve
  refine Stays.current.bind fun v => ?_
  split
  · exact Stays.pure _
  · refine (Stays.liftExcept _).bind fun p => (secrets_reads.readText _ _).bind fun _ =>
      (Stays.liftExcept _).bind fun _ => (secrets_reads.readText _ _).bind fun _ =>
        (secrets_reads.readText _ _).bind fun _ => ?_
    exact (stays_cache fun _ => rfl).bind fun _ => Stays.pure _

theorem stays_resolvePublicKey (did : Text) : Stays sameSecrets (resolvePublicKey did) :=
  (stays_resolve did).bind fun _ => Stays.pure _

theorem stays_resolveVaultSpace (did : Text) : Stays sameSecrets (resolveVaultSpace did) := by
  unfold resolveVaultSpace
  refine (Stays.liftExcept _).bind fun p => (secrets_reads.readText _ _).bind fun _ =>
    Stays.current.bind fun v => ?_
  extract_lets answer
  have hanswer : ∀ u, Stays sameSecrets (answer u) := fun _ => Stays.pure _
  split
  · split
    · exact (stays_cache fun _ => rfl).bind hanswer
    · exact hanswer ()
  · exact hanswer ()

theorem stays_forget (did : Option Text) : Stays sameSecrets (forget did) :=
  stays_cache fun _ => rfl

theorem stays_publish (p : Principal) (publicKey : ByteArray) (vaultSpace : Option Text) :
    Stays sameSecrets (publish p publicKey vaultSpace) := by
  unfold publish
  extract_lets space did record cacheIt rest
  have hcache : ∀ u, Stays sameSecrets (cacheIt u) := fun _ => stays_cache fun _ => rfl
  have hrest : ∀ u, Stays sameSecrets (rest u) := by
    intro u
    refine (stays_storePut _ _ _ _).bind fun _ => (stays_storePut _ _ _ _).bind fun _ => ?_
    split
    · split
      · exact (stays_storePut _ _ _ _).bind hcache
      · exact (stays_storeDelete _ _).bind hcache
    · exact (stays_storeDelete _ _).bind hcache
  split
  · exact (Stays.throw _).bind hrest
  · exact hrest ()

theorem stays_grant (key : Value) (recipient : Text) (custom : List (Value × Value)) :
    Stays sameSecrets (grant key recipient custom) := by
  unfold grant
  refine Stays.requireUnlocked.bind fun _ => (stays_checkName key).bind fun name =>
    (stays_resolvePublicKey recipient).bind fun _ => (secrets_reads.loadKeyBlob name).bind fun _ => ?_
  refine (Stays.tryCatch (stays_drawing _) fun e => ?_).bind fun sealed => ?_
  · split <;> exact Stays.throw _
  exact Stays.current.bind fun _ => (Stays.liftExcept _).bind fun _ =>
    (stays_storePut _ _ _ _).bind fun _ => Stays.pure _

theorem stays_reissue (key : Text) (entryKey : ByteArray) (recipient : Text) :
    Stays sameSecrets (reissue key entryKey recipient) :=
  (stays_resolvePublicKey recipient).bind fun _ => (stays_drawing _).bind fun _ =>
    Stays.current.bind fun _ => (Stays.liftExcept _).bind fun _ => stays_storePut _ _ _ _

theorem stays_reissueAll (key : Text) (entryKey : ByteArray) (grantees : List Text)
    (report : Rotation.Report) : Stays sameSecrets (reissueAll key entryKey grantees report) := by
  induction grantees generalizing report with
  | nil => exact Stays.pure _
  | cons recipient rest ih =>
    unfold reissueAll
    refine Stays.bind ?_ fun _ => ih _
    refine Stays.tryCatch ((stays_reissue key entryKey recipient).bind fun _ => Stays.pure _)
      fun f => ?_
    split
    · exact Stays.pure _
    · exact Stays.throw _

theorem stays_rotate (key : Text) (grantees : List Text) (cipher : Aead) :
    Stays sameSecrets (rotate key grantees cipher) :=
  (secrets_reads.resealEntry key cipher).bind fun _ => (stays_storeEntry _ _ _).bind fun _ =>
    stays_reissueAll _ _ _ _

theorem stays_revoke (key : Value) (recipient : Text) : Stays sameSecrets (revoke key recipient) := by
  unfold revoke
  refine Stays.requireUnlocked.bind fun _ => (stays_checkName key).bind fun name =>
    (secrets_reads.listGrants key).bind fun grantees => Stays.current.bind fun v => ?_
  split
  · exact Stays.throw _
  · exact (stays_storeDelete _ _).bind fun _ => Stays.current.bind fun _ => stays_rotate _ _ _

theorem stays_getShared (owner : Text) (key : Value) (reading : Reading) :
    Stays sameSecrets (getShared owner key reading) := by
  unfold getShared
  refine Stays.requireUnlocked.bind fun _ => (stays_checkName key).bind fun name => ?_
  refine (Stays.tryCatch (stays_resolveVaultSpace owner) fun f => ?_).bind fun space => ?_
  · split <;> exact Stays.throw _
  refine Stays.current.bind fun v => (stays_storeGet _ _).bind fun stored => ?_
  extract_lets opened
  have hopened : ∀ s, Stays sameSecrets (opened s) := fun _ =>
    (Stays.liftExcept _).bind fun _ => (Stays.liftExcept _).bind fun _ =>
      (Stays.liftExcept _).bind fun _ => (secrets_reads.loadEnvelope _ _).bind fun _ =>
        (Stays.liftExcept _).bind fun _ => (Stays.liftExcept _).bind fun _ => Stays.pure _
  split
  · exact (Stays.pure _).bind hopened
  · exact (Stays.throw _).bind hopened

end Operations

end Vault

/-! ## Deriving and publishing -/

namespace Keys

/-- The bytes of a signature fail only for text that is not Unicode or an answer that is no
signature at all. -/
theorem signatureBytes_error {v : Value} {f : Failure} (h : signatureBytes v = .error f) :
    f = .surrogateText ∨ ∃ t, f = .signatureType t := by
  cases v with
  | bytes b => cases h
  | str t =>
    simp only [signatureBytes] at h
    -- text stands for hexadecimal bytes, or else for its UTF-8
    split at h
    · cases h
    · split at h
      · cases h
      · exact .inl (Except.error.inj h).symm
  | _ => exact .inr ⟨_, (Except.error.inj h).symm⟩

/-- Asking for a signature fails as a failure to derive keys, or on text that is not Unicode. -/
theorem requestSignature_error {s : Signer} {message : Text} {f : Failure}
    (h : requestSignature s message = .error f) : f.kind = .keyDerivation ∨ f = .surrogateText := by
  unfold requestSignature at h
  split at h
  · rw [← Except.error.inj h]
    exact .inl rfl
  · split at h
    · rw [← Except.error.inj h]
      exact .inl rfl
    · split at h
      · rw [← Except.error.inj h]
        exact .inl rfl
      · -- an answer that is no signature was refused above
        rename_i _ hnot
        rcases signatureBytes_error h with hf | ⟨t, rfl⟩
        · exact .inr hf
        · exact (hnot t h).elim

theorem deriveMasterKey_error {s : Signer} {scope : Text} {f : Failure}
    (h : deriveMasterKey s scope = .error f) : f.kind = .keyDerivation ∨ f = .surrogateText := by
  unfold deriveMasterKey at h
  cases hs : requestSignature s (masterMessage scope) with
  | error e =>
    rw [hs] at h
    exact (Except.error.inj h) ▸ requestSignature_error hs
  | ok sig =>
    rw [hs] at h
    unfold masterKeyOf at h
    split at h
    · cases h
    · exact .inr (Except.error.inj h).symm

theorem deriveIdentity_error {s : Signer} {f : Failure} (h : deriveIdentity s = .error f) :
    f.kind = .keyDerivation ∨ f = .surrogateText := by
  unfold deriveIdentity at h
  cases hs : requestSignature s identityMessage with
  | error e =>
    rw [hs] at h
    exact (Except.error.inj h) ▸ requestSignature_error hs
  | ok sig => rw [hs] at h; cases h

end Keys

namespace Vault

/-- Publishing fails only on a public key of the wrong size, or as the store fails. -/
theorem failsOnly_publish (p : Principal) (publicKey : ByteArray) (vaultSpace : Option Text) :
    FailsOnly (fun f => f.IsStoreFailure ∨ f = .publicKeySize) (publish p publicKey vaultSpace) := by
  have hstore : ∀ {γ : Type} {m : VaultM γ}, FailsOnly Failure.IsStoreFailure m →
      FailsOnly (fun f => f.IsStoreFailure ∨ f = .publicKeySize) m := fun hm => hm.mono fun _ => .inl
  unfold publish
  extract_lets space did record cacheIt rest
  have hcache : ∀ u, FailsOnly (fun f => f.IsStoreFailure ∨ f = .publicKeySize) (cacheIt u) :=
    fun _ => FailsOnly.update _
  have hrest : ∀ u, FailsOnly (fun f => f.IsStoreFailure ∨ f = .publicKeySize) (rest u) := by
    intro u
    refine (hstore (failsOnly_storePut _ _ _ _)).bind fun _ =>
      (hstore (failsOnly_storePut _ _ _ _)).bind fun _ => ?_
    split
    · split
      · exact (hstore (failsOnly_storePut _ _ _ _)).bind hcache
      · exact (hstore (failsOnly_storeDelete _ _)).bind hcache
    · exact (hstore (failsOnly_storeDelete _ _)).bind hcache
  split
  · exact (FailsOnly.throw (.inr rfl)).bind hrest
  · exact hrest ()

/-- The world with the vault's secrets dropped. -/
def dropSecrets (w : World) : World :=
  { w with vault := { w.vault with masterKey := none, identity := none } }

theorem exec_lock_eq_dropSecrets (w : World) : exec lock w = (.ok (), dropSecrets w) := rfl

/-- An unlock whose master key cannot be derived fails with the derivation's failure, holding
nothing. -/
theorem exec_unlock_of_master_error {signer : Signer} {w : World} {f : Failure}
    (hm : Keys.deriveMasterKey signer w.vault.settings.space = .error f) :
    exec (unlock signer) w = (.error f, dropSecrets w) := by
  unfold unlock
  rw [exec_bind_ok (exec_lock_eq_dropSecrets w), exec_bind_ok (exec_current _)]
  exact exec_bind_error (by rw [exec_liftExcept]; exact congrArg (·, _) hm)

/-- An unlock whose identity cannot be derived fails with the derivation's failure, holding
nothing. -/
theorem exec_unlock_of_identity_error {signer : Signer} {w : World} {m : ByteArray} {f : Failure}
    (hm : Keys.deriveMasterKey signer w.vault.settings.space = .ok m)
    (hi : Keys.deriveIdentity signer = .error f) :
    exec (unlock signer) w = (.error f, dropSecrets w) := by
  unfold unlock
  rw [exec_bind_ok (exec_lock_eq_dropSecrets w), exec_bind_ok (exec_current _)]
  rw [exec_bind_ok (by rw [exec_liftExcept]; exact congrArg (·, _) hm)]
  exact exec_bind_error (by rw [exec_liftExcept]; exact congrArg (·, _) hi)

/-- An unlock that derives both keys holds them, whatever publishing does, and fails only as
publishing fails. -/
theorem unlock_of_derived {signer : Signer} {w : World} {m : ByteArray} {i : Keys.Identity}
    (hm : Keys.deriveMasterKey signer w.vault.settings.space = .ok m)
    (hi : Keys.deriveIdentity signer = .ok i) :
    (exec (unlock signer) w).2.vault.settings = w.vault.settings ∧
      (exec (unlock signer) w).2.vault.secrets = (some m, some i) ∧
      ∀ f, (exec (unlock signer) w).1 = .error f → f.IsStoreFailure ∨ f = .publicKeySize := by
  unfold unlock
  rw [exec_bind_ok (exec_lock_eq_dropSecrets w), exec_bind_ok (exec_current _)]
  rw [exec_bind_ok (by rw [exec_liftExcept]; exact congrArg (·, _) hm),
    exec_bind_ok (by rw [exec_liftExcept]; exact congrArg (·, _) hi), exec_bind_ok (exec_update _ _)]
  generalize hw₁ : { dropSecrets w with vault := { (dropSecrets w).vault with
    masterKey := some m, identity := some i } } = w₁
  have h₁ : w₁.vault.settings = w.vault.settings ∧ w₁.vault.secrets = (some m, some i) := by
    rw [← hw₁]
    exact ⟨rfl, rfl⟩
  -- publishing keeps the secrets just set, and fails only as publishing does
  have hrest : ∀ {rest : VaultM ByteArray}, Stays sameSecrets rest →
      FailsOnly (fun f => f.IsStoreFailure ∨ f = .publicKeySize) rest →
      (exec rest w₁).2.vault.settings = w.vault.settings ∧
        (exec rest w₁).2.vault.secrets = (some m, some i) ∧
        ∀ f, (exec rest w₁).1 = .error f → f.IsStoreFailure ∨ f = .publicKeySize := by
    intro rest hs hf
    obtain ⟨hs₁, hs₂⟩ := hs w₁
    exact ⟨hs₁.trans h₁.1, hs₂.trans h₁.2, hf w₁⟩
  split
  · exact hrest ((stays_publish _ _ _).bind fun _ => Stays.pure _)
      ((failsOnly_publish _ _ _).bind fun _ => FailsOnly.pure _)
  · exact hrest (Stays.pure _) (FailsOnly.pure _)

end Vault

/-! ## Calls -/

namespace VaultCall

/-- Whether a call sets or drops the vault's secrets: unlocking, locking and signing out. -/
def changesSecrets : VaultCall → Bool
  | .unlock _ | .lock | .signOut => true
  | _ => false

/-- The nine operations on entries and grants, each of which needs the vault's keys. -/
def IsDataCall : VaultCall → Prop
  | .put .. | .get .. | .getShared .. | .delete _ | .head _ | .list .. | .grant .. | .listGrants _
  | .revoke .. => True
  | _ => False

end VaultCall

namespace Vault

/-- The secrets a vault holds after a call, given those it held before: an unlock holds the keys
its signer derives for the vault's space, or none when either derivation fails; a lock or a
sign-out holds none; any other call keeps them. -/
def secretsAfter (space : Text) (held : Option ByteArray × Option Keys.Identity) :
    VaultCall → Option ByteArray × Option Keys.Identity
  | .unlock signer =>
    match Keys.deriveMasterKey signer space, Keys.deriveIdentity signer with
    | .ok m, .ok i => (some m, some i)
    | _, _ => (none, none)
  | .lock | .signOut => (none, none)
  | _ => held

/-- Calls run in turn, each from the world the last one left. -/
def runAll (cs : List VaultCall) (w : World) : World := cs.foldl (fun w c => (exec c.run w).2) w

theorem stays_call {c : VaultCall} (hc : c.changesSecrets = false) : Stays sameSecrets c.run := by
  cases c with
  | unlock | lock | signOut => cases hc
  | state => exact Stays.current.bind fun _ => Stays.pure _
  | setFaults =>
    refine Stays.bind (stays_update ?_) fun _ => Stays.pure _
    exact fun _ => ⟨rfl, rfl⟩
  | put => exact (stays_put _ _ _ _ _).bind fun _ => Stays.pure _
  | get => exact Stays.map _ (secrets_reads.getEntry _ _)
  | getShared => exact Stays.map _ (stays_getShared _ _ _)
  | delete => exact (secrets_reads.delete stays_storeDelete _).bind fun _ => Stays.pure _
  | head => exact (secrets_reads.head _).bind fun _ => Stays.pure _
  | list => exact Stays.map _ (secrets_reads.listEntries _ _)
  | grant => exact (stays_grant _ _ _).bind fun _ => Stays.liftExcept _
  | listGrants => exact Stays.map _ (secrets_reads.listGrants _)
  | revoke => exact (stays_revoke _ _).bind fun _ => Stays.pure _
  | resolvePublicKey => exact Stays.map _ (stays_resolvePublicKey _)
  | resolve => exact (stays_resolve _).bind fun _ => Stays.pure _
  | resolveVaultSpace => exact Stays.map _ (stays_resolveVaultSpace _)
  | forget => exact (stays_forget _).bind fun _ => Stays.pure _
  | publish => exact (Stays.liftExcept _).bind fun _ => (stays_publish _ _ _).bind fun _ => Stays.pure _
  | rotate =>
    exact Stays.requireUnlocked.bind fun _ => (Stays.liftExcept _).bind fun _ =>
      (stays_rotate _ _ _).bind fun _ => Stays.pure _

/-- An unlock call ends where unlocking ends, and fails as it fails. -/
theorem exec_unlock_call (signer : Signer) (w : World) :
    (exec (VaultCall.unlock signer).run w).2 = (exec (unlock signer) w).2 ∧
      ∀ f, (exec (VaultCall.unlock signer).run w).1 = .error f ↔ (exec (unlock signer) w).1 = .error f := by
  simp only [VaultCall.run]
  rw [exec_bind]
  rcases exec (unlock signer) w with ⟨r, w'⟩
  cases r with
  | ok a =>
    dsimp only
    rw [exec_bind_ok (exec_current _), exec_pure]
    exact ⟨rfl, fun f => ⟨fun h => (nomatch h), fun h => (nomatch h)⟩⟩
  | error e =>
    dsimp only
    exact ⟨rfl, fun f => ⟨fun h => by cases h; rfl, fun h => by cases h; rfl⟩⟩

/-- The step lemma: a call keeps the settings and leaves the secrets `secretsAfter` gives. -/
theorem secrets_step (w : World) (c : VaultCall) :
    (exec c.run w).2.vault.settings = w.vault.settings ∧
      (exec c.run w).2.vault.secrets = secretsAfter w.vault.settings.space w.vault.secrets c := by
  cases hc : c.changesSecrets with
  | false =>
    have hkeep := stays_call hc w
    refine ⟨hkeep.1, ?_⟩
    rw [hkeep.2]
    cases c <;> first | rfl | cases hc
  | true =>
    cases c with
    | unlock signer =>
      rw [(exec_unlock_call signer w).1]
      simp only [secretsAfter]
      cases hm : Keys.deriveMasterKey signer w.vault.settings.space with
      | error f =>
        rw [exec_unlock_of_master_error hm]
        exact ⟨rfl, rfl⟩
      | ok m =>
        cases hi : Keys.deriveIdentity signer with
        | error f =>
          rw [exec_unlock_of_identity_error hm hi]
          exact ⟨rfl, rfl⟩
        | ok i => exact ⟨(unlock_of_derived hm hi).1, (unlock_of_derived hm hi).2.1⟩
    | lock | signOut => exact ⟨rfl, rfl⟩
    | _ => cases hc

/-- The run lemma: over any run the settings stay, and the secrets are those the calls give in
turn. -/
theorem secrets_runAll (cs : List VaultCall) (w : World) :
    (runAll cs w).vault.settings = w.vault.settings ∧
      (runAll cs w).vault.secrets = cs.foldl (secretsAfter w.vault.settings.space) w.vault.secrets := by
  induction cs generalizing w with
  | nil => exact ⟨rfl, rfl⟩
  | cons c cs ih =>
    obtain ⟨hset, hsec⟩ := secrets_step w c
    obtain ⟨ih₁, ih₂⟩ := ih (exec c.run w).2
    refine ⟨ih₁.trans hset, ?_⟩
    rw [List.foldl_cons, ← hsec, ← hset]
    exact ih₂

/-- Calls that change no secrets keep them. -/
theorem foldl_secretsAfter_of_keep {space : Text} {post : List VaultCall}
    (hpost : ∀ c ∈ post, c.changesSecrets = false) (held : Option ByteArray × Option Keys.Identity) :
    post.foldl (secretsAfter space) held = held := by
  induction post generalizing held with
  | nil => rfl
  | cons c post ih =>
    rw [List.foldl_cons, ih fun c' h => hpost c' (List.mem_cons_of_mem _ h)]
    have hc := hpost c List.mem_cons_self
    cases c <;> first | rfl | cases hc

/-- A list of calls changes no secrets, or has a last call that changes them. -/
theorem last_secrets_call (cs : List VaultCall) :
    (∀ c ∈ cs, c.changesSecrets = false) ∨
      ∃ pre c post, cs = pre ++ c :: post ∧ c.changesSecrets = true ∧
        ∀ c' ∈ post, c'.changesSecrets = false := by
  induction cs with
  | nil => exact .inl fun _ h => nomatch h
  | cons c cs ih =>
    rcases ih with hall | ⟨pre, c', post, rfl, hc', hpost⟩
    · cases hc : c.changesSecrets with
      | true => exact .inr ⟨[], c, cs, rfl, hc, hall⟩
      | false =>
        exact .inl fun c' h => (List.mem_cons.mp h).elim (fun e => e ▸ hc) (hall c')
    · exact .inr ⟨c :: pre, c', post, rfl, hc', hpost⟩

/-- After a last call that changes the secrets, the vault holds what that call gives. -/
theorem foldl_secretsAfter_last {space : Text} {pre post : List VaultCall} {c : VaultCall}
    (hpost : ∀ c' ∈ post, c'.changesSecrets = false) (held : Option ByteArray × Option Keys.Identity) :
    (pre ++ c :: post).foldl (secretsAfter space) held =
      secretsAfter space (pre.foldl (secretsAfter space) held) c := by
  rw [List.foldl_append, List.foldl_cons, foldl_secretsAfter_of_keep hpost]

/-! ## Locked -/

theorem exec_requireUnlocked_locked {w : World} (h : w.vault.isUnlocked = false) :
    exec requireUnlocked w = (.error .locked, w) := by
  rw [exec_requireUnlocked]
  unfold isUnlocked at h
  cases hk : w.vault.masterKey <;> cases hi : w.vault.identity <;> simp_all

/-- On a locked vault each operation on entries or grants fails as locked before anything else:
no store call, no draw, no change. -/
theorem exec_dataCall_locked {w : World} (h : w.vault.isUnlocked = false) {c : VaultCall}
    (hc : c.IsDataCall) : exec c.run w = (.error .locked, w) := by
  have hl := exec_requireUnlocked_locked h
  cases c with
  | put => exact exec_bind_error (exec_bind_error (exec_bind_error hl))
  | get =>
    rw [VaultCall.run, exec_map, getEntry, exec_bind_error hl]
    rfl
  | getShared =>
    rw [VaultCall.run, exec_map, getShared, exec_bind_error hl]
    rfl
  | delete | head | grant | revoke => exact exec_bind_error (exec_bind_error hl)
  | list =>
    rw [VaultCall.run, exec_map, listEntries, exec_bind_error hl]
    rfl
  | listGrants =>
    rw [VaultCall.run, exec_map, listGrants, exec_bind_error hl]
    rfl
  | _ => exact hc.elim


/-! ## Runs -/

/-- A vault is unlocked after a run exactly when the last call that sets or drops its secrets
is an unlock whose signer derives both keys, or when no call did and it was unlocked before. -/
theorem isUnlocked_runAll_iff (w : World) (cs : List VaultCall) :
    (runAll cs w).vault.isUnlocked = true ↔
      (∃ pre signer post m i, cs = pre ++ .unlock signer :: post ∧
        (∀ c ∈ post, c.changesSecrets = false) ∧
        Keys.deriveMasterKey signer w.vault.settings.space = .ok m ∧
        Keys.deriveIdentity signer = .ok i) ∨
      ((∀ c ∈ cs, c.changesSecrets = false) ∧ w.vault.isUnlocked = true) := by
  rw [isUnlocked_eq, (secrets_runAll cs w).2]
  constructor
  · intro hu
    rcases last_secrets_call cs with hall | ⟨pre, c, post, rfl, hc, hpost⟩
    · rw [foldl_secretsAfter_of_keep hall] at hu
      exact .inr ⟨hall, hu⟩
    · rw [foldl_secretsAfter_last hpost] at hu
      cases c with
      | unlock signer =>
        simp only [secretsAfter] at hu
        cases hm : Keys.deriveMasterKey signer w.vault.settings.space with
        | error f => rw [hm] at hu; cases hu
        | ok m =>
          cases hi : Keys.deriveIdentity signer with
          | error f => rw [hm, hi] at hu; cases hu
          | ok i => exact .inl ⟨pre, signer, post, m, i, rfl, hpost, hm, hi⟩
      | lock | signOut => cases hu
      | _ => cases hc
  · rintro (⟨pre, signer, post, m, i, rfl, hpost, hm, hi⟩ | ⟨hall, hu⟩)
    · rw [foldl_secretsAfter_last hpost]
      simp only [secretsAfter, hm, hi]
      rfl
    · rw [foldl_secretsAfter_of_keep hall]
      exact hu

/-- After a last unlock whose signer derives both keys, the vault holds those keys. -/
theorem secrets_runAll_of_last_unlock {w : World} {pre post : List VaultCall} {signer : Signer}
    {m : ByteArray} {i : Keys.Identity} (hpost : ∀ c ∈ post, c.changesSecrets = false)
    (hm : Keys.deriveMasterKey signer w.vault.settings.space = .ok m)
    (hi : Keys.deriveIdentity signer = .ok i) :
    (runAll (pre ++ .unlock signer :: post) w).vault.masterKey = some m ∧
      (runAll (pre ++ .unlock signer :: post) w).vault.identity = some i := by
  have hsec := (secrets_runAll (pre ++ .unlock signer :: post) w).2
  rw [foldl_secretsAfter_last hpost] at hsec
  simp only [secretsAfter, hm, hi] at hsec
  exact ⟨congrArg Prod.fst hsec, congrArg Prod.snd hsec⟩

/-! ## Failed unlocks -/

/-- An unlock that fails as a key derivation holds neither key, whatever it held before. -/
theorem secrets_unlock_of_keyDerivation {signer : Signer} {w : World} {f : Failure}
    (h : (exec (unlock signer) w).1 = .error f) (hk : f.kind = .keyDerivation) :
    (exec (unlock signer) w).2.vault.secrets = (none, none) := by
  cases hm : Keys.deriveMasterKey signer w.vault.settings.space with
  | error e => rw [exec_unlock_of_master_error hm]; rfl
  | ok m =>
    cases hi : Keys.deriveIdentity signer with
    | error e => rw [exec_unlock_of_identity_error hm hi]; rfl
    | ok i =>
      -- both keys derived: the failure is publishing's, which is no key derivation
      rcases (unlock_of_derived hm hi).2.2 f h with (⟨op, path, rfl⟩ | rfl) | rfl <;> cases hk

/-- An unlock that fails on the store derived both keys, and holds them. -/
theorem isUnlocked_unlock_of_storage {signer : Signer} {w : World} {op : String} {path : Text}
    (h : (exec (unlock signer) w).1 = .error (.storage op path)) :
    (exec (unlock signer) w).2.vault.isUnlocked = true := by
  cases hm : Keys.deriveMasterKey signer w.vault.settings.space with
  | error e =>
    rw [exec_unlock_of_master_error hm, Except.error.injEq] at h
    rw [h] at hm
    rcases Keys.deriveMasterKey_error hm with hk | hk <;> cases hk
  | ok m =>
    cases hi : Keys.deriveIdentity signer with
    | error e =>
      rw [exec_unlock_of_identity_error hm hi, Except.error.injEq] at h
      rw [h] at hi
      rcases Keys.deriveIdentity_error hi with hk | hk <;> cases hk
    | ok i => rw [isUnlocked_eq, (unlock_of_derived hm hi).2.1]; rfl

/-- The lock state of a vault over any run of calls. The vault is unlocked exactly when the last
call that sets or drops its secrets is an unlock whose signer derives both keys for the vault's
space (or, with no such call, when it was unlocked to begin with), and it then holds the keys
that signer derives. An unlock that fails as a key derivation holds neither key, even when the
vault was unlocked before; one whose publication fails on the store leaves it unlocked. On a
locked vault each of the nine operations on entries and grants fails as locked and leaves the
world as it was: no store call, no draw. -/
theorem lock_state_follows_last_unlock (w : World) (cs : List VaultCall) :
    ((runAll cs w).vault.isUnlocked = true ↔
      (∃ pre signer post m i, cs = pre ++ .unlock signer :: post ∧
        (∀ c ∈ post, c.changesSecrets = false) ∧
        Keys.deriveMasterKey signer w.vault.settings.space = .ok m ∧
        Keys.deriveIdentity signer = .ok i) ∨
      ((∀ c ∈ cs, c.changesSecrets = false) ∧ w.vault.isUnlocked = true)) ∧
    (∀ pre signer post m i, cs = pre ++ .unlock signer :: post →
      (∀ c ∈ post, c.changesSecrets = false) →
      Keys.deriveMasterKey signer w.vault.settings.space = .ok m →
      Keys.deriveIdentity signer = .ok i →
      (runAll cs w).vault.masterKey = some m ∧ (runAll cs w).vault.identity = some i) ∧
    (∀ (w' : World) signer f, (exec (VaultCall.unlock signer).run w').1 = .error f →
      f.kind = .keyDerivation →
      (exec (VaultCall.unlock signer).run w').2.vault.masterKey = none ∧
        (exec (VaultCall.unlock signer).run w').2.vault.identity = none) ∧
    (∀ (w' : World) signer op path,
      (exec (VaultCall.unlock signer).run w').1 = .error (.storage op path) →
      (exec (VaultCall.unlock signer).run w').2.vault.isUnlocked = true) ∧
    (∀ (w' : World) (c : VaultCall), w'.vault.isUnlocked = false → c.IsDataCall →
      exec c.run w' = (.error .locked, w')) := by
  refine ⟨isUnlocked_runAll_iff w cs, ?_, ?_, ?_, fun w' c hl hc => exec_dataCall_locked hl hc⟩
  · rintro pre signer post m i rfl hpost hm hi
    exact secrets_runAll_of_last_unlock hpost hm hi
  · intro w' signer f h hk
    obtain ⟨hw, hf⟩ := exec_unlock_call signer w'
    have hsec := secrets_unlock_of_keyDerivation ((hf f).mp h) hk
    rw [hw]
    exact ⟨congrArg Prod.fst hsec, congrArg Prod.snd hsec⟩
  · intro w' signer op path h
    obtain ⟨hw, hf⟩ := exec_unlock_call signer w'
    rw [hw]
    exact isUnlocked_unlock_of_storage ((hf _).mp h)

/-- A new vault that is unlocked and then locked ends locked. -/
theorem lock_state_unlock_then_lock :
    let w : World := ⟨{ principal := ⟨"eip155", "1", "0xa1"⟩
                        settings := { space := Text.ofString "home" }
                        session := ⟨Text.ofString "home"⟩ }, {}, ⟨ByteArray.empty, 0⟩⟩
    let cs := [VaultCall.unlock ⟨fun _ => .ok (.bytes ⟨#[1]⟩)⟩, VaultCall.lock]
    ((runAll cs w).vault.isUnlocked = true ↔
      (∃ pre signer post m i, cs = pre ++ .unlock signer :: post ∧
        (∀ c ∈ post, c.changesSecrets = false) ∧
        Keys.deriveMasterKey signer w.vault.settings.space = .ok m ∧
        Keys.deriveIdentity signer = .ok i) ∨
      ((∀ c ∈ cs, c.changesSecrets = false) ∧ w.vault.isUnlocked = true)) :=
  (lock_state_follows_last_unlock _ _).1

end Vault

end Strongbox
