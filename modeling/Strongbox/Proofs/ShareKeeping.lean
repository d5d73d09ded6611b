import Strongbox.Proofs.Resharing
import Strongbox.Proofs.LockState

/-!
# Every call of the owner keeps a share

An owner has shared entry `k` with a recipient. Three facts about the owner's world make the
recipient read the entry as the owner does. The entries agree with the ledger of the owner's
writes (`Consistent`). The world is ready to share (`Share.Ready`). The owner's pointer to its
vault space is in the directory as publishing leaves it. Together these make `Sharing`.
`Shares` adds two facts: the recipient's key is cached, and the recipient's grant of `k` opens
to the key that `k`'s key blob wraps (`SharedKey`).

Every admissible call keeps `Sharing`. Every admissible call that spares the share keeps
`Shares`, provided the recipient's key agrees with every key the call may draw. Sparing means
no delete of `k`, no revoke of the recipient's grant of `k`, and no write of `k` under the
per-write policy. The run lemmas follow by induction on the calls. Each call draws its keys
further on in one stream (`drawsAhead`), so an agreement over the whole run splits into one
agreement per call.
-/

namespace Strongbox

namespace Vault

/-! ## Every call draws ahead -/

section Ahead

theorem ahead_update {f : Vault → Vault} (hf : ∀ v, (f v).faults = v.faults) :
    Stays drawsAhead (update f) := fun w => by
  rw [exec_update]
  exact drawsAhead_of (hf w.vault) rfl

theorem ahead_storeDelete (path : Text) (space : Option Text) :
    Stays drawsAhead (storeDelete path space) := fun w hf => by
  rw [exec_storeDelete hf]
  exact drawsAhead_of rfl rfl hf

theorem ahead_storeList (pathPrefix : Text) : Stays drawsAhead (storeList pathPrefix) :=
  fun w hf => by
    rw [exec_storeList hf]
    exact drawsAhead_of rfl rfl hf

/-- Publishing writes the directory and caches the own record; a key of the wrong size is
refused before anything is written. -/
theorem ahead_publish (p : Principal) (publicKey : ByteArray) (space : Text) :
    Stays drawsAhead (publish p publicKey (some space)) := by
  intro w hf
  by_cases hsize : publicKey.size = 32
  · rw [exec_publish hf p hsize space]
    exact drawsAhead_of rfl rfl hf
  · have hrefused : exec (publish p publicKey (some space)) w = (.error .publicKeySize, w) := by
      unfold publish
      rw [if_pos hsize]
      rfl
    rw [hrefused]
    exact drawsAhead_of rfl rfl hf

theorem ahead_lock : Stays drawsAhead lock := ahead_update fun _ => rfl

theorem ahead_unlock (signer : Signer) : Stays drawsAhead (unlock signer) := by
  unfold unlock
  refine ahead_lock.bind fun _ => Stays.current.bind fun v => ?_
  refine (Stays.liftExcept _).bind fun master => (Stays.liftExcept _).bind fun i => ?_
  refine (ahead_update ?_).bind fun _ => ?_
  · exact fun _ => rfl
  dsimp only
  split
  · exact (ahead_publish _ _ _).bind fun _ => Stays.pure _
  · exact Stays.pure _

theorem ahead_keptKey (master : ByteArray) (key : Text) (rotation : Rotation) :
    Stays drawsAhead (keptKey master key rotation) := by
  cases rotation with
  | perWrite => exact Stays.pure _
  | perKey =>
    refine Stays.tryCatch ((ahead_loadKeyBlob key).bind fun _ =>
      (Stays.liftExcept _).bind fun _ => Stays.pure _) fun e => ?_
    split
    · exact Stays.pure _
    · exact Stays.throw _

theorem ahead_entryKeyOf (kept : Option ByteArray) : Stays drawsAhead (entryKeyOf kept) := by
  cases kept with
  | some k => exact Stays.pure _
  | none => exact ahead_drawing (Drawing.Ahead.drawBytes 32)

theorem ahead_sealEntry (key value : Value) (contentType : Option Text)
    (custom : List (Value × Value)) (writing : Writing) :
    Stays drawsAhead (sealEntry key value contentType custom writing) :=
  Stays.requireUnlocked.bind fun _ => (Stays.liftExcept _).bind fun _ => Stays.current.bind
    fun _ => (Stays.liftExcept _).bind fun _ => (ahead_keptKey _ _ _).bind fun kept =>
      (ahead_entryKeyOf kept).bind fun _ => (ahead_drawing (Drawing.Ahead.wrap _ _ _)).bind
        fun _ => (ahead_drawing (Drawing.Ahead.sealResult _ _ _ _ _ _)).bind fun _ => Stays.pure _

theorem ahead_storeEntry (key : Text) (blob : KeyBlob) (e : Envelope) :
    Stays drawsAhead (storeEntry key blob e) :=
  Stays.storeEntry (fun _ _ => ahead_storePut _ _ _ _) (fun _ _ => ahead_storePut _ _ _ _) blob e

theorem ahead_readPair (master : ByteArray) (key : Text) :
    Stays drawsAhead (readPair master key) :=
  (ahead_loadKeyBlob key).bind fun _ => (Stays.liftExcept _).bind fun _ =>
    (ahead_loadEnvelope key none).bind fun _ => Stays.pure _

theorem ahead_readAgreed (master : ByteArray) (key : Text) :
    Stays drawsAhead (readAgreed master key) := by
  unfold readAgreed
  refine (ahead_readPair master key).bind fun ⟨agree, _, _, _⟩ => ?_
  cases agree
  · refine (ahead_readPair master key).bind fun ⟨agree, _, _, _⟩ => ?_
    cases agree
    · exact Stays.throw _
    · exact Stays.pure _
  · exact Stays.pure _

theorem ahead_getEntry (key : Value) (reading : Reading) :
    Stays drawsAhead (getEntry key reading) :=
  Stays.requireUnlocked.bind fun _ => (Stays.liftExcept _).bind fun name =>
    (ahead_readAgreed _ name).bind fun _ => (Stays.liftExcept _).bind fun _ =>
      (Stays.liftExcept _).bind fun _ => Stays.pure _

theorem ahead_listGrants (key : Value) : Stays drawsAhead (listGrants key) :=
  Stays.requireUnlocked.bind fun _ => (Stays.liftExcept _).bind fun _ =>
    (ahead_storeList _).bind fun _ => Stays.pure _

theorem ahead_rotate (key : Text) (grantees : List Text) (cipher : Aead) :
    Stays drawsAhead (rotate key grantees cipher) :=
  (ahead_resealEntry key cipher).bind fun _ => (ahead_storeEntry _ _ _).bind fun _ =>
    ahead_reissueAll _ _ _ _

theorem ahead_revoke (key : Value) (recipient : Text) :
    Stays drawsAhead (revoke key recipient) := by
  unfold revoke
  refine Stays.requireUnlocked.bind fun _ => (Stays.liftExcept _).bind fun _ =>
    (ahead_listGrants key).bind fun _ => Stays.current.bind fun _ => ?_
  split
  · exact Stays.throw _
  · exact (ahead_storeDelete _ _).bind fun _ => Stays.current.bind fun _ => ahead_rotate _ _ _

theorem ahead_grant (key : Value) (recipient : Text) (custom : List (Value × Value)) :
    Stays drawsAhead (grant key recipient custom) := by
  unfold grant
  refine Stays.requireUnlocked.bind fun _ => (Stays.liftExcept _).bind fun _ => ?_
  rw [resolvePublicKey_bind]
  refine (ahead_resolve _).bind fun _ => (ahead_loadKeyBlob _).bind fun _ =>
      (Stays.tryCatch (ahead_drawing (Drawing.Ahead.create _ _ _)) fun e => ?_).bind fun _ =>
        Stays.current.bind fun _ => (Stays.liftExcept _).bind fun _ =>
          (ahead_storePut _ _ _ _).bind fun _ => Stays.pure _
  split
  · exact Stays.throw _
  · exact Stays.throw _

/-- Every call of the owner's interface draws only ahead in the stream. -/
theorem ahead_call {c : VaultCall} {mk : ByteArray} {space : Text} (hc : c.Admissible mk space) :
    Stays drawsAhead c.run := by
  cases c <;> unfold VaultCall.run
  case unlock signer =>
    exact (ahead_unlock signer).bind fun _ => Stays.current.bind fun _ => Stays.pure _
  case lock => exact ahead_lock.bind fun _ => Stays.pure _
  case put key value contentType custom writing =>
    exact ((ahead_sealEntry _ _ _ _ _).bind fun _ => (ahead_storeEntry _ _ _).bind fun _ =>
      Stays.pure _).bind fun _ => Stays.pure _
  case get key reading => exact Stays.map _ (ahead_getEntry key reading)
  case head key =>
    exact (Stays.requireUnlocked.bind fun _ => (Stays.liftExcept _).bind fun _ =>
      (ahead_loadEnvelope _ _).bind fun _ => Stays.pure _).bind fun _ => Stays.pure _
  case list pathPrefix removePrefix =>
    exact Stays.map _ (Stays.requireUnlocked.bind fun _ => (ahead_storeList _).bind fun _ =>
      Stays.pure _)
  case listGrants key => exact Stays.map _ (ahead_listGrants key)
  case delete key =>
    refine (Stays.requireUnlocked.bind fun _ => (Stays.liftExcept _).bind fun _ =>
      (ahead_listGrants key).bind fun _ => ?_).bind fun _ => Stays.pure _
    exact (Stays.forIn fun _ _ => (ahead_storeDelete _ _).bind fun _ => Stays.pure _).bind
      fun _ => (ahead_storeDelete _ _).bind fun _ => ahead_storeDelete _ _
  case grant key recipient custom =>
    exact (ahead_grant key recipient custom).bind fun _ => Stays.liftExcept _
  case revoke key recipient => exact (ahead_revoke key recipient).bind fun _ => Stays.pure _
  all_goals exact hc.elim

theorem ahead_runCalls {mk : ByteArray} {space : Text} {cs : List VaultCall}
    (ha : ∀ c ∈ cs, c.Admissible mk space) (w : World) (L : Ledger) :
    drawsAhead.rel w (runCalls cs (w, L)).1 := by
  induction cs generalizing w L with
  | nil => exact drawsAhead.refl w
  | cons c cs ih =>
    exact drawsAhead.trans (ahead_call (ha c List.mem_cons_self) w)
      (ih (fun c' h => ha c' (List.mem_cons_of_mem _ h)) _ _)

end Ahead

/-! ## An unlock republishes the owner's directory -/

section Unlocking

variable {w : World}

/-- Unlocking with keys derived, where the settings do not ask to publish, holds the keys and
changes nothing else. -/
theorem exec_unlock_quiet {signer : Signer} {m : ByteArray} {i : Keys.Identity}
    (hpub : w.vault.settings.publishOnUnlock = false)
    (hm : Keys.deriveMasterKey signer w.vault.settings.space = .ok m)
    (hi : Keys.deriveIdentity signer = .ok i) :
    exec (unlock signer) w = (.ok i.publicKey,
      { w with vault := { w.vault with masterKey := some m, identity := some i } }) := by
  unfold unlock
  rw [exec_bind_ok (exec_lock _), exec_bind_ok (exec_current _)]
  rw [exec_bind_ok (by rw [exec_liftExcept]; exact congrArg (·, _) hm),
    exec_bind_ok (by rw [exec_liftExcept]; exact congrArg (·, _) hi),
    exec_bind_ok (exec_update _ _)]
  dsimp only
  rw [if_neg (by rw [hpub]; decide), exec_pure]

/-- An unlock keeps the vault's faults, principal, settings and session. It either leaves the
cache and the store as they were, or it publishes: it caches the owner's own record and writes
the owner's directory. -/
theorem unlock_cases (hf : w.vault.faults = []) (signer : Signer) :
    (exec (unlock signer) w).2.vault.faults = w.vault.faults ∧
      (exec (unlock signer) w).2.vault.principal = w.vault.principal ∧
      (exec (unlock signer) w).2.vault.settings = w.vault.settings ∧
      (exec (unlock signer) w).2.vault.session = w.vault.session ∧
      (((exec (unlock signer) w).2.vault.cache = w.vault.cache ∧
          (exec (unlock signer) w).2.store = w.store) ∨
        ∃ publicKey, (exec (unlock signer) w).2.vault.cache = cacheInsert w.vault.cache
            (Text.ofString w.vault.principal.did)
            (Directory.ownRecord w.vault.principal publicKey w.vault.settings.space) ∧
          (exec (unlock signer) w).2.store =
            Directory.written w.store w.vault.principal publicKey w.vault.settings.space) := by
  cases hm : Keys.deriveMasterKey signer w.vault.settings.space with
  | error f =>
    rw [exec_unlock_of_master_error hm]
    exact ⟨rfl, rfl, rfl, rfl, .inl ⟨rfl, rfl⟩⟩
  | ok m =>
    cases hi : Keys.deriveIdentity signer with
    | error f =>
      rw [exec_unlock_of_identity_error hm hi]
      exact ⟨rfl, rfl, rfl, rfl, .inl ⟨rfl, rfl⟩⟩
    | ok i =>
      cases hpub : w.vault.settings.publishOnUnlock with
      | false =>
        rw [exec_unlock_quiet hpub hm hi]
        exact ⟨rfl, rfl, rfl, rfl, .inl ⟨rfl, rfl⟩⟩
      | true =>
        rw [exec_unlock_publishing hf hpub hm hi]
        exact ⟨rfl, rfl, rfl, rfl, .inr ⟨i.publicKey, rfl, rfl⟩⟩

end Unlocking

end Vault

/-! ## What every call keeps of a share -/

namespace Principal

/-- Principals with one identifier have one public space. -/
theorem publicSpaceId_eq_of_did_eq {p q : Principal} (h : p.did = q.did) :
    p.publicSpaceId = q.publicSpaceId := by
  rw [did_eq_account, did_eq_account] at h
  have hacc : p.account.toList = q.account.toList := by
    simpa using congrArg String.toList h
  rw [publicSpaceId_eq_account, publicSpaceId_eq_account, String.toList_inj.mp hacc]

end Principal

namespace VaultCall

open Vault

/-- The paths a call leaves alone, by what it writes: the records of the entry it writes, the
records and grants of the entry it deletes or rotates, the grant it writes. An unlock writes only
the directory. -/
def Leaves (P : Text → Prop) : VaultCall → Prop
  | .put key .. => ∀ name, EntryName.ofValue key = .ok name →
    ¬ P (keysPrefix ++ name) ∧ ¬ P (valuesPrefix ++ name)
  | .delete key | .revoke key _ => ∀ name, EntryName.ofValue key = .ok name → FreeEntry P name
  | .grant key g _ => ∀ name, EntryName.ofValue key = .ok name → 47 ∉ g.points →
    ¬ P (Grant.path g name)
  | _ => True

theorem leaves_nothing (c : VaultCall) : c.Leaves fun _ => False := by
  cases c <;> simp [Leaves, FreeEntry]

end VaultCall

namespace Vault

namespace Share

/-- The owner of a share is not its recipient. -/
theorem owner_did_ne {s : Share} (hs : s.Valid) : Text.ofString s.owner.did ≠ s.did := fun h =>
  hs.spaces (Principal.publicSpaceId_eq_of_did_eq (Text.ofString_inj.mp h))

/-- The directory points to the owner's vault space as publishing leaves it. -/
def Pointed (s : Share) (st : Store) : Prop :=
  st.find? (Text.ofString s.owner.publicSpaceId) (Text.ofString Directory.spacePath) =
    Directory.spacePointer s.owner s.settings.space

end Share

/-- What one call of the owner keeps of a share, unlocks included: a world ready to share stays
ready, keeps the recipient's key cached once it is and the directory's pointer to the owner's
vault space, and keeps every record at the paths `P` off the directory. -/
def KeepsSharing (s : Share) (P : Text → Prop) (w w' : World) : Prop :=
  s.Ready w → s.Ready w' ∧
    ((w.vault.cache.lookup s.did).isSome → (w'.vault.cache.lookup s.did).isSome) ∧
    (s.Pointed w.store → s.Pointed w'.store) ∧
    ∀ m q, q.points.head? ≠ some 46 → P q → w'.store.find? m q = w.store.find? m q

section Keeping

variable {s : Share} {P : Text → Prop} {w : World}

theorem keepsSharing_of_keepsShare {w' : World} (h : (keepsShare s P).rel w w') :
    KeepsSharing s P w w' := by
  intro hr
  obtain ⟨hr', hcached, hst⟩ := h hr
  refine ⟨hr', hcached, fun hp => ?_, fun m q _ hq => hst m q (.inr hq)⟩
  unfold Share.Pointed
  rw [hst _ _ (.inl Directory.head_spacePath)]
  exact hp

/-- An unlock keeps a share: it writes only the owner's directory, the pointer as it was, and
caches only the owner's own record. -/
theorem keepsSharing_unlock (hs : s.Valid) (signer : Signer) :
    KeepsSharing s P w (exec (unlock signer) w).2 := by
  intro hr
  obtain ⟨hf, hp, hset, hses, hrest⟩ := unlock_cases hr.faults signer
  have hne : Text.ofString s.recipient.publicSpaceId ≠ Text.ofString s.owner.publicSpaceId :=
    fun h => hs.spaces (Text.ofString_inj.mp h).symm
  rcases hrest with ⟨hc, hst⟩ | ⟨publicKey, hc, hst⟩
  · refine ⟨⟨?_, ?_, ?_, ?_, ?_, ?_, ?_⟩, ?_, ?_, fun m q _ _ => by rw [hst]⟩
    · rw [hf]; exact hr.faults
    · rw [hp]; exact hr.principal
    · rw [hset]; exact hr.settings
    · rw [hses]; exact hr.session
    · rw [hst]; exact hr.published
    · rw [hc]; exact hr.names
    · rw [hc]; exact hr.recipientKey
    · rw [hc]; exact id
    · unfold Share.Pointed
      rw [hst]
      exact id
  -- the owner's own record is cached under the owner's identifier, which is not the recipient's
  have hlookup : ∀ d, d ≠ Text.ofString s.owner.did →
      (exec (unlock signer) w).2.vault.cache.lookup d = w.vault.cache.lookup d := by
    intro d hd
    rw [hc, lookup_cacheInsert, hr.principal, if_neg hd]
  have hdid := Share.owner_did_ne hs
  refine ⟨⟨?_, ?_, ?_, ?_, ?_, fun d r hd => ?_, fun r hd => ?_⟩, ?_, fun _ => ?_,
    fun m q hq _ => ?_⟩
  · rw [hf]; exact hr.faults
  · rw [hp]; exact hr.principal
  · rw [hset]; exact hr.settings
  · rw [hses]; exact hr.session
  · rw [hst, hr.principal, Directory.find?_written_of_ne (.inl hne)]
    exact hr.published
  · by_cases hd' : d = Text.ofString s.owner.did
    · rw [hd']
      exact hs.owner
    · rw [hlookup d hd'] at hd
      exact hr.names d r hd
  · rw [hlookup s.did (Ne.symm hdid)] at hd
    exact hr.recipientKey r hd
  · rw [hlookup s.did (Ne.symm hdid)]
    exact id
  · unfold Share.Pointed
    rw [hst, Directory.find?_written, if_pos ⟨by rw [hr.principal], by rfl⟩, hr.principal,
      hr.settings]
  · rw [hst, Directory.find?_written_of_ne (.inr hq)]

/-- Every admissible call but an unlock keeps a share and the records at `P`, for `P` any paths
off what the call writes. -/
theorem share_call (hs : s.Valid) {c : VaultCall} {mk : ByteArray} {space : Text}
    (ha : c.Admissible mk space) (hP : c.Leaves P) (hu : ∀ signer, c ≠ .unlock signer) :
    Stays (keepsShare s P) c.run := by
  cases c <;> unfold VaultCall.run
  case unlock signer => exact (hu signer rfl).elim
  case lock => exact share_lock.bind fun _ => Stays.pure _
  case put key value contentType custom writing =>
    exact (share_put hP _ _ _ _).bind fun _ => Stays.pure _
  case get key reading => exact Stays.map _ (share_reads.getEntry key reading)
  case head key => exact (share_reads.head key).bind fun _ => Stays.pure _
  case list pathPrefix removePrefix => exact Stays.map _ (share_reads.listEntries _ _)
  case listGrants key => exact Stays.map _ (share_reads.listGrants key)
  case delete key => exact (share_delete hP).bind fun _ => Stays.pure _
  case grant key recipient custom =>
    exact (share_grant hs hP custom).bind fun _ => Stays.liftExcept _
  case revoke key recipient => exact (share_revoke hs recipient hP).bind fun _ => Stays.pure _
  all_goals exact ha.elim

/-- Every admissible call keeps a share, for `P` any paths off what the call writes. -/
theorem keepsSharing_call (hs : s.Valid) {c : VaultCall} {mk : ByteArray} {space : Text}
    (ha : c.Admissible mk space) (hP : c.Leaves P) : KeepsSharing s P w (exec c.run w).2 := by
  by_cases hu : ∃ signer, c = .unlock signer
  · obtain ⟨signer, rfl⟩ := hu
    rw [(exec_unlock_call signer w).1]
    exact keepsSharing_unlock hs signer
  · exact keepsSharing_of_keepsShare (share_call hs ha hP (fun signer h => hu ⟨signer, h⟩) w)

end Keeping

/-! ## The share invariants -/

/-- The paths the recipient's read of entry `k` rests on, besides the directory: the entry's key
blob and the grant of `k` to `g`. -/
def sharedPaths (k g : Text) (q : Text) : Prop := q = keysPrefix ++ k ∨ q = Grant.path g k

/-- A world of the owner's vault that shares with `s`'s recipient: its entries agree with the
ledger `L` under the master key `mk`, it is ready to share, and the directory points to the
owner's vault space. -/
structure Sharing (s : Share) (mk : ByteArray) (L : Ledger) (w : World) : Prop where
  consistent : Consistent mk s.settings.space L w
  ready : s.Ready w
  pointed : s.Pointed w.store

/-- A sharing world that shares entry `k`: the recipient's key is cached, and the recipient's
grant of `k` opens with `priv` to the key that `k`'s key blob wraps. -/
structure Shares (s : Share) (mk priv : ByteArray) (k : Text) (L : Ledger) (w : World) : Prop
    extends Sharing s mk L w where
  cached : (w.vault.cache.lookup s.did).isSome
  sharedKey : SharedKey mk priv s.settings.space s.did k w.store

end Vault

namespace VaultCall

/-- A call that spares the share of entry `k` with `g`: it deletes not `k`, revokes not `g`'s
grant of `k`, and writes `k` only under the per-key policy, which keeps the entry key. -/
def Spares (k g : Text) (rotation : Rotation) : VaultCall → Prop
  | .put key .. => EntryName.ofValue key = .ok k → rotation = .perKey
  | .delete key => EntryName.ofValue key ≠ .ok k
  | .revoke key g' => EntryName.ofValue key = .ok k → g' ≠ g
  | _ => True

end VaultCall

namespace Vault

section Invariants

variable {s : Share} {mk priv : ByteArray} {k : Text} {L : Ledger} {w : World}

/-- The step lemma of `Sharing`: every admissible call keeps it. -/
theorem Sharing.step (hs : s.Valid) (h : Sharing s mk L w) {c : VaultCall}
    (ha : c.Admissible mk s.settings.space) :
    Sharing s mk (L.after c (exec c.run w).1) (exec c.run w).2 := by
  obtain ⟨hr, -, hp, -⟩ := keepsSharing_call hs ha (VaultCall.leaves_nothing c) h.ready
  exact ⟨h.consistent.step ha, hr, hp h.pointed⟩

/-- The run lemma of `Sharing`. -/
theorem Sharing.run (hs : s.Valid) (h : Sharing s mk L w) {cs : List VaultCall}
    (ha : ∀ c ∈ cs, c.Admissible mk s.settings.space) :
    Sharing s mk (runCalls cs (w, L)).2 (runCalls cs (w, L)).1 := by
  induction cs generalizing w L with
  | nil => exact h
  | cons c cs ih =>
    exact ih (h.step hs (ha c List.mem_cons_self)) fun c' h' => ha c' (List.mem_cons_of_mem _ h')

/-- Publishing a principal's directory keeps every entry. -/
theorem KeepsEntries.written (w : World) (p : Principal) (publicKey : ByteArray) (space : Text) :
    KeepsEntries w { w with store := Directory.written w.store p publicKey space } := by
  have h₁ := (KeepsEntries.write w (Text.ofString p.publicSpaceId)
    (offEntries_directory (.inl rfl)) (Directory.keyRecord publicKey)).trans
    (KeepsEntries.write _ (Text.ofString p.publicSpaceId) (offEntries_directory (.inr (.inl rfl)))
      ⟨.ofString Directory.version, []⟩)
  unfold Directory.written
  split
  · exact h₁.trans (KeepsEntries.write _ _ (offEntries_directory (.inr (.inr rfl))) _)
  · exact h₁.trans (KeepsEntries.erase _ _ (offEntries_directory (.inr (.inr rfl))))

/-- A world of the owner's vault on the way to a grant: its entries agree with the ledger, it is
ready to share, and the directory points to the owner's vault space unless the vault holds no key,
as before its first unlock. -/
structure Sharable (s : Share) (mk : ByteArray) (L : Ledger) (w : World) : Prop where
  consistent : Consistent mk s.settings.space L w
  ready : s.Ready w
  pointedOrLocked : s.Pointed w.store ∨ w.vault.masterKey = none

/-- A vault holding no key holds none after any call but an unlock. -/
theorem masterKey_none_of_call {c : VaultCall} (hu : ∀ signer, c ≠ .unlock signer)
    (h : w.vault.masterKey = none) : (exec c.run w).2.vault.masterKey = none := by
  have hsec := congrArg Prod.fst (secrets_step w c).2
  simp only [secrets] at hsec
  rw [hsec]
  cases c <;> simp only [secretsAfter, h]
  exact (hu _ rfl).elim

/-- The step lemma of `Sharable`: every admissible call keeps it, when the owner publishes on
unlocking. -/
theorem Sharable.step (hs : s.Valid) (hpub : s.settings.publishOnUnlock = true)
    (h : Sharable s mk L w) {c : VaultCall} (ha : c.Admissible mk s.settings.space) :
    Sharable s mk (L.after c (exec c.run w).1) (exec c.run w).2 := by
  obtain ⟨hr, -, hp, -⟩ := keepsSharing_call hs ha (VaultCall.leaves_nothing c) h.ready
  refine ⟨h.consistent.step ha, hr, ?_⟩
  rcases h.pointedOrLocked with hpt | hlocked
  · exact .inl (hp hpt)
  -- a vault that holds no key comes to hold one only by unlocking, which publishes the pointer
  by_cases hu : ∃ signer, c = .unlock signer
  · obtain ⟨signer, rfl⟩ := hu
    rw [(exec_unlock_call signer w).1]
    cases hm : Keys.deriveMasterKey signer w.vault.settings.space with
    | error f =>
      rw [exec_unlock_of_master_error hm]
      exact .inr rfl
    | ok m =>
      cases hi : Keys.deriveIdentity signer with
      | error f =>
        rw [exec_unlock_of_identity_error hm hi]
        exact .inr rfl
      | ok i =>
        left
        unfold Share.Pointed
        rw [exec_unlock_publishing h.ready.faults (by rw [h.ready.settings]; exact hpub) hm hi]
        dsimp only
        rw [Directory.find?_written, if_pos ⟨by rw [h.ready.principal], rfl⟩, h.ready.principal,
          h.ready.settings]
  · exact .inr (masterKey_none_of_call (fun signer he => hu ⟨signer, he⟩) hlocked)

/-- The run lemma of `Sharable`. -/
theorem Sharable.run (hs : s.Valid) (hpub : s.settings.publishOnUnlock = true)
    (h : Sharable s mk L w) {cs : List VaultCall} (ha : ∀ c ∈ cs, c.Admissible mk s.settings.space) :
    Sharable s mk (runCalls cs (w, L)).2 (runCalls cs (w, L)).1 := by
  induction cs generalizing w L with
  | nil => exact h
  | cons c cs ih =>
    exact ih (h.step hs hpub (ha c List.mem_cons_self)) fun c' h' =>
      ha c' (List.mem_cons_of_mem _ h')

/-- The recipient publishing its key, whenever it does, keeps the owner's world sharable. -/
theorem Sharable.recipient_publishes (hs : s.Valid) (h : Sharable s mk L w) (space : Text) :
    Sharable s mk L
      { w with store := Directory.written w.store s.recipient s.recipientKey space } := by
  have hne : Text.ofString s.owner.publicSpaceId ≠ Text.ofString s.recipient.publicSpaceId :=
    fun he => hs.spaces (Text.ofString_inj.mp he)
  refine ⟨h.consistent.of_keeps (KeepsEntries.written _ _ _ _), ⟨h.ready.faults, h.ready.principal,
    h.ready.settings, h.ready.session, fun r hr => ?_, h.ready.names, h.ready.recipientKey⟩, ?_⟩
  · rw [Directory.find?_written_key, Option.some.injEq] at hr
    exact hr.symm
  · unfold Share.Pointed
    rw [Directory.find?_written_of_ne (.inl hne)]
    exact h.pointedOrLocked

/-- A sharable world in which the owner holds a key shares. -/
theorem Sharable.sharing (h : Sharable s mk L w) (hu : w.vault.isUnlocked = true) :
    Sharing s mk L w := by
  refine ⟨h.consistent, h.ready, h.pointedOrLocked.resolve_right fun hm => ?_⟩
  simp [Vault.isUnlocked, hm] at hu

/-- The entries other than `k` are off the paths the recipient's read of `k` rests on. -/
theorem freeEntry_sharedPaths (hs : s.Valid) {name : Text} (hne : name ≠ k) :
    FreeEntry (sharedPaths k s.did) name := by
  refine ⟨?_, ?_, fun g hg => ?_⟩
  · rintro (he | he)
    · exact hne (keys_inj.mp he)
    · exact (offEntries_grantPath s.did k name).1 he.symm
  · rintro (he | he)
    · exact keys_ne_values k name he.symm
    · exact (offEntries_grantPath s.did k name).2 he.symm
  · rintro (he | he)
    · exact (offEntries_grantPath g name k).1 he
    · exact hne (Grant.path_inj hg (Share.slash_not_mem_did hs) he).2

/-- A grant call leaves the world its grant leaves, and succeeds only where the grant does. -/
theorem exec_grant_call (key : Value) (g : Text) (custom : List (Value × Value)) (w : World) :
    (exec (VaultCall.grant key g custom).run w).2 = (exec (grant key g custom) w).2 ∧
      ∀ a, (exec (VaultCall.grant key g custom).run w).1 = .ok a →
        ∃ record, (exec (grant key g custom) w).1 = .ok record := by
  refine ⟨by rw [VaultCall.run, exec_bind_snd _ fun _ _ => by rw [exec_liftExcept]],
    fun a ha => ?_⟩
  rw [VaultCall.run] at ha
  rcases hres : exec (grant key g custom) w with ⟨r, w'⟩
  rw [exec_bind, hres] at ha
  cases r with
  | ok record => exact ⟨record, rfl⟩
  | error f => cases ha

/-- A call that leaves the shared paths keeps the recipient's grant opening to the entry's key. -/
theorem Shares.sharedKey_of_leaves (hs : s.Valid) (h : Shares s mk priv k L w) {c : VaultCall}
    (ha : c.Admissible mk s.settings.space) (hP : c.Leaves (sharedPaths k s.did)) :
    SharedKey mk priv s.settings.space s.did k (exec c.run w).2.store := by
  obtain ⟨-, -, -, hst⟩ := keepsSharing_call hs ha hP h.ready
  exact h.sharedKey.keep (hst _ _ (by rw [head_keys]; decide) (.inl rfl))
    (hst _ _ (by rw [head_grantPath]; decide) (.inr rfl))

section Sparing

variable (hs : s.Valid) (hpriv : s.recipientKey = X25519.publicKey priv)
include hs hpriv

/-- A grant of entry `k` to the recipient, again, leaves its grant opening to the entry's key:
it fails having written nothing, or it seals the entry's key with the first key it draws. -/
theorem Shares.sharedKey_regrant (h : Shares s mk priv k L w) {key : Value}
    (hk : EntryName.ofValue key = .ok k) (custom : List (Value × Value))
    (hagree : ∀ n, w.entropy.used ≤ n →
      n < (exec (grant key s.did custom) w).2.entropy.used →
      X25519.Agree priv (Entropy.window w.entropy.seed n 32)) :
    SharedKey mk priv s.settings.space s.did k (exec (grant key s.did custom) w).2.store := by
  rcases hres : exec (grant key s.did custom) w with ⟨_ | record, w'⟩
  · -- a failed grant writes nothing
    have hrec := failsUnwritten_grant key s.did custom w _ (by rw [hres])
    rw [hres] at hrec
    exact h.sharedKey.keep (hrec _ _) (hrec _ _)
  rw [hres] at hagree
  have hdrawn : w.entropy.used < w'.entropy.used := by
    obtain ⟨-, -, -, -, -, -, -, -, -, -, -, -, -, -, -, -, -, he⟩ :=
      exec_grant_eq_ok h.ready.faults hres
    rw [he, Entropy.draw_used, Entropy.draw_used]
    omega
  exact sharedKey_grant h.consistent h.ready hpriv hs hk hres (hagree _ (Nat.le_refl _) hdrawn)

/-- One call that spares the share keeps the recipient's grant opening to the entry's key, when
the recipient's key agrees with every key the call draws. -/
theorem Shares.sharedKey_step (hstr : s.settings.space.IsString) (h : Shares s mk priv k L w)
    {c : VaultCall} (ha : c.Admissible mk s.settings.space)
    (hsp : c.Spares k s.did s.settings.rotation)
    (hagree : ∀ n, w.entropy.used ≤ n → n < (exec c.run w).2.entropy.used →
      X25519.Agree priv (Entropy.window w.entropy.seed n 32)) :
    SharedKey mk priv s.settings.space s.did k (exec c.run w).2.store := by
  cases c
  case put key value contentType custom writing =>
    by_cases hk : EntryName.ofValue key = .ok k
    · -- under the per-key policy a write of the shared entry keeps its entry key
      rw [VaultCall.run, exec_bind_snd _ fun _ _ => rfl]
      exact sharedKey_put h.consistent h.ready (hsp hk) hk ha.1 ha.2 writing h.sharedKey
    · refine h.sharedKey_of_leaves hs ha fun name hname => ?_
      have hfree := freeEntry_sharedPaths hs fun (he : name = k) => hk (he ▸ hname)
      exact ⟨hfree.1, hfree.2.1⟩
  case delete key =>
    exact h.sharedKey_of_leaves hs ha fun name hname =>
      freeEntry_sharedPaths hs fun he => hsp (he ▸ hname)
  case revoke key g =>
    by_cases hk : EntryName.ofValue key = .ok k
    · -- a revoke of another grantee rotates the entry and seals the recipient a fresh grant
      have hw : (exec (VaultCall.revoke key g).run w).2 = (exec (revoke key g) w).2 := by
        rw [VaultCall.run, exec_bind_snd _ fun _ _ => rfl]
      rw [hw] at hagree ⊢
      exact sharedKey_revoke h.consistent h.ready hpriv hs h.cached hstr hk (hsp hk) h.sharedKey
        hagree
    · exact h.sharedKey_of_leaves hs ha fun name hname =>
        freeEntry_sharedPaths hs fun he => hk (he ▸ hname)
  case grant key g custom =>
    by_cases hg : EntryName.ofValue key = .ok k ∧ g = s.did
    · obtain ⟨hk, rfl⟩ := hg
      rw [(exec_grant_call key s.did custom w).1] at hagree ⊢
      exact h.sharedKey_regrant hs hpriv hk custom hagree
    · refine h.sharedKey_of_leaves hs ha fun name hname hslash => ?_
      rintro (he | he)
      · exact (offEntries_grantPath g name k).1 he
      · obtain ⟨rfl, rfl⟩ := Grant.path_inj hslash (Share.slash_not_mem_did hs) he
        exact hg ⟨hname, rfl⟩
  all_goals exact h.sharedKey_of_leaves hs ha trivial

/-- The step lemma of `Shares`: a call that spares the share keeps it, when the recipient's key
agrees with every key the call draws. -/
theorem Shares.step (hstr : s.settings.space.IsString) (h : Shares s mk priv k L w)
    {c : VaultCall} (ha : c.Admissible mk s.settings.space)
    (hsp : c.Spares k s.did s.settings.rotation)
    (hagree : ∀ n, w.entropy.used ≤ n → n < (exec c.run w).2.entropy.used →
      X25519.Agree priv (Entropy.window w.entropy.seed n 32)) :
    Shares s mk priv k (L.after c (exec c.run w).1) (exec c.run w).2 := by
  obtain ⟨-, hcached, -, -⟩ := keepsSharing_call hs ha (VaultCall.leaves_nothing c) h.ready
  exact ⟨h.toSharing.step hs ha, hcached h.cached, h.sharedKey_step hs hpriv hstr ha hsp hagree⟩

/-- The run lemma of `Shares`. Each call draws further on in one stream, so an agreement over
the keys the whole run draws gives one over the keys of each call. -/
theorem Shares.run (hstr : s.settings.space.IsString) (h : Shares s mk priv k L w)
    {cs : List VaultCall}
    (ha : ∀ c ∈ cs, c.Admissible mk s.settings.space ∧ c.Spares k s.did s.settings.rotation)
    (hagree : ∀ n, w.entropy.used ≤ n → n < (runCalls cs (w, L)).1.entropy.used →
      X25519.Agree priv (Entropy.window w.entropy.seed n 32)) :
    Shares s mk priv k (runCalls cs (w, L)).2 (runCalls cs (w, L)).1 := by
  induction cs generalizing w L with
  | nil => exact h
  | cons c cs ih =>
    have hc := ha c List.mem_cons_self
    have hrest : ∀ c' ∈ cs, c'.Admissible mk s.settings.space ∧
        c'.Spares k s.did s.settings.rotation := fun c' h' => ha c' (List.mem_cons_of_mem _ h')
    -- the call draws from where the run starts, and the rest from where the call stops
    have hcall := ahead_call hc.1 w h.consistent.faults
    have hlater := ahead_runCalls (fun c' h' => (hrest c' h').1) (exec c.run w).2
      (L.after c (exec c.run w).1) hcall.1
    refine ih (h.step hs hpriv hstr hc.1 hc.2 fun n h₁ h₂ => hagree n h₁ ?_) hrest
      fun n h₁ h₂ => ?_
    · exact Nat.lt_of_lt_of_le h₂ hlater.2.2
    · rw [hcall.2.1]
      exact hagree n (Nat.le_trans hcall.2.2 h₁) h₂

/-- A grant of entry `k` to the recipient that succeeds makes a sharing world share `k`, when
the recipient's key agrees with the first key the grant draws. -/
theorem Sharing.shares_of_grant (h : Sharing s mk L w) {key : Value}
    (hk : EntryName.ofValue key = .ok k)
    {custom : List (Value × Value)} {a : Answer}
    (hok : (exec (VaultCall.grant key s.did custom).run w).1 = .ok a)
    (hagree : X25519.Agree priv (w.entropy.draw 32).1) :
    Shares s mk priv k (L.after (.grant key s.did custom) (.ok a))
      (exec (VaultCall.grant key s.did custom).run w).2 := by
  have hsh := h.step hs (c := .grant key s.did custom) trivial
  rw [hok] at hsh
  obtain ⟨hw, hsucc⟩ := exec_grant_call key s.did custom w
  obtain ⟨record, hrec⟩ := hsucc a hok
  rcases hres : exec (grant key s.did custom) w with ⟨r, w'⟩
  rw [hres] at hrec hw
  cases hrec
  obtain ⟨-, -, r, -, -, -, -, -, -, -, hcr, -⟩ := exec_grant_eq_ok h.ready.faults hres
  refine ⟨hsh, ?_, ?_⟩
  · rw [hw, hcr]
    rfl
  · rw [hw]
    exact sharedKey_grant h.consistent h.ready hpriv hs hk hres hagree

end Sparing

end Invariants

end Vault

end Strongbox
