import Strongbox.Proofs.ShareKeeping
import Strongbox.Proofs.SharedDirectory

/-!
# A recipient reads what the owner shares

An owner and a recipient each run a vault over one store. Both unlock and publish their keys;
the owner grants the recipient an entry. From then on the recipient's read of the entry opens the
entry's records as the owner's read does, and gives the same answer whenever the owner is
unlocked. This holds through any further calls of the owner that spare the share (see
`VaultCall.Spares`), when the recipient's key agrees with the keys the grant and those calls
draw. An owner that locks reads nothing, while the recipient still reads the entry.
-/

namespace Strongbox

namespace Vault

/-! ## Reading a shared entry -/

section Reading

variable {w : World} (hf : w.vault.faults = [])
include hf

/-- An envelope read from a space that holds it. -/
theorem exec_loadEnvelope_at {key : Text} {space : Option Text} {vr : Stored} {e : Envelope}
    (hr : w.store.find? (w.vault.session.resolve space) (valuesPrefix ++ key) = some vr)
    (he : Envelope.load vr.data.toValue = .ok e) :
    exec (loadEnvelope key space) w =
      (.ok e, { w with store := w.store.touch (w.vault.session.resolve space) }) := by
  unfold loadEnvelope
  rw [exec_bind_ok (exec_storeGet hf _ _), hr]
  dsimp only
  rw [exec_liftExcept, he]

/-- The recipient's read of a shared entry, from an unlocked vault: the owner's pointer gives the
owner's vault space, the grant there opens with the recipient's private key to the entry key,
and the entry's envelope opens with it; the answer is the plaintext decoded as asked, with the
entry key's id. -/
theorem exec_getShared_of {m : ByteArray} {i : Keys.Identity} (hm : w.vault.masterKey = some m)
    (hi : w.vault.identity = some i) {owner : Principal}
    (hown : Principal.parse (Text.ofString owner.did) = .ok owner) {space : Text}
    (htrim : space.trim = space) (hne : space.isEmpty = false)
    (hptr : w.store.find? (Text.ofString owner.publicSpaceId) (Text.ofString Directory.spacePath) =
      Directory.spacePointer owner space)
    {key : Value} {k : Text} (hk : EntryName.ofValue key = .ok k) {ek : ByteArray}
    (hopen : OpensWith w.store space (Text.ofString w.vault.did) k i.privateKey ek)
    {vr : Stored} {e : Envelope} {p : ByteArray}
    (hvr : w.store.find? space (valuesPrefix ++ k) = some vr)
    (he : Envelope.load vr.data.toValue = .ok e) (hp : openValue ek e = .ok p) (reading : Reading) :
    (exec (getShared (Text.ofString owner.did) key reading) w).1 =
      (decodeValue p e reading).map fun v => ⟨v, e.metadata, Text.ofString (keyId ek)⟩ := by
  obtain ⟨gr, rec, blob, hgr, hrec, hblob, hek⟩ := hopen
  obtain ⟨c, hres⟩ := exec_resolveVaultSpace_of_pointer hf hown htrim hne hptr
  -- resolving the space changes only the cache, so the reads after it meet no faults either
  have hf₁ : ({ w with vault := { w.vault with cache := c } } : World).vault.faults = [] := hf
  have hsp : w.vault.session.resolve (some space) = space := by
    simp [Session.resolve, hne]
  unfold getShared
  rw [exec_bind_ok (exec_requireUnlocked_of hm hi)]
  dsimp only
  rw [exec_bind_ok (exec_checkName_of hk _), exec_bind_ok (by rw [exec_tryCatch, hres]),
    exec_bind_ok (exec_current _), exec_bind_ok (exec_storeGet hf₁ _ _)]
  dsimp only
  -- the grant is stored under the recipient's identifier, which resolving leaves alone
  have hgr' : w.store.find? space
      (Grant.path (Text.ofString ({ w.vault with cache := c } : Vault).did) k) = some gr := hgr
  rw [hsp, hgr']
  dsimp only
  rw [pure_bind, exec_bind_ok (by rw [exec_liftExcept, hrec]),
    exec_bind_ok (by rw [exec_liftExcept, hblob]), exec_bind_ok (by rw [exec_liftExcept, hek]),
    exec_bind_ok (exec_loadEnvelope_at
      (w := { w with vault := { w.vault with cache := c }, store := w.store.touch space }) hf
      (by rw [Store.find?_touch]; exact (congrArg (w.store.find? · _) hsp).trans hvr) he),
    exec_bind_ok (by rw [exec_liftExcept, hp]), exec_bind, exec_liftExcept]
  cases decodeValue p e reading <;> rfl

end Reading

section Sharing

variable {s : Share} {mk priv : ByteArray} {k : Text} {L : Ledger} {w : World}

/-- What the recipient reads of a shared entry is what the owner's records hold: the plaintext
that the entry's envelope opens to under the key its key blob wraps, decoded under that envelope,
with that key's id. The owner, whenever unlocked, reads the same, and so does the recipient, from
any unlocked vault of its own over `w`'s store. -/
theorem Shares.reads (h : Shares s mk priv k L w)
    (hown : Principal.parse (Text.ofString s.owner.did) = .ok s.owner)
    (htrim : s.settings.space.trim = s.settings.space) (hne : s.settings.space.isEmpty = false)
    {key : Value} (hk : EntryName.ofValue key = .ok k) :
    ∃ kr b ek vr e p, w.store.find? s.settings.space (keysPrefix ++ k) = some kr ∧
      KeyBlob.load kr.data.toValue = .ok b ∧ unwrap mk b = .ok ek ∧
      w.store.find? s.settings.space (valuesPrefix ++ k) = some vr ∧
      Envelope.load vr.data.toValue = .ok e ∧ openValue ek e = .ok p ∧
      (w.vault.isUnlocked = true → ∀ reading, (exec (getEntry key reading) w).1 =
          (decodeValue p e reading).map fun v => ⟨v, e.metadata, Text.ofString (keyId ek)⟩) ∧
      ∀ u : World, u.store = w.store → u.vault.faults = [] →
        u.vault.principal = s.recipient → ∀ m i, u.vault.masterKey = some m →
        u.vault.identity = some i → i.privateKey = priv →
        ∀ reading, (exec (getShared (Text.ofString s.owner.did) key reading) u).1 =
          (decodeValue p e reading).map fun v => ⟨v, e.metadata, Text.ofString (keyId ek)⟩ := by
  obtain ⟨kr, b, ek, hkr, hb, hu, hopen⟩ := h.sharedKey
  -- the key blob is present, so the ledger holds the entry, which the owner reads back
  have hL : (L k).isSome := by
    rw [← (h.consistent.entries k).keys_isSome, hkr]
    rfl
  obtain ⟨⟨p, ct⟩, hL⟩ := Option.isSome_iff_exists.mp hL
  obtain ⟨kr', vr, b', ek', e, hkr', hvr, hb', hu', -, he, -, hp, -, hget⟩ :=
    h.consistent.readsBack hL
  -- both reads open the records at the same paths, with the same entry key
  rw [hkr, Option.some.injEq] at hkr'
  subst hkr'
  rw [hb, Except.ok.injEq] at hb'
  subst hb'
  rw [hu, Except.ok.injEq] at hu'
  subst hu'
  refine ⟨kr, b, ek, vr, e, p, hkr, hb, hu, hvr, he, hp,
    fun hunl reading => hget hunl key reading hk, ?_⟩
  intro u hst hfu hpu m i hm hi hpriv reading
  have hdid : Text.ofString u.vault.did = s.did := by
    rw [Vault.did, hpu]
    rfl
  refine exec_getShared_of hfu hm hi hown htrim hne (by rw [hst]; exact h.pointed) hk ?_
    (by rw [hst]; exact hvr) he hp reading
  rw [hst, hdid, hpriv]
  exact hopen

end Sharing

end Vault

/-! ## One vault's calls in a scene -/

namespace Scene

open Vault

theorem lookup_withVault (s : Scene) (n m : String) (v : Vault) :
    (s.withVault n v).vaults.lookup m = if m = n then some v else s.vaults.lookup m :=
  Store.lookup_replaceOrAppend s.vaults n m v

theorem runSteps_nil (s : Scene) : s.runSteps [] = s := rfl

theorem runSteps_cons (s : Scene) (step : ScenarioStep) (steps : List ScenarioStep) :
    s.runSteps (step :: steps) = (step.run s).2.runSteps steps := rfl

theorem runSteps_append (s : Scene) (xs ys : List ScenarioStep) :
    s.runSteps (xs ++ ys) = (s.runSteps xs).runSteps ys :=
  List.foldl_append

/-- The scene holds the world `w` of the vault named `n`: that vault under `n`, with the scene's
store and entropy. -/
def Holds (s : Scene) (n : String) (w : World) : Prop :=
  s.vaults.lookup n = some w.vault ∧ s.store = w.store ∧ s.entropy = w.entropy

/-- The step lemma of a scene that holds a world: a call on the vault answers as the call does
from the world, and the scene then holds the world the call leaves, with the other vaults as
they were. -/
theorem Holds.call {s : Scene} {n : String} {w : World} (h : s.Holds n w) (c : VaultCall) :
    ((ScenarioStep.call n c).run s).1 = (exec c.run w).1 ∧
      ((ScenarioStep.call n c).run s).2.Holds n (exec c.run w).2 ∧
      ∀ m, m ≠ n → ((ScenarioStep.call n c).run s).2.vaults.lookup m = s.vaults.lookup m := by
  obtain ⟨hv, hst, he⟩ := h
  have hw : (⟨w.vault, s.store, s.entropy⟩ : World) = w := by
    rw [hst, he]
  rw [ScenarioStep.run, onVault_of_lookup hv, hw]
  refine ⟨rfl, ⟨?_, rfl, rfl⟩, fun m hm => ?_⟩
  · exact (lookup_withVault _ _ _ _).trans (if_pos rfl)
  · exact (lookup_withVault _ _ _ _).trans (if_neg hm)

/-- The run lemma: calls on one vault run as `runCalls` runs them from the world the scene holds,
and leave the other vaults as they were. -/
theorem Holds.runCalls {s : Scene} {n : String} {w : World} (h : s.Holds n w)
    (cs : List VaultCall) (L : Ledger) :
    (s.runSteps (cs.map (.call n))).Holds n (Vault.runCalls cs (w, L)).1 ∧
      ∀ m, m ≠ n → (s.runSteps (cs.map (.call n))).vaults.lookup m = s.vaults.lookup m := by
  induction cs generalizing s w L with
  | nil => exact ⟨h, fun _ _ => rfl⟩
  | cons c cs ih =>
    obtain ⟨-, h₁, hm₁⟩ := h.call c
    obtain ⟨h₂, hm₂⟩ := ih h₁ (L.after c (exec c.run w).1)
    exact ⟨h₂, fun m hm => (hm₂ m hm).trans (hm₁ m hm)⟩

end Scene

/-! ## An owner and a recipient -/

namespace Vault

/-- An owner and a recipient as they are made, before either unlocks: vaults of distinct
principals that parse, meeting no faults and publishing on unlock. The owner holds no key and
caches nothing, and stores through the session of its own space, a string with no blank at
either end. -/
structure FreshPair (owner recipient : Vault) : Prop where
  ownerFormed : owner.principal.WellFormed
  recipientFormed : recipient.principal.WellFormed
  distinct : owner.principal ≠ recipient.principal
  ownerFaults : owner.faults = []
  recipientFaults : recipient.faults = []
  ownerLocked : owner.masterKey = none
  ownerCache : owner.cache = []
  ownerSession : owner.session.space = owner.settings.space
  ownerPublishes : owner.settings.publishOnUnlock = true
  recipientPublishes : recipient.settings.publishOnUnlock = true
  spaceString : owner.settings.space.IsString
  spaceTrimmed : owner.settings.space.trim = owner.settings.space
  spaceNonempty : owner.settings.space.isEmpty = false

/-- The share of an owner's entries with a recipient whose public key is `key`. -/
def shareOf (owner recipient : Vault) (key : ByteArray) : Share :=
  ⟨owner.settings, owner.principal, recipient.principal, key⟩

namespace FreshPair

variable {O R : Vault} (hp : FreshPair O R)
include hp

theorem parse_owner : Principal.parse (Text.ofString O.principal.did) = .ok O.principal :=
  Principal.parse_eq_ok_iff.2 ⟨hp.ownerFormed, rfl⟩

theorem valid {key : ByteArray} (hkey : key.size = 32) : (shareOf O R key).Valid where
  recipient := Principal.parse_eq_ok_iff.2 ⟨hp.recipientFormed, rfl⟩
  owner := Principal.slash_not_mem_of_parse hp.parse_owner
  spaces h := hp.distinct
    (Principal.eq_of_publicSpaceId_eq hp.ownerFormed hp.recipientFormed (congrArg Text.ofString h))
  keySize := hkey

/-- The owner as it is made, over an empty store, is sharable, with no entry yet. -/
theorem sharable (e : Entropy) (key mk : ByteArray) :
    Sharable (shareOf O R key) mk (fun _ => none) ⟨O, {}, e⟩ := by
  have hnone : ∀ d, O.cache.lookup d = none := fun d => by
    rw [hp.ownerCache]
    rfl
  refine ⟨Consistent.fresh e hp.ownerSession hp.ownerFaults
      (by rw [hp.ownerLocked]; exact fun _ h => nomatch h),
    ⟨hp.ownerFaults, rfl, rfl, hp.ownerSession, (fun _ h => nomatch h),
      fun d r h => absurd ((hnone d).symm.trans h) (by simp),
      fun r h => absurd ((hnone _).symm.trans h) (by simp)⟩, .inr hp.ownerLocked⟩

/-- The recipient's unlock, over any store, holds the keys its signer derives and writes its
directory, drawing nothing. -/
theorem exec_unlock_recipient (st : Store) (e : Entropy) {sR : Signer} {mR : ByteArray}
    {iR : Keys.Identity} (hmR : Keys.deriveMasterKey sR R.settings.space = .ok mR)
    (hiR : Keys.deriveIdentity sR = .ok iR) :
    ∃ v, (exec (VaultCall.unlock sR).run ⟨R, st, e⟩).2 =
        ⟨v, Directory.written st R.principal iR.publicKey R.settings.space, e⟩ ∧
      v.faults = [] ∧ v.principal = R.principal ∧ v.masterKey = some mR ∧ v.identity = some iR := by
  rw [(exec_unlock_call sR _).1,
    exec_unlock_publishing (w := ⟨R, st, e⟩) hp.recipientFaults hp.recipientPublishes hmR hiR]
  exact ⟨_, rfl, hp.recipientFaults, rfl, rfl, rfl⟩

end FreshPair

theorem exec_lock_entropy (w : World) : (exec VaultCall.lock.run w).2.entropy = w.entropy := rfl


section Granting

variable {s : Share} (hs : s.Valid) {priv : ByteArray}
  (hpriv : s.recipientKey = X25519.publicKey priv)
include hs

/-- From a world that can share, once the recipient's key is published, the recipient resolves
to its key; only the cache may change. -/
theorem exec_resolve_recipient {w : World} (hr : s.Ready w)
    (hpub : w.store.find? (Text.ofString s.recipient.publicSpaceId)
      (Text.ofString Directory.keyPath) = some (Directory.keyRecord s.recipientKey)) :
    ∃ r c, r.publicKey = s.recipientKey ∧
      exec (resolve s.did) w = (.ok r, { w with vault := { w.vault with cache := c } }) := by
  cases hc : w.vault.cache.lookup s.did with
  | some r => exact ⟨r, w.vault.cache, hr.recipientKey r hc, exec_resolve_cached hc⟩
  | none =>
    obtain ⟨r, hrk, hres⟩ :=
      exec_resolve_of_published hr.faults hs.recipient hc hs.keySize hpub
    exact ⟨r, _, hrk, hres⟩

include hpriv in
/-- An unlocked owner that shares grants the recipient any entry it holds, once the recipient's
key is published, when the caller's headers are strings and the recipient's key agrees with the
first key the grant draws. -/
theorem Sharing.grant_succeeds {mk : ByteArray} {L : Ledger} {w : World} (h : Sharing s mk L w)
    (hpub : w.store.find? (Text.ofString s.recipient.publicSpaceId)
      (Text.ofString Directory.keyPath) = some (Directory.keyRecord s.recipientKey))
    (hunl : w.vault.isUnlocked = true) (hstr : s.settings.space.IsString) {key : Value} {k : Text}
    (hk : EntryName.ofValue key = .ok k) (hL : (L k).isSome) {custom : List (Value × Value)}
    (hcustom : Headers.AllStrings (Headers.ofValues custom))
    (hagree : X25519.Agree priv (w.entropy.draw 32).1) :
    ∃ a, (exec (VaultCall.grant key s.did custom).run w).1 = .ok a := by
  obtain ⟨i, hmk, hi⟩ := h.consistent.unlocked hunl
  obtain ⟨⟨p, ct⟩, hLk⟩ := Option.isSome_iff_exists.mp hL
  obtain ⟨kr, vr, b, ek, e, hkr, -, hb, hu, -⟩ := h.consistent.readsBack hLk
  rw [← h.consistent.session] at hkr
  obtain ⟨r, c, hrk, hres⟩ := exec_resolve_recipient hs h.ready hpub
  -- the recipient's key is the one its private key agrees on
  obtain ⟨shared, hx⟩ := hagree.exchange_ok
  rw [← hpriv, ← hrk] at hx
  obtain ⟨blob, hrun⟩ := @Grant.sealEntryKey_ok ek _ _ _ (hrk ▸ hs.keySize) hx
  have hspace : w.vault.settings.space.IsString := by rw [h.ready.settings]; exact hstr
  obtain ⟨json, hj⟩ := GrantRecord.toJson_build blob hspace (Text.isString_ofString _) hcustom
  obtain ⟨a, hgrant⟩ := exec_grant_of h.consistent.faults hmk hi hk hres hkr hb hu hrun hj
  exact ⟨a, by rw [hgrant]⟩

end Granting

/-- A call on entries or grants that succeeds found the vault unlocked. -/
theorem unlocked_of_dataCall_ok {w : World} {c : VaultCall} {a : Answer}
    (h : (exec c.run w).1 = .ok a) (hc : c.IsDataCall) : w.vault.isUnlocked = true := by
  cases hu : w.vault.isUnlocked
  · rw [exec_dataCall_locked hu hc] at h
    cases h
  · rfl

end Vault

/-! ## The recipient reads the shared entry -/

open Vault

namespace Scene

/-- The owner makes admissible calls, the recipient unlocks and publishes its key, and the owner
makes more admissible calls: the scene then holds a sharable world of the owner, and the
recipient's vault unlocked with the keys its signer derives. -/
theorem sharable_after_unlock {s₀ : Scene} {nO nR : String} {O R : Vault} (hn : nO ≠ nR)
    (hO : s₀.vaults.lookup nO = some O) (hR : s₀.vaults.lookup nR = some R)
    (hstore : s₀.store = {}) (hp : FreshPair O R) {sR : Signer} {mk mR : ByteArray}
    {iR : Keys.Identity} (hmR : Keys.deriveMasterKey sR R.settings.space = .ok mR)
    (hiR : Keys.deriveIdentity sR = .ok iR) {pre before : List VaultCall}
    (hcalls : ∀ c ∈ pre ++ before, c.Admissible mk O.settings.space) :
    let r₁ := runCalls pre (⟨O, {}, s₀.entropy⟩, fun _ => none)
    let r₂ := runCalls before ({ r₁.1 with
      store := Directory.written r₁.1.store R.principal iR.publicKey R.settings.space }, r₁.2)
    let s₂ := s₀.runSteps (pre.map (.call nO) ++ .call nR (.unlock sR) :: before.map (.call nO))
    s₂.Holds nO r₂.1 ∧ Sharable (shareOf O R iR.publicKey) mk r₂.2 r₂.1 ∧
      ∃ v, s₂.vaults.lookup nR = some v ∧ v.faults = [] ∧ v.principal = R.principal ∧
        v.masterKey = some mR ∧ v.identity = some iR := by
  intro r₁ r₂ s₂
  have hs := hp.valid (R := R) (Keys.size_publicKey_of_deriveIdentity hiR)
  -- the owner's calls before the recipient publishes
  have hO₀ : s₀.Holds nO ⟨O, {}, s₀.entropy⟩ := ⟨hO, hstore, rfl⟩
  obtain ⟨hO₁, hR₁⟩ := hO₀.runCalls pre (fun _ => none)
  have hsh₁ := (hp.sharable s₀.entropy iR.publicKey mk).run hs hp.ownerPublishes
    fun c hc => hcalls c (List.mem_append_left _ hc)
  -- the recipient unlocks over the store the owner's world holds, and writes its directory
  set s₁ := s₀.runSteps (pre.map (.call nO))
  have hRw : s₁.Holds nR ⟨R, r₁.1.store, r₁.1.entropy⟩ :=
    ⟨(hR₁ nR hn.symm).trans hR, hO₁.2.1, hO₁.2.2⟩
  obtain ⟨-, hR₂, hO₂⟩ := hRw.call (.unlock sR)
  obtain ⟨v, hv, hfv, hpv, hmv, hiv⟩ :=
    hp.exec_unlock_recipient r₁.1.store r₁.1.entropy hmR hiR
  rw [hv] at hR₂
  have hO₂' : ((ScenarioStep.call nR (.unlock sR)).run s₁).2.Holds nO { r₁.1 with
      store := Directory.written r₁.1.store R.principal iR.publicKey R.settings.space } :=
    ⟨(hO₂ nO hn).trans hO₁.1, hR₂.2.1, hR₂.2.2⟩
  -- the owner's calls after it
  obtain ⟨hO₃, hR₃⟩ := hO₂'.runCalls before r₁.2
  have hs₂ : s₂ = ((ScenarioStep.call nR (.unlock sR)).run s₁).2.runSteps
      (before.map (.call nO)) := by
    show s₀.runSteps _ = _
    rw [runSteps_append, runSteps_cons]
  rw [hs₂]
  exact ⟨hO₃, (hsh₁.recipient_publishes hs R.settings.space).run hs hp.ownerPublishes
      fun c hc => hcalls c (List.mem_append_right _ hc),
    v, (hR₃ nR hn.symm).trans hR₂.1, hfv, hpv, hmv, hiv⟩

/-- The owner of a world that shares grants the recipient entry `k`, and the grant succeeds; then
it makes admissible calls that spare the share. When the recipient's key agrees with the first
key the grant draws and with every key drawn after it, the scene holds a world of the owner whose
grant opens to the entry's key, and the recipient's vault as it was. -/
theorem shares_after_grant {s₂ : Scene} {nO nR : String} (hn : nO ≠ nR) {s : Share}
    (hs : s.Valid) {priv : ByteArray} (hpriv : s.recipientKey = X25519.publicKey priv)
    (hstr : s.settings.space.IsString) {mk : ByteArray} {L : Ledger} {w : World}
    (hO₂ : s₂.Holds nO w) (hsh : Sharing s mk L w) {v : Vault}
    (hR₂ : s₂.vaults.lookup nR = some v) {key : Value} {k : Text}
    (hk : EntryName.ofValue key = .ok k) (custom : List (Value × Value)) {after : List VaultCall}
    (hafter : ∀ c ∈ after, c.Admissible mk s.settings.space ∧
      c.Spares k s.did s.settings.rotation) :
    let grantStep := ScenarioStep.call nO (.grant key s.did custom)
    let s₃ := (grantStep.run s₂).2
    let s₄ := s₃.runSteps (after.map (.call nO))
    let granted := exec (VaultCall.grant key s.did custom).run w
    let r₄ := runCalls after (granted.2, L.after (.grant key s.did custom) granted.1)
    (∃ a, (grantStep.run s₂).1 = .ok a) →
    X25519.Agree priv (s₂.entropy.draw 32).1 →
    (∀ n, s₃.entropy.used ≤ n → n < s₄.entropy.used →
      X25519.Agree priv (Entropy.window s₃.entropy.seed n 32)) →
    s₄.Holds nO r₄.1 ∧ Shares s mk priv k r₄.2 r₄.1 ∧
      s₄.vaults.lookup nR = some v := by
  intro grantStep s₃ s₄ granted r₄ hgrant hagree₁ hagree₂
  -- the grant succeeds and shares the entry
  obtain ⟨hans, hO₃, hR₃⟩ := hO₂.call (.grant key s.did custom)
  obtain ⟨a, ha⟩ := hgrant
  rw [hans] at ha
  rw [hO₂.2.2] at hagree₁
  have hsh₃ := hsh.shares_of_grant hs hpriv hk ha hagree₁
  -- the calls after it spare the share
  obtain ⟨hO₄, hR₄⟩ := hO₃.runCalls after _
  rw [show s₃.entropy = _ from hO₃.2.2, show s₄.entropy = _ from hO₄.2.2] at hagree₂
  exact ⟨hO₄, hsh₃.run hs hpriv hstr hafter hagree₂,
    (hR₄ nR hn.symm).trans ((hR₃ nR hn.symm).trans hR₂)⟩

/-- In a scene that holds an owner's world whose grant opens to the entry's key, the recipient,
unlocked with the private key of that grant, reads the entry's stored plaintext decoded as asked,
with the id of the key its key blob wraps; the owner, when unlocked, gives the same answer. -/
theorem answers_of_shares {s : Share} {mk priv : ByteArray} {k : Text} {L : Ledger} {w : World}
    (h : Shares s mk priv k L w)
    (hown : Principal.parse (Text.ofString s.owner.did) = .ok s.owner)
    (htrim : s.settings.space.trim = s.settings.space) (hne : s.settings.space.isEmpty = false)
    {key : Value} (hk : EntryName.ofValue key = .ok k) {sc : Scene} {nO nR : String}
    (hO : sc.Holds nO w) {v : Vault} (hv : sc.vaults.lookup nR = some v) (hf : v.faults = [])
    (hpr : v.principal = s.recipient) {m : ByteArray} {i : Keys.Identity}
    (hm : v.masterKey = some m) (hi : v.identity = some i) (hpriv : i.privateKey = priv) :
    ∃ kr b ek vr e p, sc.store.find? s.settings.space (keysPrefix ++ k) = some kr ∧
      KeyBlob.load kr.data.toValue = .ok b ∧ unwrap mk b = .ok ek ∧
      sc.store.find? s.settings.space (valuesPrefix ++ k) = some vr ∧
      Envelope.load vr.data.toValue = .ok e ∧ openValue ek e = .ok p ∧ ∀ reading,
      ((ScenarioStep.call nR (.getShared (Text.ofString s.owner.did) key reading)).run sc).1 =
        (decodeValue p e reading).map
          (fun x => VaultCall.entryAnswer ⟨x, e.metadata, Text.ofString (keyId ek)⟩) ∧
      (w.vault.isUnlocked = true → ((ScenarioStep.call nO (.get key reading)).run sc).1 =
        (decodeValue p e reading).map
          (fun x => VaultCall.entryAnswer ⟨x, e.metadata, Text.ofString (keyId ek)⟩)) := by
  obtain ⟨kr, b, ek, vr, e, p, hkr, hb, hu, hvr, he, hp, hown, hrec⟩ := h.reads hown htrim hne hk
  have hR : sc.Holds nR ⟨v, sc.store, sc.entropy⟩ := ⟨hv, rfl, rfl⟩
  rw [← hO.2.1] at hkr hvr
  refine ⟨kr, b, ek, vr, e, p, hkr, hb, hu, hvr, he, hp, fun reading => ⟨?_, fun hunl => ?_⟩⟩
  · rw [(hR.call _).1]
    show (exec (VaultCall.entryAnswer <$> getShared _ key reading) _).1 = _
    rw [exec_map, hrec _ hO.2.1 hf hpr m i hm hi hpriv reading]
    cases decodeValue p e reading <;> rfl
  · rw [(hO.call _).1]
    show (exec (VaultCall.entryAnswer <$> getEntry key reading) w).1 = _
    rw [exec_map, hown hunl reading]
    cases decodeValue p e reading <;> rfl

end Scene

/-! ## A sample: one entry shared -/

/-- A recipient of the scheme `abc`, storing in the space `r` under the default settings. -/
def sampleRecipient : Vault :=
  { principal := ⟨"abc", "1", "y"⟩, settings := { space := Text.ofString "r" },
    session := ⟨Text.ofString "r"⟩ }

/-- Both vaults over an empty store, drawing from the stream of the empty seed. -/
def sampleScene : Scene :=
  { vaults := [("o", sampleOwner), ("r", sampleRecipient)], entropy := ⟨ByteArray.empty, 0⟩ }

def recipientSigner : Signer := ⟨fun _ => .ok (.bytes ⟨#[1, 2, 3]⟩)⟩

theorem freshPair_sample : FreshPair sampleOwner sampleRecipient where
  ownerFormed := (Principal.parse_eq_ok_iff.1 (by decide +kernel :
    Principal.parse (Text.ofString "did:pkh:abc:1:x") = .ok ⟨"abc", "1", "x"⟩)).1
  recipientFormed := (Principal.parse_eq_ok_iff.1 (by decide +kernel :
    Principal.parse (Text.ofString "did:pkh:abc:1:y") = .ok ⟨"abc", "1", "y"⟩)).1
  distinct := by simp [sampleOwner, sampleRecipient]
  ownerFaults := rfl
  recipientFaults := rfl
  ownerLocked := rfl
  ownerCache := rfl
  ownerSession := rfl
  ownerPublishes := rfl
  recipientPublishes := rfl
  spaceString := Text.isString_ofString _
  spaceTrimmed := by decide
  spaceNonempty := rfl

/-- In the sample, after the owner unlocks and writes `k` and then the recipient unlocks, the
scene holds a sharable world of the owner that is unlocked, holds `k`, has the recipient's key
published and has drawn an entry key and two nonces; the recipient's vault is unlocked with the
keys its signer derives. -/
theorem sample_sharable :
    let s₂ := sampleScene.runSteps
      (ownerWrite.map (.call "o") ++ [.call "r" (.unlock recipientSigner)])
    ∃ mk L w, Keys.deriveMasterKey ownerSigner sampleOwner.settings.space = .ok mk ∧
      s₂.Holds "o" w ∧
      Sharable (shareOf sampleOwner sampleRecipient (Keys.identityOf ⟨#[1, 2, 3]⟩).publicKey)
        mk L w ∧
      (∃ v, s₂.vaults.lookup "r" = some v ∧ v.faults = [] ∧
        v.principal = sampleRecipient.principal ∧
        (∃ mR, v.masterKey = some mR) ∧ v.identity = some (Keys.identityOf ⟨#[1, 2, 3]⟩)) ∧
      w.vault.isUnlocked = true ∧ (L (Text.ofString "k")).isSome ∧
      w.entropy = ⟨ByteArray.empty, 56⟩ ∧
      w.store.find? (Text.ofString sampleRecipient.principal.publicSpaceId)
        (Text.ofString Directory.keyPath) =
        some (Directory.keyRecord (Keys.identityOf ⟨#[1, 2, 3]⟩).publicKey) := by
  obtain ⟨mk, p, ct, hm, hmk, hi, -, -, hL, hent, -⟩ := ownerWrite_run
  obtain ⟨mR, hmR⟩ : ∃ mR,
      Keys.deriveMasterKey recipientSigner sampleRecipient.settings.space = .ok mR := ⟨_, rfl⟩
  have h := @Scene.sharable_after_unlock sampleScene "o" "r" sampleOwner sampleRecipient (by simp)
    rfl rfl rfl freshPair_sample recipientSigner mk mR _ hmR rfl ownerWrite []
    (by
      rw [List.append_nil]
      exact fun c hc => selfGrant_admissible hm c (List.mem_append_left _ hc))
  dsimp only at h
  rw [show sampleScene.entropy = ⟨ByteArray.empty, 0⟩ from rfl, runCalls_nil] at h
  dsimp only at h
  obtain ⟨hO₂, hsh₂, v, hv, hfv, hpv, hmv, hiv⟩ := h
  -- stated over any world, so that the kernel reads the vault and entropy of the owner's run off
  -- the record instead of running the calls
  have hkeep : ∀ (w : World) st, ({ w with store := st } : World).vault = w.vault ∧
      ({ w with store := st } : World).entropy = w.entropy := fun _ _ => ⟨rfl, rfl⟩
  refine ⟨mk, _, _, hm, hO₂, hsh₂, ⟨v, hv, hfv, hpv, ⟨mR, hmv⟩, hiv⟩, ?_, ?_,
    (hkeep _ _).2.trans hent, Directory.find?_written_key _ _ _ _⟩
  · rw [(hkeep _ _).1]
    simp [Vault.isUnlocked, hmk, hi]
  · rw [hL]
    rfl

/-- In the sample, the owner's grant of `k` to the recipient succeeds, and the recipient's key
agrees with the first key the grant draws. -/
theorem sample_grant_succeeds :
    let s₂ := sampleScene.runSteps
      (ownerWrite.map (.call "o") ++ [.call "r" (.unlock recipientSigner)])
    (∃ a, ((ScenarioStep.call "o" (.grant sampleKey
        (Text.ofString sampleRecipient.principal.did) [])).run s₂).1 = .ok a) ∧
      X25519.Agree (Keys.identityOf ⟨#[1, 2, 3]⟩).privateKey (s₂.entropy.draw 32).1 := by
  obtain ⟨mk, L, w, -, hs₂, hsh, -, hunl, hL, hent, hpub⟩ := sample_sharable
  have hiR : Keys.deriveIdentity recipientSigner = .ok (Keys.identityOf ⟨#[1, 2, 3]⟩) := rfl
  have hagree :
      X25519.Agree (Keys.identityOf ⟨#[1, 2, 3]⟩).privateKey (w.entropy.draw 32).1 := by
    rw [hent]
    decide +kernel
  refine ⟨?_, by rw [hs₂.2.2]; exact hagree⟩
  rw [(hs₂.call _).1]
  exact (hsh.sharing hunl).grant_succeeds
    (freshPair_sample.valid (Keys.size_publicKey_of_deriveIdentity hiR))
    (Keys.publicKey_of_deriveIdentity hiR) hpub hunl freshPair_sample.spaceString rfl hL
    (fun _ h => nomatch h) hagree

/-- Sharing an entry: an owner `O` and a recipient `R`, fresh vaults of distinct principals named
`nO` and `nR` in a scene over an empty store, make calls in any order: the owner makes any
admissible calls, the recipient unlocks with a signer that derives its keys and publishes its
key, and the owner makes more admissible calls; then the owner grants the recipient entry `k`,
and the grant succeeds; then it makes any admissible calls that spare the share. When the
recipient's key agrees with the first key the grant draws and with every key drawn after it,
the entry's records are in place: its key blob wraps, under the master key `mk` of the owner's
unlocks, a key `ek` that opens its envelope `e` to a plaintext `p`. The recipient's read of `k`,
whatever it asks for, is `p` decoded under `e`, with `e`'s headers and `ek`'s id, and whenever
the owner is unlocked its own read gives exactly the same answer. -/
theorem recipient_reads_shared_entry {s₀ : Scene} {nO nR : String} {O R : Vault} (hn : nO ≠ nR)
    (hO : s₀.vaults.lookup nO = some O) (hR : s₀.vaults.lookup nR = some R)
    (hstore : s₀.store = {}) (hp : FreshPair O R) {sR : Signer} {mk mR : ByteArray}
    {iR : Keys.Identity} (hmR : Keys.deriveMasterKey sR R.settings.space = .ok mR)
    (hiR : Keys.deriveIdentity sR = .ok iR) {pre before after : List VaultCall}
    (hcalls : ∀ c ∈ pre ++ before, c.Admissible mk O.settings.space)
    {key : Value} {k : Text} (hk : EntryName.ofValue key = .ok k) (custom : List (Value × Value))
    (hafter : ∀ c ∈ after, c.Admissible mk O.settings.space ∧
      c.Spares k (Text.ofString R.principal.did) O.settings.rotation) :
    let s₂ := s₀.runSteps
      (pre.map (.call nO) ++ .call nR (.unlock sR) :: before.map (.call nO))
    let grantStep := ScenarioStep.call nO (.grant key (Text.ofString R.principal.did) custom)
    let s₃ := (grantStep.run s₂).2
    let s₄ := s₃.runSteps (after.map (.call nO))
    (∃ a, (grantStep.run s₂).1 = .ok a) →
    X25519.Agree iR.privateKey (s₂.entropy.draw 32).1 →
    (∀ n, s₃.entropy.used ≤ n → n < s₄.entropy.used →
      X25519.Agree iR.privateKey (Entropy.window s₃.entropy.seed n 32)) →
    ∃ kr b ek vr e p, s₄.store.find? O.settings.space (keysPrefix ++ k) = some kr ∧
      KeyBlob.load kr.data.toValue = .ok b ∧ unwrap mk b = .ok ek ∧
      s₄.store.find? O.settings.space (valuesPrefix ++ k) = some vr ∧
      Envelope.load vr.data.toValue = .ok e ∧ openValue ek e = .ok p ∧ ∀ reading,
      ((ScenarioStep.call nR (.getShared (Text.ofString O.principal.did) key reading)).run s₄).1 =
        (decodeValue p e reading).map
          (fun v => VaultCall.entryAnswer ⟨v, e.metadata, Text.ofString (keyId ek)⟩) ∧
      ((s₄.vaults.lookup nO).map Vault.isUnlocked = some true →
        ((ScenarioStep.call nO (.get key reading)).run s₄).1 =
          ((ScenarioStep.call nR (.getShared (Text.ofString O.principal.did) key reading)).run s₄).1)
    := by
  intro s₂ grantStep s₃ s₄ hgrant hagree₁ hagree₂
  obtain ⟨hO₂, hsh₂, v, hR₂, hfR, hprR, hmR', hiR'⟩ :=
    Scene.sharable_after_unlock hn hO hR hstore hp hmR hiR hcalls
  -- a grant succeeds only from an unlocked owner, which then shares
  have hunl := hgrant.elim fun _ ha =>
    unlocked_of_dataCall_ok ((hO₂.call _).1.symm.trans ha) trivial
  obtain ⟨hO₄, hsh₄, hR₄⟩ := Scene.shares_after_grant hn
    (hp.valid (Keys.size_publicKey_of_deriveIdentity hiR)) (Keys.publicKey_of_deriveIdentity hiR)
    hp.spaceString hO₂ (hsh₂.sharing hunl) hR₂ hk custom hafter hgrant hagree₁ hagree₂
  obtain ⟨kr, b, ek, vr, e, p, hkr, hb, hu, hvr, he, hopen, hans⟩ := Scene.answers_of_shares hsh₄
    hp.parse_owner hp.spaceTrimmed hp.spaceNonempty hk hO₄ hR₄ hfR hprR hmR' hiR' rfl
  refine ⟨kr, b, ek, vr, e, p, hkr, hb, hu, hvr, he, hopen,
    fun reading => ⟨(hans reading).1, fun hunl₄ => ?_⟩⟩
  have hO₄v : s₄.vaults.lookup nO = some _ := hO₄.1
  rw [hO₄v, Option.map_some, Option.some.injEq] at hunl₄
  exact ((hans reading).2 hunl₄).trans (hans reading).1.symm

theorem recipient_reads_shared_entry_after_write :
    let s₂ := sampleScene.runSteps
      (ownerWrite.map (.call "o") ++ [.call "r" (.unlock recipientSigner)])
    let grantStep := ScenarioStep.call "o"
      (.grant sampleKey (Text.ofString sampleRecipient.principal.did) [])
    let s₃ := (grantStep.run s₂).2
    (∃ a, (grantStep.run s₂).1 = .ok a) ∧ ∃ mk kr b ek vr e p,
      Keys.deriveMasterKey ownerSigner sampleOwner.settings.space = .ok mk ∧
      s₃.store.find? sampleOwner.settings.space (keysPrefix ++ Text.ofString "k") = some kr ∧
      KeyBlob.load kr.data.toValue = .ok b ∧ unwrap mk b = .ok ek ∧
      s₃.store.find? sampleOwner.settings.space (valuesPrefix ++ Text.ofString "k") = some vr ∧
      Envelope.load vr.data.toValue = .ok e ∧ openValue ek e = .ok p ∧ ∀ reading,
      ((ScenarioStep.call "r" (.getShared (Text.ofString sampleOwner.principal.did) sampleKey
          reading)).run s₃).1 =
        (decodeValue p e reading).map
          (fun v => VaultCall.entryAnswer ⟨v, e.metadata, Text.ofString (keyId ek)⟩) ∧
      ((s₃.vaults.lookup "o").map Vault.isUnlocked = some true →
        ((ScenarioStep.call "o" (.get sampleKey reading)).run s₃).1 =
          ((ScenarioStep.call "r" (.getShared (Text.ofString sampleOwner.principal.did) sampleKey
            reading)).run s₃).1) := by
  obtain ⟨hgrant, hagree⟩ := sample_grant_succeeds
  obtain ⟨mk, hm⟩ := ownerSigner_derives.imp fun _ h => h.1
  obtain ⟨mR, hmR⟩ : ∃ mR,
      Keys.deriveMasterKey recipientSigner sampleRecipient.settings.space = .ok mR := ⟨_, rfl⟩
  -- the owner unlocks and writes before the recipient unlocks, and no call follows the grant
  have h := @recipient_reads_shared_entry sampleScene "o" "r" sampleOwner sampleRecipient
    (by simp) rfl rfl rfl freshPair_sample recipientSigner mk mR _ hmR rfl ownerWrite [] []
    (by
      rw [List.append_nil]
      exact fun c hc => selfGrant_admissible hm c (List.mem_append_left _ hc))
    sampleKey (Text.ofString "k") rfl [] (List.forall_mem_nil _) hgrant hagree
    (fun _ h₁ h₂ => by
      rw [List.map_nil] at h₁
      rw [List.map_nil, Scene.runSteps_nil] at h₂
      omega)
  rw [List.map_nil, Scene.runSteps_nil] at h
  obtain ⟨kr, b, ek, vr, e, p, h⟩ := h
  exact ⟨hgrant, mk, kr, b, ek, vr, e, p, hm, h⟩

/-- Once the owner locks after sharing, its own read of the entry fails as locked while the
recipient still reads it: the two reads no longer agree. -/
theorem locked_owner_reads_apart :
    let s₂ := sampleScene.runSteps
      (ownerWrite.map (.call "o") ++ [.call "r" (.unlock recipientSigner)])
    let s₃ := ((ScenarioStep.call "o"
      (.grant sampleKey (Text.ofString sampleRecipient.principal.did) [])).run s₂).2
    let s₄ := s₃.runSteps ([VaultCall.lock].map (.call "o"))
    (∃ a, ((ScenarioStep.call "r" (.getShared (Text.ofString sampleOwner.principal.did) sampleKey
        .raw)).run s₄).1 = .ok a) ∧
      ((ScenarioStep.call "o" (.get sampleKey .raw)).run s₄).1 = .error .locked := by
  intro s₂ s₃ s₄
  obtain ⟨hgrant, hagree⟩ := sample_grant_succeeds
  obtain ⟨mk, L, w, -, hO₂, hsh₂, ⟨v, hR₂, hfR, hprR, ⟨mR, hmR'⟩, hiR'⟩, hunl, -⟩ :=
    sample_sharable
  have hiR : Keys.deriveIdentity recipientSigner = .ok (Keys.identityOf ⟨#[1, 2, 3]⟩) := rfl
  have hp := freshPair_sample
  have hk : EntryName.ofValue sampleKey = .ok (Text.ofString "k") := rfl
  -- the lock draws nothing, and spares the share
  have h₃ := (hO₂.call (.grant sampleKey
    (shareOf sampleOwner sampleRecipient (Keys.identityOf ⟨#[1, 2, 3]⟩).publicKey).did [])).2.1
  have hs₄ := (h₃.call .lock).2.1.2.2.trans ((exec_lock_entropy _).trans h₃.2.2.symm)
  have hafter : ∀ c ∈ [VaultCall.lock], c.Admissible mk sampleOwner.settings.space ∧
      c.Spares (Text.ofString "k") (Text.ofString sampleRecipient.principal.did)
        sampleOwner.settings.rotation := by
    intro c hc
    rw [List.mem_singleton] at hc
    subst hc
    exact ⟨trivial, trivial⟩
  obtain ⟨hO₄, hsh₄, hR₄⟩ := Scene.shares_after_grant (by simp)
    (hp.valid (Keys.size_publicKey_of_deriveIdentity hiR)) (Keys.publicKey_of_deriveIdentity hiR)
    hp.spaceString hO₂ (hsh₂.sharing hunl) hR₂ hk [] hafter hgrant hagree
    (fun _ h₁ h₂ => by
      rw [show [VaultCall.lock].map (ScenarioStep.call "o") = [.call "o" .lock] from rfl,
        Scene.runSteps_cons, Scene.runSteps_nil, hs₄] at h₂
      omega)
  -- the recipient still reads the entry
  obtain ⟨_, _, _, _, _, _, -, -, -, -, -, -, hans⟩ := Scene.answers_of_shares hsh₄
    hp.parse_owner hp.spaceTrimmed hp.spaceNonempty hk hO₄ hR₄ hfR hprR hmR' hiR' rfl
  refine ⟨⟨_, (hans .raw).1⟩, ?_⟩
  -- the owner, locked, reads nothing
  exact (hO₄.call (.get sampleKey .raw)).1.trans
    (congrArg Prod.fst (exec_dataCall_locked (c := .get sampleKey .raw) rfl trivial))

end Strongbox
