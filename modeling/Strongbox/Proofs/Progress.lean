import Strongbox.Proofs.Resealing
import Strongbox.Proofs.LockState
import Strongbox.Proofs.Wrapping

/-!
# Calls that succeed

Writes, grants and rotations that go through from an unlocked vault, and a sample run of one
vault that writes an entry and grants it to its own principal.
-/

namespace Strongbox

/-! ## Derived keys -/

/-- A derived master key is 32 bytes, and so is a derived public key. -/
theorem Keys.size_of_masterKeyOf {sig : ByteArray} {scope : Text} {mk : ByteArray}
    (h : Keys.masterKeyOf sig scope = .ok mk) : mk.size = 32 := by
  unfold Keys.masterKeyOf at h
  split at h
  · cases h
    simp [Hkdf.derive?, Hkdf.maxLength, Hkdf.expandBlocks, Hmac.size_mac_sha256, Keys.keyLength]
  · cases h

theorem Keys.size_of_deriveMasterKey {signer : Signer} {scope : Text} {mk : ByteArray}
    (h : Keys.deriveMasterKey signer scope = .ok mk) : mk.size = 32 := by
  unfold Keys.deriveMasterKey at h
  cases hr : Keys.requestSignature signer (Keys.masterMessage scope) with
  | error f => rw [hr] at h; cases h
  | ok sig =>
    rw [hr] at h
    exact Keys.size_of_masterKeyOf h

theorem Keys.size_publicKey_of_deriveIdentity {signer : Signer} {i : Keys.Identity}
    (h : Keys.deriveIdentity signer = .ok i) : i.publicKey.size = 32 := by
  rw [Keys.publicKey_of_deriveIdentity h, X25519.size_publicKey]

namespace Vault

section Progress

variable {w : World} (hf : w.vault.faults = []) {mk : ByteArray} {i : Keys.Identity}
  (hmk : w.vault.masterKey = some mk) (hi : w.vault.identity = some i)
include hmk hi

include hf in
/-- The per-write write of `exec_put_perWrite`, as a call of a scenario. -/
theorem exec_putCall_perWrite (hsize : mk.size = 32) (hrot : w.vault.settings.rotation = .perWrite)
    {key value : Value} {k : Text} {contentType : Option Text} {custom : List (Value × Value)}
    {writing : Writing} {p : ByteArray} (hk : EntryName.ofValue key = .ok k)
    (hp : plaintextOf value (contentTypeOf value contentType) writing = .ok p)
    (hct : ∀ c, contentType = some c → c.IsString)
    (hcustom : Headers.AllStrings (Headers.ofValues custom)) :
    ∃ a st, exec (VaultCall.put key value contentType custom writing).run w = (.ok a, { w with
      store := st, entropy := (((w.entropy.draw 32).2.draw nonceSize).2.draw nonceSize).2 }) ∧
      ∃ kr b, st.find? w.vault.session.space (keysPrefix ++ k) = some kr ∧
        KeyBlob.load kr.data.toValue = .ok b ∧ unwrap mk b = .ok (w.entropy.draw 32).1 := by
  obtain ⟨h, st, hput, hkey⟩ := exec_put_perWrite hmk hi hf hsize hrot hk hp hct hcustom
  have hrun : exec (VaultCall.put key value contentType custom writing).run w =
      exec (pure (Answer.value h.toValue) : VaultM Answer) _ := exec_bind_ok hput
  rw [hrun, exec_pure]
  exact ⟨_, _, rfl, hkey⟩

include hf in
/-- A grant from an unlocked vault without faults, of an entry whose key blob unwraps under the
master key, to a recipient that resolves to a key the grant can seal to, succeeds when the record
it makes has JSON text: it writes the grant at the recipient's path. -/
theorem exec_grant_of {key : Value} {k : Text} (hk : EntryName.ofValue key = .ok k) {g : Text}
    {r : KeyRecord} {c : List (Text × KeyRecord)}
    (hres : exec (resolve g) w = (.ok r, { w with vault := { w.vault with cache := c } }))
    {kr : Stored} {b : KeyBlob} {ek : ByteArray}
    (hkr : w.store.find? w.vault.session.space (keysPrefix ++ k) = some kr)
    (hb : KeyBlob.load kr.data.toValue = .ok b) (hu : unwrap mk b = .ok ek)
    {blob : ByteArray} {e' : Entropy}
    (hseal : (Grant.sealEntryKey ek r.publicKey).run.run w.entropy = (.ok blob, e'))
    {custom : List (Value × Value)} {json : String}
    (hj : (GrantRecord.build blob w.vault.settings.space (Text.ofString w.vault.did)
      custom).toJson = .ok json) :
    ∃ a, exec (VaultCall.grant key g custom).run w = (.ok a, { w with
      vault := { w.vault with cache := c }
      store := (w.store.touch w.vault.session.space).write w.vault.session.space (Grant.path g k)
        ⟨.ofString json, []⟩
      entropy := e' }) := by
  let w₃ : World := { w with vault := { w.vault with cache := c } }
  have hf₃ : w₃.vault.faults = [] := hf
  have hload : exec (loadKeyBlob k) w₃ =
      (.ok b, { w₃ with store := w₃.store.touch w₃.vault.session.space }) :=
    exec_loadKeyBlob_of hf₃ hkr hb
  have hcreate : exec (drawing (Grant.create mk b r.publicKey))
      { w₃ with store := w₃.store.touch w₃.vault.session.space } =
      (.ok blob,
        { w₃ with store := w₃.store.touch w₃.vault.session.space, entropy := e' }) := by
    rw [exec_drawing, Grant.create_run hu, hseal]
  have hgrant : exec (grant key g custom) w = (.ok (GrantRecord.build blob
      w.vault.settings.space (Text.ofString w.vault.did) custom), { w₃ with
        store := (w₃.store.touch w₃.vault.session.space).write (w₃.vault.session.resolve none)
          (Grant.path g k) ⟨.ofString json, []⟩
        entropy := e' }) := by
    unfold grant
    rw [exec_bind_ok (exec_requireUnlocked_of hmk hi)]
    dsimp only
    rw [exec_bind_ok (exec_checkName_of hk _), resolvePublicKey_bind, exec_bind_ok hres,
      exec_bind_ok hload, exec_bind_ok (by rw [exec_tryCatch, hcreate]),
      exec_bind_ok (exec_current _),
      exec_bind_ok (by rw [exec_liftExcept]; exact Prod.ext hj rfl),
      exec_bind_ok (exec_storePut (w := { w₃ with
        store := w₃.store.touch w₃.vault.session.space, entropy := e' }) hf _ _ _ _), exec_pure]
    rfl
  have hrun : exec (VaultCall.grant key g custom).run w = exec (liftExcept (Answer.ofGrant
      (GrantRecord.build blob w.vault.settings.space (Text.ofString w.vault.did) custom))) _ :=
    exec_bind_ok hgrant
  rw [hrun, exec_liftExcept, Answer.ofGrant, hj]
  exact ⟨_, rfl⟩


include hf in
/-- Sealing again an entry whose records open, from an unlocked vault without faults whose
master key is 32 bytes, succeeds. -/
theorem exec_resealEntry_of (hsize : mk.size = 32) {key : Text} {cipher : Aead} {kr vr : Stored}
    {b : KeyBlob} {ek : ByteArray} {e : Envelope} {p : ByteArray}
    (hkr : w.store.find? w.vault.session.space (keysPrefix ++ key) = some kr)
    (hb : KeyBlob.load kr.data.toValue = .ok b) (hu : unwrap mk b = .ok ek)
    (hvr : w.store.find? w.vault.session.space (valuesPrefix ++ key) = some vr)
    (he : Envelope.load vr.data.toValue = .ok e) (hopen : openValue ek e = .ok p) :
    ∃ r w', exec (resealEntry key cipher) w = (.ok r, w') := by
  -- opening the envelope found its cipher
  obtain ⟨c, hc⟩ : ∃ c, Aead.ofText e.cipher = .ok c := by
    cases hc : Aead.ofText e.cipher with
    | ok c => exact ⟨c, rfl⟩
    | error f => simp [openValue, hc] at hopen
  have hek := Aead.checkKey_of_size (a := c) (Entropy.size_draw w.entropy 32)
  have hmkc := Aead.checkKey_of_size (a := cipher) hsize
  have hvr' : (w.store.touch w.vault.session.space).find? w.vault.session.space
      (valuesPrefix ++ key) = some vr := by
    rw [Store.find?_touch]
    exact hvr
  unfold resealEntry
  rw [exec_bind_ok (exec_requireUnlocked_of hmk hi)]
  dsimp only
  rw [exec_bind_ok (exec_loadKeyBlob_of hf hkr hb),
    exec_bind_ok (exec_loadEnvelope_of (w := { w with store := w.store.touch w.vault.session.space })
      hf hvr' he),
    exec_bind_ok (by rw [exec_liftExcept, hu]), exec_bind_ok (by rw [exec_liftExcept, hopen]),
    exec_bind_ok (by rw [exec_drawing, generateEntryKey_run]),
    exec_bind_ok (by rw [exec_liftExcept, hc]),
    exec_bind_ok (by rw [exec_drawing, sealValue_run hek]),
    exec_bind_ok (by rw [exec_drawing, wrap_run hmkc]), exec_pure]
  exact ⟨_, _, rfl⟩

/-- A rotation of an entry the ledger holds, from a consistent world in which the vault is
unlocked with a 32-byte master key and its space is a string, succeeds. -/
theorem exec_rotate_of {space : Text} {L : Ledger} (hc : Consistent mk space L w)
    (hstr : w.vault.settings.space.IsString) (hsize : mk.size = 32) {k : Text} {p : ByteArray}
    {ct : Text} (hL : L k = some (p, ct)) (gs : List Text) (cipher : Aead) :
    ∃ report w', exec (rotate k gs cipher) w = (.ok report, w') := by
  obtain ⟨kr, vr, b, ek, e, hkr, hvr, hb, hu, -, he, -, hopen, -⟩ := hc.readsBack hL
  rw [← hc.session] at hkr hvr
  obtain ⟨r, w₁, hseal⟩ : ∃ r w₁, exec (resealEntry k cipher) w = (.ok r, w₁) :=
    exec_resealEntry_of hc.faults hmk hi hsize hkr hb hu hvr he hopen
  -- a rotation fails only where sealing again fails
  rcases hrot : exec (rotate k gs cipher) w with ⟨_ | report, w'⟩
  · rw [exec_rotate_error hc hstr hrot] at hseal
    cases hseal
  · exact ⟨report, w', rfl⟩

end Progress

end Vault

/-! ## A sample run -/

/-- An owner of the scheme `abc`, storing in the space `s` under the default settings, and a
signer that answers with one fixed byte. -/
def sampleOwner : Vault :=
  { principal := ⟨"abc", "1", "x"⟩, settings := { space := Text.ofString "s" },
    session := ⟨Text.ofString "s"⟩ }

def ownerSigner : Signer := ⟨fun _ => .ok (.bytes ⟨#[1]⟩)⟩

/-- The name the sample writes, and the owner's write of the byte `7` under it, as its bytes. -/
def sampleKey : Value := .str (Text.ofString "k")

def sampleWrite : VaultCall := .put sampleKey (.bytes ⟨#[7]⟩) none [] .raw

/-- The owner unlocks and writes `k`; then it grants `k` to its own principal. -/
def ownerWrite : List VaultCall := [.unlock ownerSigner, sampleWrite]

def selfGrant : List VaultCall :=
  ownerWrite ++ [.grant sampleKey (Text.ofString sampleOwner.principal.did) []]

theorem ownerSigner_derives : ∃ mk,
    Keys.deriveMasterKey ownerSigner sampleOwner.settings.space = .ok mk ∧
    Keys.deriveIdentity ownerSigner = .ok (Keys.identityOf ⟨#[1]⟩) :=
  ⟨_, rfl, rfl⟩

/-- Every call of the sample is admissible for the master key the owner's signer derives. -/
theorem selfGrant_admissible {mk : ByteArray}
    (hm : Keys.deriveMasterKey ownerSigner sampleOwner.settings.space = .ok mk) :
    ∀ c ∈ selfGrant, c.Admissible mk sampleOwner.settings.space := by
  intro c hc
  simp only [selfGrant, ownerWrite, List.cons_append, List.nil_append, List.mem_cons,
    List.mem_nil_iff, or_false] at hc
  rcases hc with rfl | rfl | rfl
  · intro m hm'
    rw [hm] at hm'
    exact (Except.ok.inj hm').symm
  · exact And.intro (fun _ h => nomatch h) (fun _ h => nomatch h)
  · trivial

/-- The owner's private key agrees with the first key drawn after the write. -/
theorem owner_agrees :
    X25519.Agree (Keys.identityOf ⟨#[1]⟩).privateKey ((⟨ByteArray.empty, 56⟩ : Entropy).draw 32).1 := by
  decide +kernel

namespace Vault

/-- After the owner unlocks and writes `k`, it holds the keys its signer derives and its own
record cached, agrees with a ledger that holds `k`, and has drawn an entry key and two nonces. -/
theorem ownerWrite_run : ∃ mk p ct,
    Keys.deriveMasterKey ownerSigner sampleOwner.settings.space = .ok mk ∧
    let r := runCalls ownerWrite (⟨sampleOwner, {}, ⟨ByteArray.empty, 0⟩⟩, fun _ => none)
    r.1.vault.masterKey = some mk ∧ r.1.vault.identity = some (Keys.identityOf ⟨#[1]⟩) ∧
    r.1.vault.cache.lookup (Text.ofString sampleOwner.principal.did) =
      some (Directory.ownRecord sampleOwner.principal (Keys.identityOf ⟨#[1]⟩).publicKey
        sampleOwner.settings.space) ∧
    Consistent mk sampleOwner.settings.space r.2 r.1 ∧ r.2 (Text.ofString "k") = some (p, ct) ∧
    r.1.entropy = ⟨ByteArray.empty, 56⟩ ∧ r.1.vault.settings = sampleOwner.settings ∧
    ∃ kr b, r.1.store.find? sampleOwner.settings.space (keysPrefix ++ Text.ofString "k") = some kr ∧
      KeyBlob.load kr.data.toValue = .ok b ∧
      unwrap mk b = .ok ((⟨ByteArray.empty, 0⟩ : Entropy).draw 32).1 := by
  obtain ⟨mk, hm, hi⟩ := ownerSigner_derives
  have hfresh : Consistent mk sampleOwner.settings.space (fun _ => none)
      ⟨sampleOwner, {}, ⟨ByteArray.empty, 0⟩⟩ :=
    Consistent.fresh _ rfl rfl fun _ h => nomatch h
  -- the unlock publishes the owner's key and caches its record
  set w₀ : World := ⟨sampleOwner, {}, ⟨ByteArray.empty, 0⟩⟩ with hw₀
  have hw₁ := (exec_unlock_call ownerSigner w₀).1.trans
    (congrArg Prod.snd (exec_unlock_publishing (w := w₀) rfl rfl hm hi))
  generalize hU : exec (VaultCall.unlock ownerSigner).run w₀ = U at hw₁
  have hf₁ : U.2.vault.faults = [] := by rw [hw₁]; rfl
  have hmk₁ : U.2.vault.masterKey = some mk := by rw [hw₁]
  have hi₁ : U.2.vault.identity = some (Keys.identityOf ⟨#[1]⟩) := by rw [hw₁]
  have hent : U.2.entropy = ⟨ByteArray.empty, 0⟩ := by rw [hw₁]
  -- the write draws the entry key and two nonces
  obtain ⟨a, st, hput, hkey⟩ := exec_putCall_perWrite hf₁ hmk₁ hi₁ (Keys.size_of_deriveMasterKey hm)
    (by rw [hw₁]; rfl) (rfl : EntryName.ofValue sampleKey = .ok (Text.ofString "k"))
    (rfl : plaintextOf (.bytes ⟨#[7]⟩) (contentTypeOf (.bytes ⟨#[7]⟩) none) .raw = .ok ⟨#[7]⟩)
    (fun _ h => nomatch h) (fun _ h => nomatch h : Headers.AllStrings (Headers.ofValues []))
  have hput' : exec sampleWrite.run U.2 = _ := hput
  -- the ledger holds what the write wrote
  have hL : ∀ L : Ledger, L.after sampleWrite (.ok a) (Text.ofString "k") =
      some (⟨#[7]⟩, contentTypeOf (.bytes ⟨#[7]⟩) none) := by
    intro L
    show Function.update L (Text.ofString "k") (some (⟨#[7]⟩, _)) (Text.ofString "k") = _
    rw [Function.update_self]
  have hc := hfresh.run ownerWrite fun c hc => selfGrant_admissible hm c (List.mem_append_left _ hc)
  rw [ownerWrite, runCalls_cons, runCalls_cons, runCalls_nil, hU, hput'] at hc ⊢
  dsimp only at hc ⊢
  refine ⟨mk, (⟨#[7]⟩ : ByteArray), contentTypeOf (.bytes ⟨#[7]⟩) none, hm, hmk₁, hi₁, ?_, hc, ?_,
    by rw [hent]; rfl, by rw [hw₁], ?_⟩
  · rw [hw₁]
    dsimp only
    exact (lookup_cacheInsert _ _ _ _).trans (if_pos rfl)
  · exact hL _
  · -- the key blob of `k` wraps the first key drawn
    obtain ⟨kr, b, hkr, hb, hu⟩ := hkey
    rw [hent] at hu
    rw [hw₁] at hkr
    exact ⟨kr, b, hkr, hb, hu⟩

/-- After the sample's calls the owner is unlocked with the master key its signer derives and
consistent with a ledger that holds `k`, and its own grant of `k` is stored. -/
theorem selfGrant_run : ∃ mk p ct,
    Keys.deriveMasterKey ownerSigner sampleOwner.settings.space = .ok mk ∧
    (runCalls selfGrant (⟨sampleOwner, {}, ⟨ByteArray.empty, 0⟩⟩, fun _ => none)).1.vault.isUnlocked =
      true ∧
    Consistent mk sampleOwner.settings.space
      (runCalls selfGrant (⟨sampleOwner, {}, ⟨ByteArray.empty, 0⟩⟩, fun _ => none)).2
      (runCalls selfGrant (⟨sampleOwner, {}, ⟨ByteArray.empty, 0⟩⟩, fun _ => none)).1 ∧
    (runCalls selfGrant (⟨sampleOwner, {}, ⟨ByteArray.empty, 0⟩⟩, fun _ => none)).2
      (Text.ofString "k") = some (p, ct) ∧
    ((runCalls selfGrant (⟨sampleOwner, {}, ⟨ByteArray.empty, 0⟩⟩, fun _ => none)).1.store.find?
      sampleOwner.settings.space
      (Grant.path (Text.ofString sampleOwner.principal.did) (Text.ofString "k"))).isSome ∧
    (runCalls selfGrant (⟨sampleOwner, {}, ⟨ByteArray.empty, 0⟩⟩, fun _ => none)).1.entropy =
      ⟨ByteArray.empty, 100⟩ ∧
    (runCalls selfGrant (⟨sampleOwner, {}, ⟨ByteArray.empty, 0⟩⟩, fun _ => none)).1.vault.settings =
      sampleOwner.settings ∧
    ∃ kr b, (runCalls selfGrant (⟨sampleOwner, {}, ⟨ByteArray.empty, 0⟩⟩, fun _ => none)).1.store.find?
        sampleOwner.settings.space (keysPrefix ++ Text.ofString "k") = some kr ∧
      KeyBlob.load kr.data.toValue = .ok b ∧
      unwrap mk b = .ok ((⟨ByteArray.empty, 0⟩ : Entropy).draw 32).1 := by
  obtain ⟨mk, p, ct, hm, hmk, hi, hlook, hc, hL, hent, hset, hkey⟩ := ownerWrite_run
  obtain ⟨_, -, hid⟩ := ownerSigner_derives
  rw [selfGrant, runCalls_append]
  generalize runCalls ownerWrite (⟨sampleOwner, {}, ⟨ByteArray.empty, 0⟩⟩, fun _ => none) = r
    at hmk hi hlook hc hL hent hset hkey ⊢
  obtain ⟨w, L⟩ := r
  dsimp only at hmk hi hlook hc hL hent hset hkey
  obtain ⟨kr, -, b, ek, -, hkr, -, hb, hu, -⟩ := hc.readsBack hL
  rw [← hc.session] at hkr
  -- the grant finds the owner's own record cached, and its key agrees with the one drawn
  obtain ⟨shared, hx⟩ := owner_agrees.exchange_ok
  rw [← Keys.publicKey_of_deriveIdentity hid] at hx
  obtain ⟨blob, hseal⟩ :=
    @Grant.sealEntryKey_ok ek _ _ _ (Keys.size_publicKey_of_deriveIdentity hid) hx
  have hspace : w.vault.settings.space.IsString := by
    rw [hc.settings]
    exact Text.isString_ofString "s"
  obtain ⟨json, hj⟩ := GrantRecord.toJson_build blob hspace (Text.isString_ofString w.vault.did)
    (fun _ h => nomatch h : Headers.AllStrings (Headers.ofValues []))
  obtain ⟨a, hgrant⟩ := exec_grant_of hc.faults hmk hi
    (rfl : EntryName.ofValue sampleKey = .ok (Text.ofString "k")) (exec_resolve_cached hlook) hkr
    hb hu (by rw [hent]; exact hseal) hj
  have hc₃ := hc.run [.grant sampleKey (Text.ofString sampleOwner.principal.did) []]
    fun _ h => by rw [List.mem_singleton.mp h]; trivial
  rw [runCalls_cons, runCalls_nil, hgrant] at hc₃ ⊢
  refine ⟨mk, _, _, hm, ?_, hc₃, hL, ?_, rfl, hset, ?_⟩
  · simp [Vault.isUnlocked, hmk, hi]
  · dsimp only
    rw [Store.find?_write, if_pos ⟨hc.session.symm, rfl⟩]
    rfl
  · -- the grant writes off the entries
    obtain ⟨kr, b, hkr, hb, hu⟩ := hkey
    refine ⟨kr, b, ?_, hb, hu⟩
    dsimp only
    rw [Store.find?_write, if_neg fun h => (offEntries_grantPath _ _ (Text.ofString "k")).1 h.2.symm,
      Store.find?_touch]
    exact hkr

end Vault

end Strongbox
