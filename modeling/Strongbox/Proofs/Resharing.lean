import Strongbox.Proofs.ShareFrame
import Strongbox.Proofs.Resealing
import Strongbox.Proofs.Wrapping

/-!
# Grants a recipient opens

A recipient opens a grant with its private key when its key agrees with the ephemeral key the
grant was sealed with. A vault draws its ephemeral keys from its entropy, window after window
of one seed, so the keys a call drew are told by where the entropy stood before and after it:
`Entropy.Ahead` orders the positions of one source, every step of a vault that meets no faults
draws only ahead (`drawsAhead`), and a recipient whose key agrees with every window a call drew
opens every grant the call sealed to it.

`SharedKey` says that a recipient's grant of an entry opens to the key the entry's key blob
wraps under the master key, the key the owner reads the entry with. A grant of the entry to the
recipient establishes it; a write of the entry under the per-key policy keeps it, since the
entry keeps its key; and a revoke of another grantee keeps it, since its rotation seals the
recipient a grant of the fresh key.
-/

namespace Strongbox

/-! ## Drawing from one source -/

namespace Entropy

/-- `e'` is the source `e` further on: the same seed, no fewer bytes used. -/
def Ahead (e e' : Entropy) : Prop := e'.seed = e.seed ∧ e.used ≤ e'.used

theorem Ahead.refl (e : Entropy) : Ahead e e := ⟨rfl, Nat.le_refl _⟩

theorem Ahead.trans {e₁ e₂ e₃ : Entropy} (h₁ : Ahead e₁ e₂) (h₂ : Ahead e₂ e₃) : Ahead e₁ e₃ :=
  ⟨h₂.1.trans h₁.1, Nat.le_trans h₁.2 h₂.2⟩

theorem ahead_draw (e : Entropy) (n : Nat) : Ahead e (e.draw n).2 := ⟨rfl, Nat.le_add_right _ _⟩

end Entropy

/-- A drawing that only moves its source ahead. -/
def Drawing.Ahead {α : Type} (m : Drawing α) : Prop := ∀ e, Entropy.Ahead e (m.run.run e).2

namespace Drawing.Ahead

variable {α β : Type}

theorem pure (a : α) : Drawing.Ahead (pure a : Drawing α) := fun e => Entropy.Ahead.refl e

theorem throw (f : Failure) : Drawing.Ahead (throw f : Drawing α) := fun e => Entropy.Ahead.refl e

theorem drawBytes (n : Nat) : Drawing.Ahead (Strongbox.drawBytes n) := fun e => Entropy.ahead_draw e n

theorem bind {m : Drawing α} {f : α → Drawing β} (hm : m.Ahead) (hf : ∀ a, (f a).Ahead) :
    (m >>= f).Ahead := by
  intro e
  simp only [ExceptT.run_bind, StateT.run_bind]
  rcases h : m.run.run e with ⟨_ | a, e₁⟩
  · have := hm e
    rw [h] at this
    exact this
  · have := hm e
    rw [h] at this
    exact this.trans (hf a e₁)

theorem encryptBlob (a : Aead) (key plaintext : ByteArray) :
    Drawing.Ahead (a.encryptBlob key plaintext) := by
  unfold Aead.encryptBlob
  split
  · exact throw _
  · refine bind (drawBytes _) fun nonce => ?_
    split
    · exact pure _
    · exact throw _

theorem sealValue (ek plaintext : ByteArray) (cipher : Aead) (ct rotation : Text)
    (custom : List (Value × Value)) : Drawing.Ahead (Strongbox.sealValue ek plaintext cipher ct rotation custom) :=
  bind (encryptBlob _ _ _) fun _ => pure _

theorem sealResult (ek : ByteArray) (result : Value) (cipher : Aead) (ct rotation : Text)
    (custom : List (Value × Value)) :
    Drawing.Ahead (Vault.sealResult ek result cipher ct rotation custom) := by
  unfold Vault.sealResult
  split
  · exact sealValue _ _ _ _ _ _
  · split
    · exact throw _
    · exact bind (drawBytes _) fun _ => throw _

theorem wrap (mk ek : ByteArray) (cipher : Aead) : Drawing.Ahead (Strongbox.wrap mk ek cipher) :=
  bind (encryptBlob _ _ _) fun _ => pure _

theorem sealEntryKey (ek recipient : ByteArray) : Drawing.Ahead (Grant.sealEntryKey ek recipient) := by
  unfold Grant.sealEntryKey
  split
  · exact throw _
  · refine bind (drawBytes _) fun eph => ?_
    split
    · exact throw _
    · exact bind (encryptBlob _ _ _) fun _ => pure _

theorem create (mk : ByteArray) (blob : KeyBlob) (recipient : ByteArray) :
    Drawing.Ahead (Grant.create mk blob recipient) := by
  unfold Grant.create
  refine bind ?_ fun ek => sealEntryKey ek recipient
  unfold Grant.create.liftExcept
  split
  · exact pure _
  · exact throw _

end Drawing.Ahead

namespace Vault

/-- Worlds whose vault still meets no faults, and whose entropy is the same source further on,
when the first vault meets no faults. -/
def drawsAhead : WorldOrder where
  rel w w' := w.vault.faults = [] → w'.vault.faults = [] ∧ Entropy.Ahead w.entropy w'.entropy
  refl _ hf := ⟨hf, Entropy.Ahead.refl _⟩
  trans h₁ h₂ hf := ⟨(h₂ (h₁ hf).1).1, (h₁ hf).2.trans (h₂ (h₁ hf).1).2⟩

section Ahead

variable {α β : Type}

theorem drawsAhead_of {w w' : World} (hf : w'.vault.faults = w.vault.faults)
    (he : w'.entropy = w.entropy) : drawsAhead.rel w w' := fun h =>
  ⟨hf.trans h, he ▸ Entropy.Ahead.refl _⟩

theorem ahead_storeGet (path : Text) (space : Option Text) : Stays drawsAhead (storeGet path space) :=
  fun w hf => by
    rw [exec_storeGet hf]
    exact drawsAhead_of rfl rfl hf

theorem ahead_storePut (path : Text) (data : Data) (metadata : List (Value × Value))
    (space : Option Text) : Stays drawsAhead (storePut path data metadata space) := fun w hf => by
  rw [exec_storePut hf]
  exact drawsAhead_of rfl rfl hf

theorem ahead_drawing {m : Drawing α} (hm : m.Ahead) : Stays drawsAhead (drawing m) := fun w hf => by
  rw [exec_drawing]
  exact ⟨hf, hm w.entropy⟩

theorem ahead_resolve (did : Text) : Stays drawsAhead (resolve did) := fun w hf => by
  obtain ⟨c, hw, -, -⟩ := resolve_world hf did
  rw [hw]
  exact drawsAhead_of rfl rfl hf

theorem ahead_loadKeyBlob (key : Text) : Stays drawsAhead (loadKeyBlob key) := by
  unfold loadKeyBlob
  refine (ahead_storeGet _ _).bind fun r => ?_
  split
  · exact Stays.throw _
  · exact Stays.liftExcept _

theorem ahead_loadEnvelope (key : Text) (space : Option Text) :
    Stays drawsAhead (loadEnvelope key space) := by
  unfold loadEnvelope
  refine (ahead_storeGet _ _).bind fun r => ?_
  split
  · exact Stays.throw _
  · exact Stays.liftExcept _

theorem ahead_resealEntry (key : Text) (cipher : Aead) : Stays drawsAhead (resealEntry key cipher) :=
  Stays.requireUnlocked.bind fun _ => (ahead_loadKeyBlob key).bind fun _ =>
    (ahead_loadEnvelope key none).bind fun _ => (Stays.liftExcept _).bind fun _ =>
      (Stays.liftExcept _).bind fun _ => (ahead_drawing (Drawing.Ahead.drawBytes 32)).bind fun _ =>
        (Stays.liftExcept _).bind fun _ => (ahead_drawing (Drawing.Ahead.sealValue _ _ _ _ _ _)).bind
          fun _ => (ahead_drawing (Drawing.Ahead.wrap _ _ _)).bind fun _ => Stays.pure _

theorem ahead_reissue (key : Text) (ek : ByteArray) (g : Text) : Stays drawsAhead (reissue key ek g) := by
  unfold reissue
  rw [resolvePublicKey_bind]
  exact (ahead_resolve g).bind fun _ => (ahead_drawing (Drawing.Ahead.sealEntryKey _ _)).bind fun _ =>
    Stays.current.bind fun _ => (Stays.liftExcept _).bind fun _ => ahead_storePut _ _ _ _

theorem ahead_reissueAll (key : Text) (ek : ByteArray) (gs : List Text) (report : Rotation.Report) :
    Stays drawsAhead (reissueAll key ek gs report) := by
  induction gs generalizing report with
  | nil => exact Stays.pure _
  | cons g rest ih =>
    unfold reissueAll
    refine Stays.bind ?_ fun _ => ih _
    refine Stays.tryCatch ((ahead_reissue key ek g).bind fun _ => Stays.pure _) fun f => ?_
    split
    · exact Stays.pure _
    · exact Stays.throw _

end Ahead

/-! ## Grants that open with the recipient's key -/

/-- The grant of entry `key` to `g`, in `space` of store `st`, opens with the private key `priv`
to the entry key `ek`. -/
def OpensWith (st : Store) (space g key : Text) (priv ek : ByteArray) : Prop :=
  ∃ gr rec blob, st.find? space (Grant.path g key) = some gr ∧
    GrantRecord.load gr.data.toValue = .ok rec ∧ rec.blob = .ok blob ∧ Grant.open? priv blob = .ok ek

theorem OpensWith.keep {st st' : Store} {space g key : Text} {priv ek : ByteArray}
    (h : OpensWith st space g key priv ek)
    (hp : st'.find? space (Grant.path g key) = st.find? space (Grant.path g key)) :
    OpensWith st' space g key priv ek := by
  obtain ⟨gr, rec, blob, hgr, hrest⟩ := h
  exact ⟨gr, rec, blob, hp.trans hgr, hrest⟩

/-- A grant record written for a blob sealed to `priv`'s public key opens with `priv` when the
keys agree on the blob's ephemeral key. -/
theorem opensWith_written {st : Store} {space g key : Text} {priv ek eph blob : ByteArray}
    {spaceId grantor : Text} {custom : List (Value × Value)} {json : String}
    (hs : Grant.SealedTo (X25519.publicKey priv) ek eph blob) (ha : X25519.Agree priv eph)
    (hj : (GrantRecord.build blob spaceId grantor custom).toJson = .ok json)
    (hp : st.find? space (Grant.path g key) = some ⟨.ofString json, []⟩) :
    OpensWith st space g key priv ek :=
  ⟨_, _, blob, hp, GrantRecord.load_build blob spaceId grantor custom hj,
    GrantRecord.blob_build blob spaceId grantor custom, Grant.open?_of_sealedTo hs ha⟩

section Turns

variable {w : World}

/-- A fresh grant to a grantee whose key is cached, when the exchange with the drawn ephemeral
key is refused, fails having drawn that key and changed nothing else. -/
theorem exec_reissue_refused (key : Text) (ek : ByteArray) {g : Text} {r : KeyRecord}
    (hc : w.vault.cache.lookup g = some r) (hsize : r.publicKey.size = 32) {x : X25519.ExchangeError}
    (hx : X25519.exchange (w.entropy.draw 32).1 r.publicKey = .error x) :
    exec (reissue key ek g) w = (.error (.exchange x), { w with entropy := (w.entropy.draw 32).2 }) := by
  unfold reissue
  rw [resolvePublicKey_bind, exec_bind, exec_resolve_cached hc]
  dsimp only
  rw [exec_bind, exec_drawing, Grant.sealEntryKey_run, if_neg (by rw [hsize]; decide), hx]

/-- A fresh grant to a grantee whose key is cached draws its ephemeral key, whether the exchange
with it succeeds or not. -/
theorem reissue_draws_cached (hf : w.vault.faults = []) (hstr : w.vault.settings.space.IsString)
    (key : Text) (ek : ByteArray) {g : Text} {r : KeyRecord} (hc : w.vault.cache.lookup g = some r)
    (hsize : r.publicKey.size = 32) :
    w.entropy.used + 32 ≤ (exec (reissue key ek g) w).2.entropy.used := by
  rcases hx : X25519.exchange (w.entropy.draw 32).1 r.publicKey with x | shared
  · rw [exec_reissue_refused key ek hc hsize hx]
    exact Nat.le_refl _
  · obtain ⟨blob, json, -, -, hex⟩ := exec_reissue_cached hf hstr key ek hc hsize hx
    rw [hex]
    exact Nat.le_add_right _ _

/-- A run of grantees in turn that succeeds went on from the first grantee's turn. -/
theorem exec_reissueAll_cons_eq_ok {key : Text} {ek : ByteArray} {g : Text} {rest : List Text}
    {report report' : Rotation.Report} {w' : World}
    (h : exec (reissueAll key ek (g :: rest) report) w = (.ok report', w')) :
    ∃ report₁, exec (reissueAll key ek rest report₁) (exec (reissue key ek g) w).2 = (.ok report', w') := by
  rw [exec_reissueAll_cons] at h
  rcases hturn : exec (reissue key ek g) w with ⟨_ | u, w₁⟩
  · rename_i f
    rw [hturn] at h
    dsimp only at h
    split at h
    · exact ⟨_, h⟩
    · cases h
  · rw [hturn] at h
    exact ⟨_, h⟩

end Turns

/-- Grantees in turn, `g` among them with its key cached: when `priv`, whose public key that is,
agrees with every key drawn along the way, `g` ends with a grant that opens with `priv` to the
entry key. The induction is on the grantees: a turn before `g`'s keeps `g`'s cached record and
draws from the same source further on, `g`'s own turn draws an ephemeral key the rest of the run
draws past, and the turns after it write the later grantees' paths only. -/
theorem reissueAll_opens {key : Text} {ek : ByteArray} {gs : List Text} (hnd : gs.Nodup)
    (hslash : ∀ g ∈ gs, 47 ∉ g.points) {g : Text} (hg : g ∈ gs) {priv : ByteArray} {r : KeyRecord}
    (hpub : r.publicKey = X25519.publicKey priv) {report report' : Rotation.Report} {w w' : World}
    (hf : w.vault.faults = []) (hstr : w.vault.settings.space.IsString)
    (hc : w.vault.cache.lookup g = some r)
    (h : exec (reissueAll key ek gs report) w = (.ok report', w'))
    (hagree : ∀ n, w.entropy.used ≤ n → n < w'.entropy.used →
      X25519.Agree priv (Entropy.window w.entropy.seed n 32)) :
    OpensWith w'.store w.vault.session.space g key priv ek := by
  induction gs generalizing report w with
  | nil => cases hg
  | cons g' rest ih =>
    obtain ⟨hout, hnd'⟩ := List.nodup_cons.mp hnd
    have hslash' : ∀ x ∈ rest, 47 ∉ x.points := fun x hx => hslash x (.tail _ hx)
    obtain ⟨report₁, h₁⟩ := exec_reissueAll_cons_eq_ok h
    have hahead₁ := ahead_reissue key ek g' w hf
    have hrest : Entropy.Ahead (exec (reissue key ek g') w).2.entropy w'.entropy := by
      have := ahead_reissueAll key ek rest report₁ _ hahead₁.1
      rw [h₁] at this
      exact this.2
    have hsize : r.publicKey.size = 32 := by rw [hpub]; exact X25519.size_publicKey _
    by_cases hgg : g' = g
    · -- `g`'s own turn: the rest of the run draws past its ephemeral key, so the keys agree there
      subst hgg
      have hdrawn := reissue_draws_cached hf hstr key ek hc hsize
      have hagree₀ := hagree w.entropy.used (Nat.le_refl _) (by have := hrest.2; omega)
      obtain ⟨shared, hsh⟩ := hagree₀.exchange_ok
      rw [← hpub] at hsh
      obtain ⟨blob, json, hsealed, hj, hex⟩ := exec_reissue_cached hf hstr key ek hc hsize hsh
      rw [hex] at h₁
      obtain ⟨-, -, -, -, hframe, -⟩ := exec_reissueAll hnd' hslash' (by exact hf) h₁
      rw [hpub] at hsealed
      refine opensWith_written hsealed hagree₀ hj ?_
      rw [hframe _ _ fun x hx _ he =>
        hout ((Grant.path_inj (hslash g' (.head _)) (hslash' x hx) he).1 ▸ hx)]
      exact (Store.find?_write _ _ _ _ _ _).trans (if_pos ⟨rfl, rfl⟩)
    · -- an earlier turn keeps `g`'s cached record, the faults, the settings and the session
      have hg₁ : g ∈ rest := (List.mem_cons.mp hg).resolve_left fun h => hgg h.symm
      obtain ⟨c, hv, hc', -⟩ := exec_reissue hf key ek g'
      have hf₁ : (exec (reissue key ek g') w).2.vault.faults = [] := by rw [hv]; exact hf
      have hstr₁ : (exec (reissue key ek g') w).2.vault.settings.space.IsString := by
        rw [hv]; exact hstr
      have hc₁ : (exec (reissue key ek g') w).2.vault.cache.lookup g = some r := by
        rw [hv]; exact (hc' g fun h => hgg h.symm).trans hc
      have hsp : (exec (reissue key ek g') w).2.vault.session = w.vault.session := by rw [hv]
      rw [← hsp]
      refine ih hnd' hslash' hg₁ hf₁ hstr₁ hc₁ h₁ fun n hn hn' => ?_
      rw [hahead₁.2.1]
      exact hagree n (Nat.le_trans hahead₁.2.2 hn) hn'

/-! ## A grant -/

/-- A grant that succeeds, from a vault that meets no faults: the vault was unlocked, the key
names an entry whose key blob unwraps under the master key, the recipient's resolved record is
cached, and the entry key, sealed to its key with the first key drawn, was written at the
recipient's grant path; two keys were drawn, and nothing else changed in the store. -/
theorem exec_grant_eq_ok {key : Value} {g : Text} {custom : List (Value × Value)}
    {record : GrantRecord} {w w' : World} (hf : w.vault.faults = [])
    (h : exec (grant key g custom) w = (.ok record, w')) :
    ∃ mk k r kr b ek blob json, w.vault.masterKey = some mk ∧ EntryName.ofValue key = .ok k ∧
      w'.vault.cache.lookup g = some r ∧
      w.store.find? w.vault.session.space (keysPrefix ++ k) = some kr ∧
      KeyBlob.load kr.data.toValue = .ok b ∧ unwrap mk b = .ok ek ∧
      Grant.SealedTo r.publicKey ek (w.entropy.draw 32).1 blob ∧
      (GrantRecord.build blob w.vault.settings.space (Text.ofString w.vault.did) custom).toJson =
        .ok json ∧
      w'.store = (w.store.touch w.vault.session.space).write w.vault.session.space (Grant.path g k)
        ⟨.ofString json, []⟩ ∧
      w'.entropy = ((w.entropy.draw 32).2.draw nonceSize).2 := by
  unfold grant at h
  obtain ⟨⟨mk, i⟩, w₁, h₁, c₁⟩ := exec_bind_eq_ok h
  obtain ⟨hmk, -, rfl⟩ := exec_requireUnlocked_eq_ok h₁
  obtain ⟨k, w₂, h₂, c₂⟩ := exec_bind_eq_ok c₁
  obtain ⟨hk, rfl⟩ := exec_checkName_eq_ok h₂
  rw [resolvePublicKey_bind] at c₂
  obtain ⟨r, w₃, h₃, c₃⟩ := exec_bind_eq_ok c₂
  -- resolving changes only the cache, where it leaves the record resolved
  obtain ⟨c, hw₃, -, hcr⟩ := resolve_world hf g
  rw [h₃] at hw₃ hcr
  have hcg := hcr r rfl
  dsimp only at hw₃
  subst hw₃
  obtain ⟨b, w₄, h₄, c₄⟩ := exec_bind_eq_ok c₃
  obtain ⟨kr, hkr, hb, rfl⟩ := exec_loadKeyBlob_eq_ok (by exact hf) h₄
  obtain ⟨blob, w₅, h₅, c₅⟩ := exec_bind_eq_ok c₄
  -- the seal succeeded: every failure of it is thrown again
  rw [exec_tryCatch] at h₅
  generalize hd : exec (drawing (Grant.create mk b r.publicKey)) _ = res at h₅
  rcases res with ⟨_ | sealed, w₅'⟩
  · dsimp only at h₅
    split_ifs at h₅ <;> simp only [exec_throw, Prod.mk.injEq, reduceCtorEq, false_and] at h₅
  dsimp only at h₅
  rw [Prod.mk.injEq, Except.ok.injEq] at h₅
  obtain ⟨rfl, rfl⟩ := h₅
  obtain ⟨hrun, hw₅⟩ := exec_drawing_eq_ok hd
  rcases hu : unwrap mk b with _ | ek
  · rw [Grant.create, hu] at hrun
    cases congrArg Prod.fst hrun
  rw [Grant.create_run hu] at hrun
  obtain ⟨hsealed, he₅⟩ := Grant.sealEntryKey_eq_ok hrun
  obtain ⟨v, w₆, h₆, c₆⟩ := exec_bind_eq_ok c₅
  obtain ⟨rfl, rfl⟩ := exec_current_eq_ok h₆
  obtain ⟨json, w₇, h₇, c₇⟩ := exec_bind_eq_ok c₆
  obtain ⟨hj, rfl⟩ := exec_liftExcept_eq_ok h₇
  obtain ⟨u, w₈, h₈, c₈⟩ := exec_bind_eq_ok c₇
  rw [hw₅] at h₈
  rw [exec_storePut (by exact hf), Prod.mk.injEq] at h₈
  obtain ⟨-, rfl⟩ := h₈
  rw [exec_pure, Prod.mk.injEq] at c₈
  obtain ⟨-, rfl⟩ := c₈
  exact ⟨mk, k, r, kr, b, ek, sealed, json, hmk, hk, hcg, hkr, hb, hu, hsealed,
    by rw [hw₅] at hj; exact hj, rfl, he₅⟩

/-! ## Failures that write nothing -/

section Unwritten

variable {α β : Type}

/-- Every run of `m` that fails leaves every record as it was. -/
def FailsUnwritten (m : VaultM α) : Prop :=
  ∀ w f, (exec m w).1 = .error f → sameRecords.rel w (exec m w).2

theorem FailsUnwritten.bind {m : VaultM α} {f : α → VaultM β} (hm : Stays sameRecords m)
    (hf : ∀ a, FailsUnwritten (f a)) : FailsUnwritten (m >>= f) := by
  intro w e h
  have h₁ := hm w
  rw [exec_bind] at h ⊢
  rcases hm' : exec m w with ⟨_ | a, w₁⟩
  · rw [hm'] at h₁
    exact h₁
  · rw [hm'] at h h₁
    exact sameRecords.trans h₁ (hf a w₁ e h)

/-- A step whose failures write nothing, followed by an answer. -/
theorem FailsUnwritten.then_pure {m : VaultM α} (hm : FailsUnwritten m) (b : β) :
    FailsUnwritten (m >>= fun _ => pure b) := by
  intro w e h
  rw [exec_bind] at h ⊢
  rcases hm' : exec m w with ⟨_ | a, w₁⟩
  · have := hm w _ (by rw [hm'])
    rwa [hm'] at this
  · rw [hm'] at h
    dsimp only at h
    rw [exec_pure] at h
    cases h

/-- A write fails only as it meets a fault, before it writes. -/
theorem failsUnwritten_storePut (path : Text) (data : Data) (metadata : List (Value × Value))
    (space : Option Text) : FailsUnwritten (storePut path data metadata space) := by
  unfold storePut
  refine FailsUnwritten.bind (records_meetFaults _ _) fun _ w e h => ?_
  rw [exec_modify] at h
  cases h

theorem records_resolve (did : Text) : Stays sameRecords (resolve did) := by
  unfold resolve
  refine Stays.current.bind fun v => ?_
  split
  · exact Stays.pure _
  · refine (Stays.liftExcept _).bind fun _ => (records_reads.readText _ _).bind fun _ =>
      (Stays.liftExcept _).bind fun _ => (records_reads.readText _ _).bind fun _ =>
        (records_reads.readText _ _).bind fun _ => Stays.bind (fun w => ?_) fun _ => Stays.pure _
    rw [exec_update]
    exact sameRecords.refl w

/-- A grant that fails has written nothing: its one write is its last step. -/
theorem failsUnwritten_grant (key : Value) (recipient : Text) (custom : List (Value × Value)) :
    FailsUnwritten (grant key recipient custom) := by
  unfold grant
  refine FailsUnwritten.bind Stays.requireUnlocked fun _ =>
    FailsUnwritten.bind (Stays.liftExcept _) fun name => ?_
  rw [resolvePublicKey_bind]
  refine FailsUnwritten.bind (records_resolve _) fun _ =>
    FailsUnwritten.bind (records_reads.loadKeyBlob name) fun _ =>
      FailsUnwritten.bind (Stays.tryCatch (records_drawing _) fun e => ?_) fun _ =>
        FailsUnwritten.bind Stays.current fun _ => FailsUnwritten.bind (Stays.liftExcept _) fun _ =>
          (failsUnwritten_storePut _ _ _ _).then_pure _
  split <;> exact Stays.throw _

end Unwritten

/-! ## A revoke -/

section Revoking

variable {w : World} (hf : w.vault.faults = [])
include hf

/-- A revoke fails having written nothing, or it found the recipient among the entry's
grantees and goes on as the rotation of the entry for the others, from the world with the
recipient's grant erased. -/
theorem exec_revoke_cases (key : Value) (g : Text) :
    ((∃ f, (exec (revoke key g) w).1 = .error f) ∧ sameRecords.rel w (exec (revoke key g) w).2) ∨
    ∃ k, EntryName.ofValue key = .ok k ∧ g ∈ grantees w.store w.vault.session.space k ∧
      exec (revoke key g) w =
        exec (rotate k ((grantees w.store w.vault.session.space k).filter (· != g))
          w.vault.settings.cipher) { w with
            store := (w.store.touch w.vault.session.space).erase w.vault.session.space
              (Grant.path g k) } := by
  unfold revoke
  rw [exec_bind]
  rcases h₁ : exec requireUnlocked w with ⟨_ | ⟨mk, i⟩, w₁⟩
  · have := Stays.requireUnlocked (R := sameRecords) w
    rw [h₁] at this
    exact .inl ⟨⟨_, rfl⟩, this⟩
  obtain ⟨hmk, hi, hw₁⟩ := exec_requireUnlocked_eq_ok h₁
  subst w₁
  dsimp only
  rw [exec_bind]
  cases hk : EntryName.ofValue key with
  | error e =>
    have hname : exec (checkName key) w = (.error (.badName e), w) := by
      rw [checkName, exec_liftExcept, hk]
      rfl
    rw [hname]
    exact .inl ⟨⟨_, rfl⟩, sameRecords.refl w⟩
  | ok k =>
    rw [exec_checkName_of hk]
    dsimp only
    rw [exec_bind, exec_listGrants_of hf hmk hi hk]
    dsimp only
    rw [exec_bind, exec_current]
    dsimp only
    split
    · -- not a grantee: only the grants folder was listed
      rw [exec_throw]
      exact .inl ⟨⟨_, rfl⟩, fun n p => Store.find?_touch _ _ _ _⟩
    · rename_i hmem
      refine .inr ⟨k, rfl, by simpa using hmem, ?_⟩
      rw [exec_bind, exec_storeDelete (by exact hf)]
      dsimp only
      rw [exec_bind, exec_current]
      rfl

end Revoking

/-! ## The key a recipient's grant opens to -/

/-- A name an entry can have is not empty. -/
theorem EntryName.points_ne_nil {key : Value} {k : Text} (h : EntryName.ofValue key = .ok k) :
    k.points ≠ [] := by
  cases key with
  | str t =>
    unfold EntryName.ofValue at h
    dsimp only at h
    unfold EntryName.check at h
    by_cases hempty : t.isEmpty = true
    · rw [if_pos hempty] at h
      cases h
    · -- the name given back is the text checked
      have hk : k = t := by
        rw [if_neg hempty] at h
        split at h
        · cases h
        split at h
        · cases h
        split at h
        · cases h
        split at h
        · cases h
        exact (Except.ok.inj h).symm
      subst hk
      intro hnil
      exact hempty (by simp [Text.isEmpty, hnil])
  | _ => cases h

/-- The recipient of a share is a name a grant path can hold. -/
theorem Share.recipient_did {s : Share} (hs : s.Valid) : Grant.Recipient s.did := by
  have hhead := Principal.head_of_parse hs.recipient
  refine ⟨fun h => ?_, Share.slash_not_mem_did hs, fun h => ?_⟩
  · rw [h] at hhead
    cases hhead
  rw [h, show (Text.ofString "grants").points.head? = some 103 from rfl] at hhead
  cases hhead

/-- The grant of entry `k` to `g`, in `space` of store `st`, opens with `priv` to the entry key
that `k`'s key blob wraps under the master key `mk`. -/
def SharedKey (mk priv : ByteArray) (space g k : Text) (st : Store) : Prop :=
  ∃ kr b ek, st.find? space (keysPrefix ++ k) = some kr ∧ KeyBlob.load kr.data.toValue = .ok b ∧
    unwrap mk b = .ok ek ∧ OpensWith st space g k priv ek

theorem SharedKey.keep {mk priv : ByteArray} {space g k : Text} {st st' : Store}
    (h : SharedKey mk priv space g k st)
    (hk : st'.find? space (keysPrefix ++ k) = st.find? space (keysPrefix ++ k))
    (hg : st'.find? space (Grant.path g k) = st.find? space (Grant.path g k)) :
    SharedKey mk priv space g k st' := by
  obtain ⟨kr, b, ek, hkr, hb, hu, hopen⟩ := h
  exact ⟨kr, b, ek, hk.trans hkr, hb, hu, hopen.keep hg⟩

section Calls

variable {s : Share} {mk priv : ByteArray} {L : Ledger} {w : World}
  (hc : Consistent mk s.settings.space L w) (hr : s.Ready w)
  (hpriv : s.recipientKey = X25519.publicKey priv)
include hc hr

omit hpriv in
/-- Under the per-key policy a write of the shared entry keeps its entry key, so the grant
still opens to the key the owner reads the entry with. -/
theorem sharedKey_put (hrot : s.settings.rotation = .perKey) {key value : Value} {k : Text}
    (hk : EntryName.ofValue key = .ok k) {contentType : Option Text} {custom : List (Value × Value)}
    (hct : ∀ c, contentType = some c → c.IsString)
    (hcustom : Headers.AllStrings (Headers.ofValues custom)) (writing : Writing)
    (hsk : SharedKey mk priv s.settings.space s.did k w.store) :
    SharedKey mk priv s.settings.space s.did k
      (exec (put key value contentType custom writing) w).2.store := by
  rcases hs : exec (sealEntry key value contentType custom writing) w with ⟨_ | ⟨k', blob, e⟩, w₁⟩
  · -- sealing failed before anything was written
    have hrec := records_sealEntry key value contentType custom writing w
    rw [hs] at hrec
    rw [exec_put_of_unsealed hs]
    exact hsk.keep (hrec _ _) (hrec _ _)
  have hrec : sameRecords.rel w w₁ := by
    have := records_sealEntry key value contentType custom writing w
    rwa [hs] at this
  obtain ⟨mk', ek, p, hmk, hk', -, hsealed, hkept, hkeep⟩ := exec_sealEntry_eq_ok hc.faults hs
  obtain rfl := hc.masterKey mk' hmk
  rw [hk, Except.ok.injEq] at hk'
  subst hk'
  obtain ⟨kr, b, ek₀, hkr, hb, hu, hopen⟩ := hsk
  -- the key kept is the one the stored blob wraps
  have hek : ek = ek₀ := hkept (by rw [hr.settings, hrot]) kr b ek₀ (by rw [hr.session]; exact hkr) hb hu
  subst hek
  obtain ⟨jb, hjb⟩ := hsealed.blob_toJson
  obtain ⟨je, hje⟩ := hsealed.envelope_toJson (isString_contentTypeOf value hct)
    (Text.isString_ofString _) hcustom
  rw [exec_put_of_sealed hc.faults hs hjb hje]
  dsimp only
  rw [hkeep.session, hr.session]
  refine ⟨⟨.ofString jb, []⟩, blob, ek, ?_, KeyBlob.load_toJson hjb, hsealed.unwrap_eq, hopen.keep ?_⟩
  · rw [Store.find?_write, if_neg fun h => keys_ne_values _ _ h.2, Store.find?_write, if_pos ⟨rfl, rfl⟩]
  · have hoff := offEntries_grantPath s.did k k
    rw [Store.find?_write, if_neg fun h => hoff.2 h.2, Store.find?_write, if_neg fun h => hoff.1 h.2,
      hrec]

include hpriv in
/-- A grant of the shared entry to the recipient seals the key the owner reads the entry with,
with the first key drawn, which the recipient's key agrees with. -/
theorem sharedKey_grant (hs : s.Valid) {key : Value} {k : Text} (hk : EntryName.ofValue key = .ok k)
    {custom : List (Value × Value)} {record : GrantRecord} {w' : World}
    (h : exec (grant key s.did custom) w = (.ok record, w'))
    (hagree : X25519.Agree priv (w.entropy.draw 32).1) :
    SharedKey mk priv s.settings.space s.did k w'.store := by
  obtain ⟨mk', k', r, kr, b, ek, blob, json, hmk, hk', hcr, hkr, hb, hu, hsealed, hj, hst, -⟩ :=
    exec_grant_eq_ok hr.faults h
  obtain rfl := hc.masterKey mk' hmk
  rw [hk, Except.ok.injEq] at hk'
  subst hk'
  -- the record resolved is the recipient's published key
  have hr' : s.Ready w' := by
    have := @share_grant s (fun _ => False) hs key s.did (fun _ _ _ => id) custom w hr
    rw [h] at this
    exact this.1
  rw [hr'.recipientKey r hcr, hpriv] at hsealed
  rw [hr.session] at hkr hst
  refine ⟨kr, b, ek, ?_, hb, hu, opensWith_written hsealed hagree hj ?_⟩
  · rw [hst, Store.find?_write, if_neg fun h => (offEntries_grantPath s.did k k).1 h.2.symm,
      Store.find?_touch]
    exact hkr
  · rw [hst, Store.find?_write, if_pos ⟨rfl, rfl⟩]

omit hr in
/-- A rotation that succeeds from a consistent world goes on, after sealing the entry again and
storing it, as fresh grants of the first key drawn, from a world with the same vault and the
entropy further on. -/
theorem exec_rotate_reissues {key : Text} {gs : List Text}
    {cipher : Aead} {report : Rotation.Report} {w' : World}
    (h : exec (rotate key gs cipher) w = (.ok report, w')) :
    ∃ w₂ report₀, exec (reissueAll key (w.entropy.draw 32).1 gs report₀) w₂ = (.ok report, w') ∧
      w₂.vault = w.vault ∧ Entropy.Ahead w.entropy w₂.entropy := by
  unfold rotate at h
  obtain ⟨⟨prev, nk, blob', e'⟩, w₁, h₁, c₁⟩ := exec_bind_eq_ok h
  obtain ⟨-, -, -, -, -, -, -, -, -, -, -, -, -, -, -, -, rfl, -, -, -⟩ :=
    exec_resealEntry_eq_ok hc.faults h₁
  obtain ⟨jb, je, hjb, hje⟩ := resealed_toJson hc h₁
  have hv₁ : w₁.vault = w.vault := by
    have := vault_reads.resealEntry key cipher w hc.faults
    rwa [h₁] at this
  have ha₁ : Entropy.Ahead w.entropy w₁.entropy := by
    have := ahead_resealEntry key cipher w hc.faults
    rw [h₁] at this
    exact this.2
  obtain ⟨u, w₂, h₂, c₂⟩ := exec_bind_eq_ok c₁
  rw [exec_storeEntry (by rw [hv₁]; exact hc.faults) hjb hje, Prod.mk.injEq] at h₂
  obtain ⟨-, rfl⟩ := h₂
  exact ⟨_, _, c₂, hv₁, ha₁⟩

include hpriv in
/-- A rotation of the shared entry from a consistent world that caches the recipient's key:
the grant still opens to the key the owner reads the entry with, whether the rotation fails,
before it writes, or succeeds and seals the recipient a grant of the fresh key. -/
theorem sharedKey_rotate (hcached : (w.vault.cache.lookup s.did).isSome)
    (hstr : s.settings.space.IsString) {k : Text} {gs : List Text} (hnd : gs.Nodup)
    (hslash : ∀ g ∈ gs, 47 ∉ g.points) (hR : s.did ∈ gs) (cipher : Aead)
    (hsk : SharedKey mk priv s.settings.space s.did k w.store)
    (hagree : ∀ n, w.entropy.used ≤ n → n < (exec (rotate k gs cipher) w).2.entropy.used →
      X25519.Agree priv (Entropy.window w.entropy.seed n 32)) :
    SharedKey mk priv s.settings.space s.did k (exec (rotate k gs cipher) w).2.store := by
  have hstr' : w.vault.settings.space.IsString := by rw [hr.settings]; exact hstr
  rcases hres : exec (rotate k gs cipher) w with ⟨_ | report, w'⟩
  · -- a rotation of a consistent entry fails before it writes
    have hrec := records_reads.resealEntry k cipher w
    rw [exec_rotate_error hc hstr' hres] at hrec
    exact hsk.keep (hrec _ _) (hrec _ _)
  rw [hres] at hagree
  dsimp only at hagree ⊢
  obtain ⟨w₂, report₀, h₂, hv₂, ha₂⟩ := exec_rotate_reissues hc hres
  obtain ⟨r, hcr⟩ := Option.isSome_iff_exists.mp hcached
  have hopen := reissueAll_opens hnd hslash hR ((hr.recipientKey r hcr).trans hpriv)
    (by rw [hv₂]; exact hr.faults) (by rw [hv₂]; exact hstr') (by rw [hv₂]; exact hcr) h₂
    fun n hn hn' => by
      rw [ha₂.1]
      exact hagree n (Nat.le_trans ha₂.2 hn) hn'
  -- the entry's key blob now wraps the fresh key the grant opens to
  obtain ⟨p, ct, -, hrot⟩ := exec_rotate_eq_ok hc hnd hslash hres
  obtain ⟨kr, vr, b, hkr, -, hb, hu, -⟩ := hrot.after
  rw [hv₂, hr.session] at hopen
  exact ⟨kr, b, _, hkr, hb, hu, hopen⟩

include hpriv in
/-- A revoke of another grantee of the shared entry keeps the grant opening to the key the owner
reads the entry with: it fails having written nothing, or it erases the other grant and rotates
the entry for the grantees left, the recipient among them. -/
theorem sharedKey_revoke (hs : s.Valid) (hcached : (w.vault.cache.lookup s.did).isSome)
    (hstr : s.settings.space.IsString) {key : Value} {k : Text} (hk : EntryName.ofValue key = .ok k)
    {g : Text} (hg : g ≠ s.did) (hsk : SharedKey mk priv s.settings.space s.did k w.store)
    (hagree : ∀ n, w.entropy.used ≤ n → n < (exec (revoke key g) w).2.entropy.used →
      X25519.Agree priv (Entropy.window w.entropy.seed n 32)) :
    SharedKey mk priv s.settings.space s.did k (exec (revoke key g) w).2.store := by
  rcases exec_revoke_cases hr.faults key g with ⟨-, hrec⟩ | ⟨k', hk', hmem, hrev⟩
  · exact hsk.keep (hrec _ _) (hrec _ _)
  rw [hk, Except.ok.injEq] at hk'
  subst hk'
  rw [hrev] at hagree ⊢
  rw [hr.session] at hmem hagree ⊢
  -- erasing the other grant keeps every record the share rests on
  have hkept : ∀ m q, q ≠ Grant.path g k →
      ((w.store.touch s.settings.space).erase s.settings.space (Grant.path g k)).find? m q =
        w.store.find? m q := fun m q hq => by
    rw [Store.find?_erase, if_neg fun h => hq h.2, Store.find?_touch]
  have hpath : s.did ≠ g → Grant.path s.did k ≠ Grant.path g k := fun hne he =>
    hne (Grant.path_inj (Share.slash_not_mem_did hs) (Grant.noSlash_of_mem_recipients hmem) he).1
  have hc₀ := hc.of_keeps ((KeepsEntries.touch w s.settings.space).trans
    (KeepsEntries.erase _ s.settings.space (offEntries_grantPath g k)))
  have hr₀ : s.Ready { w with
      store := (w.store.touch s.settings.space).erase s.settings.space (Grant.path g k) } := by
    have hkeep : (keepsShare s fun _ => False).rel w { w with
        store := (w.store.touch s.settings.space).erase s.settings.space (Grant.path g k) } :=
      keepsShare_of_store rfl fun m q hq => hkept m q fun he => by
        rcases hq with hq | hq
        · rw [he, head_grantPath] at hq
          cases hq
        · exact hq
    exact (hkeep hr).1
  obtain ⟨kr, b, ek, hkr, hb, hu, gr, rec, blob, hgr, hrest⟩ := hsk
  have hR : s.did ∈ (grantees w.store s.settings.space k).filter (· != g) :=
    List.mem_filter.mpr ⟨mem_grantees_of_present (Share.recipient_did hs) (EntryName.points_ne_nil hk)
      (by rw [hgr]; rfl), bne_iff_ne.mpr fun h => hg h.symm⟩
  exact sharedKey_rotate hc₀ hr₀ hpriv hcached hstr ((Grant.nodup_recipients _).filter _)
    (fun g' hg' => Grant.noSlash_of_mem_recipients (List.mem_of_mem_filter hg')) hR _
    ⟨kr, b, ek, (hkept _ _ (offEntries_grantPath g k k).1.symm).trans hkr, hb, hu, gr, rec, blob,
      (hkept _ _ (hpath fun h => hg h.symm)).trans hgr, hrest⟩ hagree

end Calls

end Vault

end Strongbox
