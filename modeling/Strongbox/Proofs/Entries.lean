import Strongbox.Proofs.Frame
import Strongbox.Proofs.Records

/-!
# The two records of an entry

`EntryRecords mk kr vr p ct` says what the vault reads from an entry's key blob `kr` and
envelope `vr`: the blob unwraps under the master key `mk` to a 32-byte entry key, the envelope
names that key and opens under it to `p`, and records `ct` as its content type. Records that a
write stores are of this form (`entryRecords_written`).

Then what the steps of a write and of a rotation return when they succeed: the sealed records
are `KeyBlob.wrapped` and `Envelope.sealed` forms under the vault's cipher, with nonces of the
right size. Storing both records writes both paths, and nothing else, once each has JSON text;
an envelope without one fails after the key blob is written (`exec_storeEntry_unwritable`).
-/

namespace Strongbox

/-! ## Headers of text -/

namespace Headers

theorem mem_foldl_insert {p : Text × Text} (entries : List (Value × Value)) (h : Headers)
    (hp : p ∈ entries.foldl (fun h e => h.insert e.1.display e.2.display) h) :
    p ∈ h ∨ ∃ e ∈ entries, p = (e.1.display, e.2.display) := by
  induction entries generalizing h with
  | nil => exact .inl hp
  | cons e entries ih =>
    rw [List.foldl_cons] at hp
    rcases ih _ hp with hp | ⟨e', he', rfl⟩
    · rcases mem_insert hp with hp | rfl
      · exact .inl hp
      · exact .inr ⟨e, List.mem_cons_self, rfl⟩
    · exact .inr ⟨e', List.mem_cons_of_mem _ he', rfl⟩

theorem mem_ofValues {entries : List (Value × Value)} {p : Text × Text}
    (hp : p ∈ Headers.ofValues entries) : ∃ e ∈ entries, p = (e.1.display, e.2.display) := by
  rcases mem_foldl_insert entries [] hp with h | h
  · cases h
  · exact h

theorem allStrings_filter {h : Headers} (hh : Headers.AllStrings h) (f : Text × Text → Bool) :
    Headers.AllStrings (h.filter f) :=
  fun p hp => hh p (List.mem_filter.mp hp).1

/-- Headers kept as pairs of text values read back as themselves. -/
theorem allStrings_ofValues_headerPairs {h : Headers} (hh : Headers.AllStrings h) :
    Headers.AllStrings (Headers.ofValues (Vault.headerPairs h)) := by
  intro p hp
  obtain ⟨e, he, rfl⟩ := mem_ofValues hp
  obtain ⟨q, hq, rfl⟩ := List.mem_map.mp he
  exact hh q hq

theorem mem_of_get? {h : Headers} {k : String} {v : Text} (hv : h.get? k = some v) :
    (Text.ofString k, v) ∈ h := by
  obtain ⟨l₁, l₂, hl, -⟩ := List.lookup_eq_some_iff.mp hv
  rw [hl]
  exact List.mem_append_right _ List.mem_cons_self

theorem isString_of_get? {h : Headers} (hh : Headers.AllStrings h) {k : String} {v : Text}
    (hv : h.get? k = some v) : v.IsString :=
  (hh _ (mem_of_get? hv)).2

end Headers

/-- An envelope whose content type is not a string has no JSON. -/
theorem Envelope.toJson_sealed_ne_of_not_isString {cipher : Aead}
    {entryKey plaintext nonce : ByteArray} {contentType rotation : Text}
    {custom : List (Value × Value)} (hct : ¬contentType.IsString) (json : String) :
    (Envelope.sealed cipher entryKey plaintext nonce contentType rotation custom).toJson ≠
      .ok json := by
  intro hjson
  obtain ⟨-, hstrings⟩ := (Envelope.toJson_ok_iff _).mp ⟨json, hjson⟩
  have hget : (Envelope.sealed cipher entryKey plaintext nonce contentType rotation
      custom).metadata.get? Header.contentType = some contentType :=
    buildMetadata_contentType _ _ _ _ _
  exact hct (Headers.isString_of_get? hstrings hget)

namespace Vault

/-! ## Records that hold a plaintext -/

/-- The key blob `keyRec` unwraps under `mk` to an entry key, and the envelope `valueRec` names
that key and opens under it to `plaintext` of content type `ct`; its headers are distinct
strings. -/
def EntryRecords (mk : ByteArray) (keyRec valueRec : Stored) (plaintext : ByteArray)
    (ct : Text) : Prop :=
  ∃ b ek e, KeyBlob.load keyRec.data.toValue = .ok b ∧ unwrap mk b = .ok ek ∧
    Envelope.load valueRec.data.toValue = .ok e ∧ e.keyId? = some b.keyId ∧
    openValue ek e = .ok plaintext ∧ e.contentType = ct ∧
    (e.metadata.map Prod.fst).Nodup ∧ Headers.AllStrings e.metadata

/-- An unwrapped key has the id its blob records. -/
theorem keyId_of_unwrap {mk ek : ByteArray} {b : KeyBlob} (h : unwrap mk b = .ok ek) :
    b.keyId = Text.ofString (keyId ek) := by
  unfold unwrap at h
  cases hc : Aead.ofText b.cipher with
  | error f => simp [hc] at h
  | ok c =>
    cases hs : decodeSealed b.key with
    | error f => simp [hc, hs] at h
    | ok sealed =>
      cases hd : c.decryptBlob mk sealed with
      | error f => simp [hc, hs, hd] at h
      | ok k =>
        simp only [hc, hs, hd, except_ok_bind] at h
        split at h
        · rename_i heq
          cases h
          exact (beq_iff_eq.mp heq).symm
        · cases h

/-- Records as a write stores them hold what was written. -/
theorem entryRecords_written {blobCipher valueCipher : Aead} {mk ek nb nv plaintext : ByteArray}
    {ct rotation : Text} {custom : List (Value × Value)} {jb je : String}
    (hmk : blobCipher.checkKey mk = .ok ()) (hek : valueCipher.checkKey ek = .ok ())
    (hnb : nb.size = nonceSize)
    (hnv : nv.size = nonceSize) (hjb : (KeyBlob.wrapped blobCipher mk ek nb).toJson = .ok jb)
    (hje : (Envelope.sealed valueCipher ek plaintext nv ct rotation custom).toJson = .ok je)
    (md : List (Value × Value)) :
    EntryRecords mk ⟨.ofString jb, []⟩ ⟨.ofString je, md⟩ plaintext ct := by
  have hnd := nodup_buildMetadata (Text.ofString (keyId ek)) (Text.ofString valueCipher.name) ct
    rotation custom
  obtain ⟨-, hstrings⟩ := (Envelope.toJson_ok_iff _).mp ⟨je, hje⟩
  refine ⟨_, ek, _, KeyBlob.load_toJson hjb, unwrap_wrapped hmk ek hnb,
    Envelope.load_toJson hnd hje, ?_, openValue_sealed hek hnv,
    Envelope.contentType_sealed, hnd, hstrings⟩
  rw [Envelope.keyId?_sealed]
  rfl

/-- The records of one write: the entry key `ek` wrapped under the master key `mk` and the
plaintext sealed under `ek`, each with a nonce of the right size, by ciphers that take the keys. -/
structure SealedRecords (blobCipher valueCipher : Aead) (mk ek plaintext : ByteArray)
    (ct rotation : Text) (custom : List (Value × Value)) (blob : KeyBlob) (e : Envelope) : Prop where
  masterKey : blobCipher.checkKey mk = .ok ()
  entryKey : valueCipher.checkKey ek = .ok ()
  wrapped : ∃ nb, nb.size = nonceSize ∧ blob = KeyBlob.wrapped blobCipher mk ek nb
  sealed : ∃ nv, nv.size = nonceSize ∧
    e = Envelope.sealed valueCipher ek plaintext nv ct rotation custom

namespace SealedRecords

variable {blobCipher valueCipher : Aead} {mk ek plaintext : ByteArray} {ct rotation : Text}
  {custom : List (Value × Value)} {blob : KeyBlob} {e : Envelope}

theorem blob_toJson (hs : SealedRecords blobCipher valueCipher mk ek plaintext ct rotation custom blob e) :
    ∃ jb, blob.toJson = .ok jb := by
  obtain ⟨nb, -, rfl⟩ := hs.wrapped
  exact KeyBlob.toJson_ok (Text.isString_ofString _) (Text.isString_ofString _)
    (Text.isString_ofString _)

theorem unwrap_blob (hs : SealedRecords blobCipher valueCipher mk ek plaintext ct rotation custom blob e) :
    unwrap mk blob = .ok ek := by
  obtain ⟨nb, hnb, rfl⟩ := hs.wrapped
  exact unwrap_wrapped hs.masterKey ek hnb

/-- The envelope has JSON text when the content type, the rotation policy and the caller's
headers are strings. -/
theorem envelope_toJson (hs : SealedRecords blobCipher valueCipher mk ek plaintext ct rotation custom blob e)
    (hct : ct.IsString) (hrot : rotation.IsString)
    (hcustom : Headers.AllStrings (Headers.ofValues custom)) : ∃ je, e.toJson = .ok je := by
  obtain ⟨nv, -, rfl⟩ := hs.sealed
  refine (Envelope.toJson_ok_iff _).mpr ⟨Text.isString_ofString _, ?_⟩
  exact allStrings_buildMetadata _ _ _ _ _ (Text.isString_ofString _) (Text.isString_ofString _)
    hct hrot hcustom

/-- Written as JSON, the records hold the plaintext. -/
theorem entryRecords (hs : SealedRecords blobCipher valueCipher mk ek plaintext ct rotation custom blob e)
    {jb je : String} (hjb : blob.toJson = .ok jb) (hje : e.toJson = .ok je)
    (md : List (Value × Value)) :
    EntryRecords mk ⟨.ofString jb, []⟩ ⟨.ofString je, md⟩ plaintext ct := by
  obtain ⟨nb, hnb, rfl⟩ := hs.wrapped
  obtain ⟨nv, hnv, rfl⟩ := hs.sealed
  exact entryRecords_written hs.masterKey hs.entryKey hnb hnv hjb hje md

end SealedRecords

/-- The content type of a write is a string when the caller's is. -/
theorem isString_contentTypeOf (value : Value) {contentType : Option Text}
    (h : ∀ c, contentType = some c → c.IsString) : (contentTypeOf value contentType).IsString := by
  have hguess : (Content.guess value).IsString := by
    cases value <;> exact Text.isString_ofString _
  cases contentType with
  | none => exact hguess
  | some c =>
    show (if c.isEmpty then Content.guess value else c).IsString
    split
    · exact hguess
    · exact h c rfl

/-! ## What the steps return -/

theorem exec_checkName_eq_ok {key : Value} {k : Text} {w w' : World}
    (h : exec (checkName key) w = (.ok k, w')) : EntryName.ofValue key = .ok k ∧ w' = w := by
  obtain ⟨hx, rfl⟩ := exec_liftExcept_eq_ok h
  refine ⟨?_, rfl⟩
  cases hn : EntryName.ofValue key with
  | ok t => simp [hn, Except.mapError] at hx; rw [hx]
  | error e => simp [hn, Except.mapError] at hx

theorem exec_checkName_of {key : Value} {k : Text} (hk : EntryName.ofValue key = .ok k)
    (w : World) : exec (checkName key) w = (.ok k, w) := by
  rw [checkName, exec_liftExcept, hk]
  rfl

theorem exec_current_eq_ok {v : Vault} {w w' : World} (h : exec current w = (.ok v, w')) :
    v = w.vault ∧ w' = w := by
  rw [exec_current] at h
  simp only [Prod.mk.injEq, Except.ok.injEq] at h
  exact ⟨h.1.symm, h.2.symm⟩

theorem exec_drawing_eq_ok {α : Type} {m : Drawing α} {a : α} {w w' : World}
    (h : exec (drawing m) w = (.ok a, w')) :
    m.run.run w.entropy = (.ok a, w'.entropy) ∧ w' = { w with entropy := w'.entropy } := by
  rw [exec_drawing] at h
  simp only [Prod.mk.injEq] at h
  obtain ⟨h1, rfl⟩ := h
  rw [← h1]
  exact ⟨rfl, rfl⟩

theorem generateEntryKey_run (e : Entropy) :
    generateEntryKey.run.run e = (.ok (e.draw 32).1, (e.draw 32).2) := rfl

theorem encryptBlob_run_error {a : Aead} {key : ByteArray} {err : KeySizeError}
    (hk : a.checkKey key = .error err) (plaintext : ByteArray) (e : Entropy) :
    (a.encryptBlob key plaintext).run.run e = (.error (.keySize err), e) := by
  simp only [Aead.encryptBlob, hk]
  rfl

/-- Whatever follows the encryption of a blob under a refused key, nothing is drawn. -/
theorem encryptBlob_bind_run_error {β : Type} {a : Aead} {key : ByteArray} {err : KeySizeError}
    (hk : a.checkKey key = .error err) (plaintext : ByteArray) (f : ByteArray → Drawing β)
    (e : Entropy) : (a.encryptBlob key plaintext >>= f).run.run e = (.error (.keySize err), e) := by
  rw [ExceptT.run_bind, StateT.run_bind]
  show (match (a.encryptBlob key plaintext).run.run e with
    | (r, e₁) => _) = _
  rw [encryptBlob_run_error hk]
  rfl

/-- A wrap that succeeds had a master key of the right size, and drew one nonce. -/
theorem wrap_eq_ok {cipher : Aead} {mk ek : ByteArray} {blob : KeyBlob} {e e' : Entropy}
    (h : (wrap mk ek cipher).run.run e = (.ok blob, e')) :
    cipher.checkKey mk = .ok () ∧ blob = KeyBlob.wrapped cipher mk ek (e.draw nonceSize).1 ∧
      e' = (e.draw nonceSize).2 := by
  cases hk : cipher.checkKey mk with
  | ok u =>
    -- the run's pair is typed in `Id`, where simp's injectivity lemmas do not fire
    rw [wrap_run hk, Prod.mk.injEq, Except.ok.injEq] at h
    exact ⟨rfl, h.1.symm, h.2.symm⟩
  | error err =>
    rw [wrap, encryptBlob_bind_run_error hk] at h
    cases h

/-- A write's result that seals made a buffer, which was sealed as the plaintext. -/
theorem sealResult_eq_ok {cipher : Aead} {ek : ByteArray} {result : Value} {ct rotation : Text}
    {custom : List (Value × Value)} {env : Envelope} {e e' : Entropy}
    (h : (sealResult ek result cipher ct rotation custom).run.run e = (.ok env, e')) :
    ∃ p, bufferOf result = .ok p ∧
      (sealValue ek p cipher ct rotation custom).run.run e = (.ok env, e') := by
  unfold sealResult at h
  cases hb : bufferOf result with
  | ok p =>
    rw [hb] at h
    exact ⟨p, rfl, h⟩
  | error f =>
    -- no buffer: the seal fails, whether or not it got to draw the nonce
    rw [hb] at h
    dsimp only at h
    split at h <;> cases h

/-- A seal that succeeds had an entry key of the right size, and drew one nonce. -/
theorem sealValue_eq_ok {cipher : Aead} {ek plaintext : ByteArray} {ct rotation : Text}
    {custom : List (Value × Value)} {env : Envelope} {e e' : Entropy}
    (h : (sealValue ek plaintext cipher ct rotation custom).run.run e = (.ok env, e')) :
    cipher.checkKey ek = .ok () ∧
      env = Envelope.sealed cipher ek plaintext (e.draw nonceSize).1 ct rotation custom ∧
      e' = (e.draw nonceSize).2 := by
  cases hk : cipher.checkKey ek with
  | ok u =>
    rw [sealValue_run hk, Prod.mk.injEq, Except.ok.injEq] at h
    exact ⟨rfl, h.1.symm, h.2.symm⟩
  | error err =>
    rw [sealValue, encryptBlob_bind_run_error hk] at h
    cases h

theorem exec_loadKeyBlob_eq_ok {key : Text} {b : KeyBlob} {w w' : World}
    (hf : w.vault.faults = []) (h : exec (loadKeyBlob key) w = (.ok b, w')) :
    ∃ kr, w.store.find? w.vault.session.space (keysPrefix ++ key) = some kr ∧
      KeyBlob.load kr.data.toValue = .ok b ∧
      w' = { w with store := w.store.touch w.vault.session.space } := by
  unfold loadKeyBlob at h
  obtain ⟨r, w₁, h₁, h⟩ := exec_bind_eq_ok h
  rw [exec_storeGet hf] at h₁
  simp only [Prod.mk.injEq, Except.ok.injEq] at h₁
  obtain ⟨rfl, rfl⟩ := h₁
  cases hr : w.store.find? (w.vault.session.resolve none) (keysPrefix ++ key) with
  | none => rw [hr] at h; cases h
  | some kr =>
    rw [hr] at h
    obtain ⟨hb, rfl⟩ := exec_liftExcept_eq_ok h
    exact ⟨kr, hr, hb, rfl⟩

theorem exec_loadEnvelope_eq_ok {key : Text} {e : Envelope} {w w' : World}
    (hf : w.vault.faults = []) (h : exec (loadEnvelope key) w = (.ok e, w')) :
    ∃ vr, w.store.find? w.vault.session.space (valuesPrefix ++ key) = some vr ∧
      Envelope.load vr.data.toValue = .ok e ∧
      w' = { w with store := w.store.touch w.vault.session.space } := by
  unfold loadEnvelope at h
  obtain ⟨r, w₁, h₁, h⟩ := exec_bind_eq_ok h
  rw [exec_storeGet hf] at h₁
  simp only [Prod.mk.injEq, Except.ok.injEq] at h₁
  obtain ⟨rfl, rfl⟩ := h₁
  cases hr : w.store.find? (w.vault.session.resolve none) (valuesPrefix ++ key) with
  | none => rw [hr] at h; cases h
  | some vr =>
    rw [hr] at h
    obtain ⟨he, rfl⟩ := exec_liftExcept_eq_ok h
    exact ⟨vr, hr, he, rfl⟩

theorem exec_loadKeyBlob_of {key : Text} {kr : Stored} {b : KeyBlob} {w : World}
    (hf : w.vault.faults = []) (hr : w.store.find? w.vault.session.space (keysPrefix ++ key) = some kr)
    (hb : KeyBlob.load kr.data.toValue = .ok b) :
    exec (loadKeyBlob key) w =
      (.ok b, { w with store := w.store.touch w.vault.session.space }) := by
  unfold loadKeyBlob
  -- the vault's own space is where a read without one goes
  have hr' : w.store.find? (w.vault.session.resolve none) (keysPrefix ++ key) = some kr := hr
  rw [exec_bind_ok (exec_storeGet hf _ _)]
  simp only [hr', exec_liftExcept, hb]
  rfl
/-- A key kept under the per-key policy is the key the stored blob unwraps to. -/
theorem exec_keptKey_eq_ok {mk : ByteArray} {key : Text} {rotation : Rotation}
    {kept : Option ByteArray} {w w' : World} (hf : w.vault.faults = [])
    (h : exec (keptKey mk key rotation) w = (.ok kept, w')) :
    ∀ ek, kept = some ek → ∃ kr b, w.store.find? w.vault.session.space (keysPrefix ++ key) = some kr ∧
      KeyBlob.load kr.data.toValue = .ok b ∧ unwrap mk b = .ok ek := by
  intro ek hek
  subst hek
  cases rotation with
  | perWrite => cases h
  | perKey =>
    unfold keptKey at h
    rw [exec_tryCatch] at h
    rcases hm : exec (do pure (some (← liftExcept (unwrap mk (← loadKeyBlob key))))) w with
      ⟨r, w₁⟩
    rw [hm] at h
    cases r with
    | ok a =>
      simp only [Prod.mk.injEq, Except.ok.injEq] at h
      obtain ⟨rfl, -⟩ := h
      obtain ⟨b, w₂, h₂, hm⟩ := exec_bind_eq_ok hm
      obtain ⟨kr, hkr, hb, -⟩ := exec_loadKeyBlob_eq_ok hf h₂
      obtain ⟨ek', w₃, h₃, hm⟩ := exec_bind_eq_ok hm
      obtain ⟨hu, -⟩ := exec_liftExcept_eq_ok h₃
      rw [exec_pure] at hm
      simp only [Prod.mk.injEq, Except.ok.injEq, Option.some.injEq] at hm
      obtain ⟨rfl, -⟩ := hm
      exact ⟨kr, b, hkr, hb, hu⟩
    | error f =>
      -- the handler turns only a missing blob into no key
      dsimp only at h
      split at h
      · rw [exec_pure] at h
        simp at h
      · rw [exec_throw] at h
        cases h

/-- Under the per-key policy a stored entry keeps the key its blob unwraps to. -/
theorem exec_keptKey_of_stored {mk : ByteArray} {key : Text} {kr : Stored} {b : KeyBlob}
    {ek : ByteArray} {w : World} (hf : w.vault.faults = [])
    (hr : w.store.find? w.vault.session.space (keysPrefix ++ key) = some kr)
    (hb : KeyBlob.load kr.data.toValue = .ok b) (hu : unwrap mk b = .ok ek) :
    exec (keptKey mk key .perKey) w =
      (.ok (some ek), { w with store := w.store.touch w.vault.session.space }) := by
  unfold keptKey
  rw [exec_tryCatch, exec_bind_ok (exec_loadKeyBlob_of hf hr hb), exec_bind_ok
    (by rw [exec_liftExcept, hu]), exec_pure]

theorem exec_entryKeyOf_eq_ok {kept : Option ByteArray} {ek : ByteArray} {w w' : World}
    (h : exec (entryKeyOf kept) w = (.ok ek, w')) :
    kept = some ek ∨ (kept = none ∧ ek = (w.entropy.draw 32).1) := by
  cases kept with
  | some k =>
    simp only [entryKeyOf, exec_pure, Prod.mk.injEq, Except.ok.injEq] at h
    exact .inl (by rw [h.1])
  | none =>
    refine .inr ⟨rfl, ?_⟩
    unfold entryKeyOf at h
    obtain ⟨h₁, -⟩ := exec_drawing_eq_ok h
    rw [generateEntryKey_run, Prod.mk.injEq, Except.ok.injEq] at h₁
    exact h₁.1.symm

/-- A write that seals its records had the vault unlocked with master key `mk`, a good name and
a plaintext, and sealed it under an entry key `ek` by the vault's cipher: the key the lookup of
the kept key found, if it found one. This holds whatever faults are pending. -/
theorem exec_sealEntry_sealed {key value : Value} {contentType : Option Text}
    {custom : List (Value × Value)} {writing : Writing} {k : Text} {blob : KeyBlob} {e : Envelope}
    {w w' : World}
    (h : exec (sealEntry key value contentType custom writing) w = (.ok (k, blob, e), w')) :
    ∃ mk ek p kept w₁, w.vault.masterKey = some mk ∧ EntryName.ofValue key = .ok k ∧
      plaintextOf value (contentTypeOf value contentType) writing = .ok p ∧
      SealedRecords w.vault.settings.cipher w.vault.settings.cipher mk ek p
        (contentTypeOf value contentType) (Text.ofString w.vault.settings.rotation.name) custom
        blob e ∧
      exec (keptKey mk k w.vault.settings.rotation) w = (.ok kept, w₁) ∧
      ∀ ek₀, kept = some ek₀ → ek = ek₀ := by
  unfold sealEntry at h
  obtain ⟨⟨mk, i⟩, w₁, h₁, c₁⟩ := exec_bind_eq_ok h
  obtain ⟨hmk, -, rfl⟩ := exec_requireUnlocked_eq_ok h₁
  obtain ⟨k', w₂, h₂, c₂⟩ := exec_bind_eq_ok c₁
  obtain ⟨hk, rfl⟩ := exec_checkName_eq_ok h₂
  obtain ⟨v, w₃, h₃, c₃⟩ := exec_bind_eq_ok c₂
  obtain ⟨rfl, rfl⟩ := exec_current_eq_ok h₃
  obtain ⟨p, w₄, h₄, c₄⟩ := exec_bind_eq_ok c₃
  obtain ⟨hp, rfl⟩ := exec_liftExcept_eq_ok h₄
  obtain ⟨kept, w₅, h₅, c₅⟩ := exec_bind_eq_ok c₄
  obtain ⟨ek, w₆, h₆, c₆⟩ := exec_bind_eq_ok c₅
  obtain ⟨blob', w₇, h₇, c₇⟩ := exec_bind_eq_ok c₆
  obtain ⟨e', w₈, h₈, c₈⟩ := exec_bind_eq_ok c₇
  rw [exec_pure, Prod.mk.injEq, Except.ok.injEq] at c₈
  obtain ⟨hr, -⟩ := c₈
  cases hr
  -- the two draws: the key blob, then the envelope
  obtain ⟨hw₇, -⟩ := exec_drawing_eq_ok h₇
  obtain ⟨hmkc, rfl, -⟩ := wrap_eq_ok hw₇
  obtain ⟨hw₈, -⟩ := exec_drawing_eq_ok h₈
  obtain ⟨q, hq, hw₈⟩ := sealResult_eq_ok hw₈
  obtain ⟨hekc, rfl, -⟩ := sealValue_eq_ok hw₈
  refine ⟨mk, ek, q, kept, w₅, hmk, hk, by rw [plaintextOf, hp]; exact hq, ⟨hmkc, hekc,
    ⟨_, Entropy.size_draw _ _, rfl⟩,
    ⟨_, Entropy.size_draw _ _, rfl⟩⟩, h₅, fun ek₀ hkept => ?_⟩
  -- a kept key is the entry key
  rcases exec_entryKeyOf_eq_ok h₆ with h | ⟨h, -⟩
  · rw [hkept] at h
    exact (Option.some.inj h).symm
  · rw [hkept] at h
    cases h

/-- With no faults pending, sealing also leaves the entries as they were, and under the per-key
policy the entry key is the one the stored blob unwraps to. -/
theorem exec_sealEntry_eq_ok {key value : Value} {contentType : Option Text}
    {custom : List (Value × Value)} {writing : Writing} {k : Text} {blob : KeyBlob} {e : Envelope}
    {w w' : World} (hf : w.vault.faults = [])
    (h : exec (sealEntry key value contentType custom writing) w = (.ok (k, blob, e), w')) :
    ∃ mk ek p, w.vault.masterKey = some mk ∧ EntryName.ofValue key = .ok k ∧
      plaintextOf value (contentTypeOf value contentType) writing = .ok p ∧
      SealedRecords w.vault.settings.cipher w.vault.settings.cipher mk ek p
        (contentTypeOf value contentType) (Text.ofString w.vault.settings.rotation.name) custom
        blob e ∧
      (w.vault.settings.rotation = .perKey → ∀ kr b ek₀,
        w.store.find? w.vault.session.space (keysPrefix ++ k) = some kr →
        KeyBlob.load kr.data.toValue = .ok b → unwrap mk b = .ok ek₀ → ek = ek₀) ∧
      KeepsEntries w w' := by
  have hkeep : KeepsEntries w w' := by
    have := frames_sealEntry key value contentType custom writing w hf
    rwa [h] at this
  obtain ⟨mk, ek, p, kept, w₁, hmk, hk, hp, hsealed, hkept, hek⟩ := exec_sealEntry_sealed h
  refine ⟨mk, ek, p, hmk, hk, hp, hsealed, fun hrot kr b ek₀ hkr hb hu => ?_, hkeep⟩
  -- the kept key is the stored one
  rw [hrot, exec_keptKey_of_stored hf hkr hb hu, Prod.mk.injEq, Except.ok.injEq] at hkept
  exact hek ek₀ hkept.1.symm

/-- The policy an envelope records, or the per-write policy. -/
theorem isString_getD {h : Headers} (hh : Headers.AllStrings h) (k d : String) :
    ((h.get? k).getD (Text.ofString d)).IsString := by
  cases hv : h.get? k with
  | none => exact Text.isString_ofString d
  | some v => exact Headers.isString_of_get? hh hv

/-- What a rotation seals again is written as JSON when the envelope it read has string
headers. -/
theorem Envelope.resealed_strings {e : Envelope} (hh : Headers.AllStrings e.metadata) :
    e.contentType.IsString ∧
      ((e.metadata.get? Header.keyRotation).getD (Text.ofString Rotation.perWrite.name)).IsString ∧
      Headers.AllStrings (Headers.ofValues (headerPairs e.customMetadata)) :=
  ⟨isString_getD hh _ _, isString_getD hh _ _,
    Headers.allStrings_ofValues_headerPairs (Headers.allStrings_filter hh _)⟩

/-- The records a rotation seals again from an envelope with string headers have JSON text. -/
theorem SealedRecords.toJson_of_resealed {blobCipher valueCipher : Aead} {mk ek p : ByteArray}
    {blob : KeyBlob} {e e' : Envelope} (hh : Headers.AllStrings e.metadata)
    (hs : SealedRecords blobCipher valueCipher mk ek p e.contentType
      ((e.metadata.get? Header.keyRotation).getD (Text.ofString Rotation.perWrite.name))
      (headerPairs e.customMetadata) blob e') :
    ∃ jb je, blob.toJson = .ok jb ∧ e'.toJson = .ok je := by
  obtain ⟨hct, hrot, hcustom⟩ := Envelope.resealed_strings hh
  obtain ⟨jb, hjb⟩ := hs.blob_toJson
  obtain ⟨je, hje⟩ := hs.envelope_toJson hct hrot hcustom
  exact ⟨jb, je, hjb, hje⟩

/-- A rotation that seals an entry again read both of its records, opened the value, drew a
fresh entry key and sealed the value under it, keeping the envelope's cipher, content type,
policy and the caller's headers; the key blob is wrapped by `cipher`. Nothing is written. -/
theorem exec_resealEntry_eq_ok {key : Text} {cipher : Aead} {prev : Text} {newKey : ByteArray}
    {blob' : KeyBlob} {e' : Envelope} {w w' : World} (hf : w.vault.faults = [])
    (h : exec (resealEntry key cipher) w = (.ok (prev, newKey, blob', e'), w')) :
    ∃ mk kr vr b e ek p valueCipher, w.vault.masterKey = some mk ∧
      w.store.find? w.vault.session.space (keysPrefix ++ key) = some kr ∧
      KeyBlob.load kr.data.toValue = .ok b ∧
      w.store.find? w.vault.session.space (valuesPrefix ++ key) = some vr ∧
      Envelope.load vr.data.toValue = .ok e ∧ unwrap mk b = .ok ek ∧ openValue ek e = .ok p ∧
      prev = b.keyId ∧ newKey = (w.entropy.draw 32).1 ∧
      Aead.ofText e.cipher = .ok valueCipher ∧
      SealedRecords cipher valueCipher mk newKey p e.contentType
        ((e.metadata.get? Header.keyRotation).getD (Text.ofString Rotation.perWrite.name))
        (headerPairs e.customMetadata) blob' e' ∧
      KeepsEntries w w' := by
  have hkeep : KeepsEntries w w' := by
    have := frames_resealEntry key cipher w hf
    rwa [h] at this
  unfold resealEntry at h
  obtain ⟨⟨mk, i⟩, w₁, h₁, c₁⟩ := exec_bind_eq_ok h
  obtain ⟨hmk, -, rfl⟩ := exec_requireUnlocked_eq_ok h₁
  obtain ⟨b, w₂, h₂, c₂⟩ := exec_bind_eq_ok c₁
  obtain ⟨kr, hkr, hb, rfl⟩ := exec_loadKeyBlob_eq_ok hf h₂
  obtain ⟨e, w₃, h₃, c₃⟩ := exec_bind_eq_ok c₂
  obtain ⟨vr, hvr, he, rfl⟩ := exec_loadEnvelope_eq_ok (by exact hf) h₃
  rw [Store.find?_touch] at hvr
  obtain ⟨ek, w₄, h₄, c₄⟩ := exec_bind_eq_ok c₃
  obtain ⟨hu, rfl⟩ := exec_liftExcept_eq_ok h₄
  obtain ⟨p, w₅, h₅, c₅⟩ := exec_bind_eq_ok c₄
  obtain ⟨hp, rfl⟩ := exec_liftExcept_eq_ok h₅
  obtain ⟨nk, w₆, h₆, c₆⟩ := exec_bind_eq_ok c₅
  obtain ⟨c, w₇, h₇, c₇⟩ := exec_bind_eq_ok c₆
  obtain ⟨hc, rfl⟩ := exec_liftExcept_eq_ok h₇
  obtain ⟨e'', w₈, h₈, c₈⟩ := exec_bind_eq_ok c₇
  obtain ⟨blob'', w₉, h₉, c₉⟩ := exec_bind_eq_ok c₈
  rw [exec_pure, Prod.mk.injEq, Except.ok.injEq] at c₉
  obtain ⟨hr, -⟩ := c₉
  cases hr
  -- three draws: the entry key, the envelope's nonce, the key blob's nonce
  obtain ⟨hw₆, -⟩ := exec_drawing_eq_ok h₆
  rw [generateEntryKey_run, Prod.mk.injEq, Except.ok.injEq] at hw₆
  obtain ⟨hw₈, -⟩ := exec_drawing_eq_ok h₈
  obtain ⟨hekc, rfl, -⟩ := sealValue_eq_ok hw₈
  obtain ⟨hw₉, -⟩ := exec_drawing_eq_ok h₉
  obtain ⟨hmkc, rfl, -⟩ := wrap_eq_ok hw₉
  exact ⟨mk, kr, vr, b, e, ek, p, c, hmk, hkr, hb, hvr, he, hu, hp, rfl, hw₆.1.symm, hc,
    ⟨hmkc, hekc, ⟨_, Entropy.size_draw _ _, rfl⟩, ⟨_, Entropy.size_draw _ _, rfl⟩⟩, hkeep⟩

/-! ## Storing both records -/

section Storing

theorem exec_attempt_storePut {w : World} (hf : w.vault.faults = []) (path : Text) (data : Data)
    (metadata : List (Value × Value)) :
    exec (attempt (storePut path data metadata)) w =
      (.ok none, { w with store := w.store.write w.vault.session.space path ⟨data, metadata⟩ }) := by
  unfold attempt
  rw [exec_tryCatch, exec_bind, exec_storePut hf]
  rfl

variable {w : World} (hf : w.vault.faults = [])
include hf

/-- Both records with JSON text are written, the key blob first. -/
theorem exec_storeEntry {key : Text} {blob : KeyBlob} {e : Envelope} {jb je : String}
    (hb : blob.toJson = .ok jb) (he : e.toJson = .ok je) :
    exec (storeEntry key blob e) w =
      (.ok (), { w with
        store := (w.store.write w.vault.session.space (keysPrefix ++ key) ⟨.ofString jb, []⟩).write
          w.vault.session.space (valuesPrefix ++ key) ⟨.ofString je, headerPairs e.metadata⟩ }) := by
  unfold storeEntry
  rw [exec_bind_ok (by rw [exec_liftExcept, hb]), exec_bind_ok (exec_attempt_storePut hf _ _ _),
    exec_bind_ok (by rw [exec_liftExcept, he]),
    exec_bind_ok (exec_attempt_storePut (w := { w with
      store := w.store.write w.vault.session.space (keysPrefix ++ key) ⟨.ofString jb, []⟩ }) hf _ _ _)]
  rfl

/-- An envelope without JSON text fails the write after its key blob is stored. -/
theorem exec_storeEntry_unwritable {key : Text} {blob : KeyBlob} {e : Envelope} {jb : String}
    {f : Failure} (hb : blob.toJson = .ok jb) (he : e.toJson = .error f) :
    exec (storeEntry key blob e) w =
      (.error f, { w with
        store := w.store.write w.vault.session.space (keysPrefix ++ key) ⟨.ofString jb, []⟩ }) := by
  unfold storeEntry
  rw [exec_bind_ok (by rw [exec_liftExcept, hb]), exec_bind_ok (exec_attempt_storePut hf _ _ _),
    exec_bind_error (by rw [exec_liftExcept, he])]

omit hf in
/-- A write whose records could not be sealed fails where sealing left the world. -/
theorem exec_put_of_unsealed {key value : Value} {contentType : Option Text}
    {custom : List (Value × Value)} {writing : Writing} {f : Failure} {w₁ : World}
    (hs : exec (sealEntry key value contentType custom writing) w = (.error f, w₁)) :
    exec (put key value contentType custom writing) w = (.error f, w₁) := by
  unfold put
  exact exec_bind_error hs

/-- A write whose records were sealed and have JSON text stores both and answers the value's
headers. -/
theorem exec_put_of_sealed {key value : Value} {contentType : Option Text}
    {custom : List (Value × Value)} {writing : Writing} {k : Text} {blob : KeyBlob} {e : Envelope}
    {jb je : String} {w₁ : World}
    (hs : exec (sealEntry key value contentType custom writing) w = (.ok (k, blob, e), w₁))
    (hb : blob.toJson = .ok jb) (he : e.toJson = .ok je) :
    exec (put key value contentType custom writing) w =
      (.ok e.metadata, { w₁ with
        store := (w₁.store.write w₁.vault.session.space (keysPrefix ++ k) ⟨.ofString jb, []⟩).write
          w₁.vault.session.space (valuesPrefix ++ k) ⟨.ofString je, headerPairs e.metadata⟩ }) := by
  have hf₁ : w₁.vault.faults = [] := by
    have := frames_sealEntry key value contentType custom writing w hf
    rw [hs] at this
    exact this.faults.trans hf
  unfold put
  rw [exec_bind_ok hs]
  show exec (storeEntry k blob e >>= fun _ => pure e.metadata) w₁ = _
  rw [exec_bind_ok (exec_storeEntry hf₁ hb he), exec_pure]

/-- A write whose envelope has no JSON text fails with its key blob stored. -/
theorem exec_put_of_unwritable {key value : Value} {contentType : Option Text}
    {custom : List (Value × Value)} {writing : Writing} {k : Text} {blob : KeyBlob} {e : Envelope}
    {jb : String} {f : Failure} {w₁ : World}
    (hs : exec (sealEntry key value contentType custom writing) w = (.ok (k, blob, e), w₁))
    (hb : blob.toJson = .ok jb) (he : e.toJson = .error f) :
    exec (put key value contentType custom writing) w =
      (.error f, { w₁ with
        store := w₁.store.write w₁.vault.session.space (keysPrefix ++ k) ⟨.ofString jb, []⟩ }) := by
  have hf₁ : w₁.vault.faults = [] := by
    have := frames_sealEntry key value contentType custom writing w hf
    rw [hs] at this
    exact this.faults.trans hf
  unfold put
  rw [exec_bind_ok hs]
  exact exec_bind_error (exec_storeEntry_unwritable hf₁ hb he)

end Storing

/-! ## Writes that go through -/

theorem plaintextOf_eq_ok {value : Value} {contentType : Text} {writing : Writing}
    {p : ByteArray} (h : plaintextOf value contentType writing = .ok p) :
    ∃ r, writing.produce value contentType = .ok r ∧ bufferOf r = .ok p := by
  rw [plaintextOf] at h
  cases hr : writing.produce value contentType with
  | error f => rw [hr] at h; cases h
  | ok r => rw [hr] at h; exact ⟨r, rfl, h⟩

theorem sealResult_of_buffer {ek : ByteArray} {result : Value} {p : ByteArray} (cipher : Aead)
    (ct rotation : Text) (custom : List (Value × Value)) (h : bufferOf result = .ok p) :
    sealResult ek result cipher ct rotation custom = sealValue ek p cipher ct rotation custom := by
  rw [sealResult, h]

theorem exec_keptKey_perWrite (mk : ByteArray) (key : Text) (w : World) :
    exec (keptKey mk key .perWrite) w = (.ok none, w) := rfl

theorem exec_entryKeyOf_none (w : World) :
    exec (entryKeyOf none) w =
      (.ok (w.entropy.draw 32).1, { w with entropy := (w.entropy.draw 32).2 }) := by
  rw [entryKeyOf, exec_drawing, generateEntryKey_run]

section Progress

variable {w : World} {mk : ByteArray} {i : Keys.Identity}
  (hmk : w.vault.masterKey = some mk) (hi : w.vault.identity = some i)
include hmk hi

/-- Under the per-write policy, an unlocked vault whose master key is 32 bytes seals a write with
a fresh entry key and then two fresh nonces, one for the key blob and one for the value. -/
theorem exec_sealEntry_perWrite (hsize : mk.size = 32)
    (hrot : w.vault.settings.rotation = .perWrite) {key value : Value} {k : Text}
    {contentType : Option Text} {custom : List (Value × Value)} {writing : Writing}
    {p : ByteArray} (hk : EntryName.ofValue key = .ok k)
    (hp : plaintextOf value (contentTypeOf value contentType) writing = .ok p) :
    ∃ blob e, SealedRecords w.vault.settings.cipher w.vault.settings.cipher mk
        (w.entropy.draw 32).1 p (contentTypeOf value contentType)
        (Text.ofString w.vault.settings.rotation.name) custom blob e ∧
      exec (sealEntry key value contentType custom writing) w =
        (.ok (k, blob, e), { w with
          entropy := (((w.entropy.draw 32).2.draw nonceSize).2.draw nonceSize).2 }) := by
  let e₁ := (w.entropy.draw 32).2
  let e₂ := (e₁.draw nonceSize).2
  obtain ⟨r, hr, hb⟩ := plaintextOf_eq_ok hp
  have hmkc := Aead.checkKey_of_size (a := w.vault.settings.cipher) hsize
  have hekc := Aead.checkKey_of_size (a := w.vault.settings.cipher) (Entropy.size_draw w.entropy 32)
  refine ⟨_, _, ⟨hmkc, hekc, ⟨(e₁.draw nonceSize).1, Entropy.size_draw _ _, rfl⟩,
    ⟨(e₂.draw nonceSize).1, Entropy.size_draw _ _, rfl⟩⟩, ?_⟩
  unfold sealEntry
  rw [exec_bind_ok (exec_requireUnlocked_of hmk hi)]
  dsimp only
  rw [exec_bind_ok (exec_checkName_of hk _), exec_bind_ok (exec_current _),
    exec_bind_ok (by rw [exec_liftExcept, hr]), hrot, exec_bind_ok (exec_keptKey_perWrite _ _ _),
    exec_bind_ok (exec_entryKeyOf_none _), exec_bind_ok (by rw [exec_drawing, wrap_run hmkc]),
    exec_bind_ok (by rw [exec_drawing, sealResult_of_buffer _ _ _ _ hb, sealValue_run hekc]),
    exec_pure]

/-- Under the per-write policy, an unlocked vault without faults whose master key is 32 bytes
writes a good name whose value has a plaintext, when its content type and headers are strings;
it draws an entry key and two nonces. -/
theorem exec_put_perWrite (hf : w.vault.faults = []) (hsize : mk.size = 32)
    (hrot : w.vault.settings.rotation = .perWrite) {key value : Value} {k : Text}
    {contentType : Option Text} {custom : List (Value × Value)} {writing : Writing}
    {p : ByteArray} (hk : EntryName.ofValue key = .ok k)
    (hp : plaintextOf value (contentTypeOf value contentType) writing = .ok p)
    (hct : ∀ c, contentType = some c → c.IsString)
    (hcustom : Headers.AllStrings (Headers.ofValues custom)) :
    ∃ h st, exec (put key value contentType custom writing) w = (.ok h, { w with
      store := st, entropy := (((w.entropy.draw 32).2.draw nonceSize).2.draw nonceSize).2 }) ∧
      ∃ kr b, st.find? w.vault.session.space (keysPrefix ++ k) = some kr ∧
        KeyBlob.load kr.data.toValue = .ok b ∧ unwrap mk b = .ok (w.entropy.draw 32).1 := by
  obtain ⟨blob, e, hsealed, hs⟩ := exec_sealEntry_perWrite hmk hi hsize hrot hk hp
  obtain ⟨jb, hjb⟩ := hsealed.blob_toJson
  obtain ⟨je, hje⟩ := hsealed.envelope_toJson (isString_contentTypeOf value hct)
    (Text.isString_ofString _) hcustom
  rw [exec_put_of_sealed hf hs hjb hje]
  refine ⟨_, _, rfl, ⟨.ofString jb, []⟩, blob, ?_, KeyBlob.load_toJson hjb, hsealed.unwrap_blob⟩
  rw [Store.find?_write, if_neg fun h => keys_ne_values k k h.2, Store.find?_write,
    if_pos ⟨rfl, rfl⟩]

end Progress

end Vault

end Strongbox
