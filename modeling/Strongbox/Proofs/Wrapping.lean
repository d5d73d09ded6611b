import Strongbox.Proofs.Grants
import Strongbox.Proofs.Entries

/-!
# Wrapped keys and grants read back

An entry key wrapped under a master key is stored as the JSON of its key blob. Read back, the
blob records the key's id and the cipher, and unwraps to the key; with any other key id, or a
cipher name outside the registry, it unwraps to nothing and the failure is one of integrity.

A grant seals the entry key of such a blob to a recipient's public key. Its blob is the
ephemeral public key, a nonce, the sealed key and a tag, so it is 60 bytes longer than the key.
Stored as the JSON of a grant record, it reads back to a record whose blob the recipient's
private key opens to the entry key, and whose space, grantor and grant version are the vault's
own whatever headers the caller added. Opening rests on the curve agreeing on the recipient's
key and the ephemeral one drawn (`X25519.Agree`).
-/

namespace Strongbox

/-! ## Key sizes and cipher names -/

namespace Aead

/-- The key sizes, in bytes, a cipher takes. -/
def keySizes : Aead → List Nat
  | aesGcm => [16, 24, 32]
  | chacha20Poly1305 => [32]

theorem checkKey_eq_ok_iff (a : Aead) (key : ByteArray) :
    a.checkKey key = .ok () ↔ key.size ∈ a.keySizes := by
  cases a with
  | aesGcm =>
    simp only [checkKey, Aes.rounds?, keySizes, List.mem_cons, List.not_mem_nil, or_false]
    split_ifs <;> simp_all
  | chacha20Poly1305 =>
    simp only [checkKey, keySizes, List.mem_singleton]
    split_ifs <;> simp_all

/-- The name a registered cipher goes by, and no other, looks it up. -/
theorem ofName?_eq_some {s : String} {a : Aead} (h : ofName? s = some a) : s = a.name := by
  unfold ofName? at h
  split_ifs at h with h₁ h₂ <;> cases h
  · exact beq_iff_eq.mp h₁
  · exact beq_iff_eq.mp h₂

/-- A cipher's name holds neither the replacement character nor a null. -/
theorem name_plain (a : Aead) : ∀ c ∈ a.name.toList, c ≠ '�' ∧ c.toNat ≠ 0 := by
  cases a <;> simp [Aead.name]

end Aead

/-- Text whose lossy string is `s` is `s` itself when `s` holds neither the replacement
character nor a null: a surrogate would read as the one, a point beyond Unicode as the other. -/
theorem Text.eq_ofString_of_toStringLossy {t : Text} {s : String} (h : t.toStringLossy = s)
    (hs : ∀ c ∈ s.toList, c ≠ '�' ∧ c.toNat ≠ 0) : t = Text.ofString s := by
  have hlist : t.points.map (fun c => if isSurrogate c then '�' else Char.ofNat c) = s.toList := by
    rw [← h, toStringLossy, String.toList_ofList]
  -- each point is read back from the character it became
  have hpoint : ∀ c ∈ t.points, (if isSurrogate c then '�' else Char.ofNat c).toNat = c := by
    intro c hc
    have hmem := hs _ (hlist ▸ List.mem_map_of_mem hc)
    split_ifs at hmem ⊢ with hsur
    · exact absurd rfl hmem.1
    · by_cases hv : c.isValidChar
      · rw [Char.ofNat, dif_pos hv]
        rfl
      · exact absurd (by simp [Char.ofNat, hv]) hmem.2
  cases t with
  | mk points =>
    simp only [ofString, ← hlist, List.map_map]
    congr 1
    exact (List.map_congr_left hpoint).trans (List.map_id _) |>.symm

/-- Only a registered cipher's own name names a cipher. -/
theorem Aead.eq_name_of_ofText {t : Text} {a : Aead} (h : Aead.ofText t = .ok a) :
    t = Text.ofString a.name := by
  simp only [ofText, named] at h
  split at h
  · rename_i a' ha'
    obtain rfl : a' = a := Except.ok.inj h
    exact Text.eq_ofString_of_toStringLossy (Aead.ofName?_eq_some ha') (Aead.name_plain _)
  · cases h

/-- A name outside the registry is an unknown cipher. -/
theorem Aead.ofText_unregistered {t : Text} (ht : ∀ a : Aead, t ≠ Text.ofString a.name) :
    Aead.ofText t = .error (.unknownCipher t.quoted) := by
  simp only [ofText, named]
  split
  · rename_i a ha
    exact absurd (Text.eq_ofString_of_toStringLossy (Aead.ofName?_eq_some ha) (Aead.name_plain a))
      (ht a)
  · rfl

/-! ## Key blobs -/

section KeyBlobs

variable {c : Aead} {mk : ByteArray}

/-- A key blob that unwraps under `mk` unwraps to nothing once its key id is replaced. -/
theorem unwrap_other_keyId {b : KeyBlob} {ek : ByteArray} (hu : unwrap mk b = .ok ek) {t : Text}
    (ht : t ≠ b.keyId) : unwrap mk { b with keyId := t } = .error (.keyIdMismatch t) := by
  have hid := Vault.keyId_of_unwrap hu
  unfold unwrap at hu ⊢
  cases hc : Aead.ofText b.cipher with
  | error f => simp [hc] at hu
  | ok a =>
    cases hs : decodeSealed b.key with
    | error f => simp [hc, hs] at hu
    | ok sealed =>
      cases hd : a.decryptBlob mk sealed with
      | error f => simp [hc, hs, hd] at hu
      | ok k =>
        -- the key opened is the one the old id names, which the new id does not
        simp only [hc, hs, hd, except_ok_bind] at hu ⊢
        split at hu
        · cases hu
          rw [if_neg fun he => ht ((beq_iff_eq.mp he).symm.trans hid.symm)]
        · cases hu

/-- A key blob naming a cipher outside the registry unwraps to nothing. -/
theorem unwrap_unregistered (b : KeyBlob) {t : Text} (ht : ∀ a : Aead, t ≠ Text.ofString a.name) :
    unwrap mk { b with cipher := t } = .error (.unknownCipher t.quoted) := by
  simp [unwrap, Aead.ofText_unregistered ht]

/-- Wrapping a key and reading its blob back from JSON: the blob records the key's id and the
cipher's name and unwraps to the key, while any other recorded key id, or a cipher name outside
the registry, makes it unwrap to nothing with an integrity failure. -/
theorem unwrap_wrapped_json (hmk : mk.size ∈ c.keySizes) (ek : ByteArray) (e : Entropy) :
    ∃ blob json, (wrap mk ek c).run.run e = (.ok blob, (e.draw nonceSize).2) ∧
      blob.toJson = .ok json ∧ KeyBlob.load (Value.ofString json) = .ok blob ∧
      blob.keyId = Text.ofString (keyId ek) ∧ blob.cipher = Text.ofString c.name ∧
      unwrap mk blob = .ok ek ∧
      (∀ t, t ≠ blob.keyId →
        ∃ f, unwrap mk { blob with keyId := t } = .error f ∧ f.kind = .integrity) ∧
      (∀ t, (∀ a : Aead, t ≠ Text.ofString a.name) →
        ∃ f, unwrap mk { blob with cipher := t } = .error f ∧ f.kind = .integrity) := by
  have hk := (Aead.checkKey_eq_ok_iff c mk).mpr hmk
  have hu := unwrap_wrapped hk ek (Entropy.size_draw e nonceSize)
  obtain ⟨json, hjson⟩ := KeyBlob.toJson_ok (b := KeyBlob.wrapped c mk ek (e.draw nonceSize).1)
    (Text.isString_ofString _) (Text.isString_ofString _) (Text.isString_ofString _)
  refine ⟨_, json, wrap_run hk ek e, hjson, KeyBlob.load_toJson hjson, rfl, rfl, hu,
    fun t ht => ⟨_, unwrap_other_keyId hu ht, rfl⟩, fun t ht => ⟨_, unwrap_unregistered _ ht, rfl⟩⟩

/-- A 24-byte AES key wraps a 32-byte entry key that reads back. -/
theorem unwrap_wrapped_json_aes192 :
    let mk := Bytes.replicate 24 7
    let ek := Bytes.replicate 32 1
    let e : Entropy := { seed := ByteArray.empty }
    mk.size ∈ Aead.aesGcm.keySizes ∧
    ∃ blob json, (wrap mk ek .aesGcm).run.run e = (.ok blob, (e.draw nonceSize).2) ∧
      blob.toJson = .ok json ∧ KeyBlob.load (Value.ofString json) = .ok blob ∧
      blob.keyId = Text.ofString (keyId ek) ∧ blob.cipher = Text.ofString Aead.aesGcm.name ∧
      unwrap mk blob = .ok ek ∧
      (∀ t, t ≠ blob.keyId →
        ∃ f, unwrap mk { blob with keyId := t } = .error f ∧ f.kind = .integrity) ∧
      (∀ t, (∀ a : Aead, t ≠ Text.ofString a.name) →
        ∃ f, unwrap mk { blob with cipher := t } = .error f ∧ f.kind = .integrity) :=
  ⟨by simp [Aead.keySizes], unwrap_wrapped_json (by simp [Aead.keySizes]) _ _⟩

end KeyBlobs

/-! ## Grants of wrapped keys -/

namespace Grant

/-- A grant of a key blob seals the key it unwraps to. -/
theorem create_run {mk recipient ek : ByteArray} {b : KeyBlob} (hu : unwrap mk b = .ok ek)
    (e : Entropy) : (create mk b recipient).run.run e = (sealEntryKey ek recipient).run.run e := by
  simp [create, hu, create.liftExcept]

/-- A sealed blob is the ephemeral public key, a nonce, the sealed key and its tag. -/
theorem SealedTo.size {recipient ek eph blob : ByteArray} (h : SealedTo recipient ek eph blob) :
    blob.size = 32 + nonceSize + ek.size + tagSize := by
  obtain ⟨shared, nonce, -, hn, rfl⟩ := h
  simp only [ByteArray.size_append, X25519.size_publicKey, hn,
    Aead.size_encryptChecked (checkKey_keyOf shared), tagSize]
  omega

end Grant

namespace GrantRecord

variable (blob : ByteArray) (spaceId grantor : Text) (custom : List (Value × Value))

@[simp] theorem grantor?_build : (build blob spaceId grantor custom).grantor? = some grantor := by
  simp [build, grantor?, Headers.get?]

@[simp] theorem grantVersion_build :
    (build blob spaceId grantor custom).metadata.get? Header.grantVersion =
      some (Text.ofString "1") := by
  simp [build, Headers.get?, Header.grantVersion, Header.grantor]

end GrantRecord

/-- Headers made from pairs whose texts are strings are strings. -/
theorem Headers.allStrings_ofValues {custom : List (Value × Value)}
    (hc : ∀ p ∈ custom, p.1.display.IsString ∧ p.2.display.IsString) :
    Headers.AllStrings (Headers.ofValues custom) := by
  intro p hp
  obtain ⟨q, hq, rfl⟩ := Headers.mem_ofValues hp
  exact hc q hq

/-- A grant of a wrapped key, stored as its record's JSON and read back. The blob is the
ephemeral public key, a nonce, the sealed key and a tag, 92 bytes for a 32-byte key; the
recipient's private key opens it to the entry key when the curve agrees on that key and the
ephemeral one drawn; and the record names the vault's space, its grantor and the grant version
whatever the caller's headers say. -/
theorem open_grant_record {c : Aead} {mk : ByteArray} (hmk : mk.size ∈ c.keySizes)
    (ek priv : ByteArray) {spaceId grantor : Text} (hs : spaceId.IsString)
    (hg : grantor.IsString) {custom : List (Value × Value)}
    (hc : ∀ p ∈ custom, p.1.display.IsString ∧ p.2.display.IsString) (e : Entropy)
    (hagree : X25519.Agree priv ((e.draw nonceSize).2.draw 32).1) :
    ∃ kb e₁ blob e₂ json rec,
      (wrap mk ek c).run.run e = (.ok kb, e₁) ∧
      (Grant.create mk kb (X25519.publicKey priv)).run.run e₁ = (.ok blob, e₂) ∧
      blob.size = 32 + 12 + ek.size + 16 ∧
      (GrantRecord.build blob spaceId grantor custom).toJson = .ok json ∧
      GrantRecord.load (Value.ofString json) = .ok rec ∧
      (rec.blob >>= Grant.open? priv) = .ok ek ∧
      rec.spaceId = spaceId ∧ rec.grantor? = some grantor ∧
      rec.metadata.get? Header.grantVersion = some (Text.ofString "1") := by
  have hk := (Aead.checkKey_eq_ok_iff c mk).mpr hmk
  set e₁ := (e.draw nonceSize).2
  have hu := unwrap_wrapped hk ek (Entropy.size_draw e nonceSize)
  -- the ephemeral key drawn after the wrap's nonce agrees with `priv`, so the exchange succeeds
  obtain ⟨shared, hx⟩ := hagree.exchange_ok
  obtain ⟨blob, hseal⟩ := @Grant.sealEntryKey_ok ek _ _ _ (X25519.size_publicKey priv) hx
  obtain ⟨hsealed, -⟩ := Grant.sealEntryKey_eq_ok hseal
  obtain ⟨json, hjson⟩ := GrantRecord.toJson_build blob hs hg (Headers.allStrings_ofValues hc)
  refine ⟨_, e₁, blob, _, json, _, wrap_run hk ek e, (Grant.create_run hu e₁).trans hseal,
    by simpa [nonceSize, tagSize] using hsealed.size, hjson,
    GrantRecord.load_build blob spaceId grantor custom hjson, ?_, rfl,
    GrantRecord.grantor?_build _ _ _ _, GrantRecord.grantVersion_build _ _ _ _⟩
  rw [GrantRecord.blob_build, except_ok_bind]
  exact Grant.open?_of_sealedTo hsealed hagree

/-- A grant to a recipient whose key agrees with the ephemeral key drawn, with a caller's header
that tries to name another grantor. -/
theorem open_grant_record_overriding_grantor :
    let mk := Bytes.replicate 32 7
    let ek := Bytes.replicate 32 1
    let priv := Bytes.replicate 32 2
    let spaceId := Text.ofString "tinycloud:pkh:eip155:1:0xa1:default"
    let grantor := Text.ofString "did:pkh:eip155:1:0xa1"
    let custom : List (Value × Value) := [(Value.ofString Header.grantor, Value.ofString "mallory")]
    let e : Entropy := { seed := ByteArray.empty }
    mk.size ∈ Aead.aesGcm.keySizes ∧ spaceId.IsString ∧ grantor.IsString ∧
    (∀ p ∈ custom, p.1.display.IsString ∧ p.2.display.IsString) ∧
    X25519.Agree priv ((e.draw nonceSize).2.draw 32).1 ∧
    ∃ kb e₁ blob e₂ json rec,
      (wrap mk ek .aesGcm).run.run e = (.ok kb, e₁) ∧
      (Grant.create mk kb (X25519.publicKey priv)).run.run e₁ = (.ok blob, e₂) ∧
      blob.size = 32 + 12 + ek.size + 16 ∧
      (GrantRecord.build blob spaceId grantor custom).toJson = .ok json ∧
      GrantRecord.load (Value.ofString json) = .ok rec ∧
      (rec.blob >>= Grant.open? priv) = .ok ek ∧
      rec.spaceId = spaceId ∧ rec.grantor? = some grantor ∧
      rec.metadata.get? Header.grantVersion = some (Text.ofString "1") := by
  have hmk : (Bytes.replicate 32 7).size ∈ Aead.aesGcm.keySizes := by simp [Aead.keySizes]
  have hcustom : ∀ p ∈ [(Value.ofString Header.grantor, Value.ofString "mallory")],
      p.1.display.IsString ∧ p.2.display.IsString := by
    simp [Value.ofString, Value.display, Text.isString_ofString]
  have hagree : X25519.Agree (Bytes.replicate 32 2)
      (((({ seed := ByteArray.empty } : Entropy).draw nonceSize).2.draw 32).1) := by
    decide +kernel
  exact ⟨hmk, Text.isString_ofString _, Text.isString_ofString _, hcustom, hagree,
    open_grant_record hmk _ _ (Text.isString_ofString _) (Text.isString_ofString _) hcustom _
      hagree⟩

end Strongbox
