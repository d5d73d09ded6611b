import Strongbox.Proofs.RotatedHeaders

/-!
# Sealed values read back

A value is sealed under its entry key into an envelope: the sealed bytes and headers of text.
The headers are the caller's, each name and value as its display text, with the six the vault
writes laid over them. Written as JSON and read back, the envelope opens under the entry key to
the plaintext and records the key id, the cipher, the content type and the rotation policy,
whatever the caller's headers say; the caller's headers come back as a dictionary, where a name
given twice takes its last value and a name with the vault's prefix is the vault's own. A content
type that is not a string leaves the envelope with no JSON to store.
-/

namespace Strongbox

namespace Headers

/-- Under each name, the headers made from pairs of values hold the display text of the value of
the last pair whose key displays as that name. -/
theorem lookup_ofValues (custom : List (Value × Value)) (n : Text) :
    (ofValues custom).lookup n =
      ((custom.filter fun e => e.1.display == n).getLast?).map fun e => e.2.display := by
  induction custom using List.reverseRecOn with
  | nil => rfl
  | append_singleton custom e ih =>
    rw [ofValues, List.foldl_append, ← ofValues]
    by_cases hn : e.1.display = n
    · simp [hn]
    · simp [hn, ih, Ne.symm hn]

end Headers

/-- Every header the vault writes has its prefix. -/
theorem Header.startsWith_written {s : String} (hs : s ∈ Header.written) :
    (Text.ofString s).startsWith (Text.ofString Header.reservedPrefix) = true := by
  simp only [Header.written, List.mem_cons, List.mem_nil_iff, or_false] at hs
  rcases hs with rfl | rfl | rfl | rfl | rfl | rfl <;> rfl

section Sealed

variable {cipher : Aead} {entryKey plaintext nonce : ByteArray} {contentType rotation : Text}
  {custom : List (Value × Value)}

/-- The caller's headers of a sealed envelope: every name without the vault's prefix keeps what
the caller gave under it. -/
theorem Envelope.lookup_customMetadata_sealed (n : Text) :
    (Envelope.sealed cipher entryKey plaintext nonce contentType rotation
        custom).customMetadata.lookup n =
      if n.startsWith (Text.ofString Header.reservedPrefix) then none
      else (Headers.ofValues custom).lookup n := by
  rw [Envelope.customMetadata, Headers.lookup_filter_prefix]
  split
  · rfl
  · -- every name the vault writes has its prefix, so `n` is none of them
    rename_i hn
    refine lookup_buildMetadata_of_not_written _ _ _ _ _ fun s hs heq => hn ?_
    rw [heq]
    exact Header.startsWith_written hs

theorem Envelope.nodup_customMetadata_sealed :
    ((Envelope.sealed cipher entryKey plaintext nonce contentType rotation
        custom).customMetadata.map Prod.fst).Nodup :=
  Headers.nodup_filter (nodup_buildMetadata _ _ _ _ _) _

/-- The six headers the vault writes, in their order. -/
theorem Envelope.written_sealed :
    Header.written.map (Envelope.sealed cipher entryKey plaintext nonce contentType rotation
        custom).metadata.get? =
      [some (Text.ofString "1"), some (Text.ofString cipher.name),
        some (Text.ofString (keyId entryKey)), some contentType,
        some (Text.ofString "hkdf-sha256"), some rotation] := by
  simp [Header.written, Envelope.sealed]

end Sealed

/-! ## Envelopes through their JSON -/

/-- A value sealed under an entry key of a size the cipher takes, written as its envelope's JSON
and read back. -/
theorem sealed_value_reads_back {c : Aead} {ek : ByteArray} (hek : ek.size ∈ c.keySizes)
    (p : ByteArray) {t : Text} (ht : t.IsString) (r : Rotation) {m : List (Value × Value)}
    (hm : ∀ x ∈ m, x.1.display.IsString ∧ x.2.display.IsString) (ent : Entropy) :
    ∃ sealed json e,
      (sealValue ek p c t (Text.ofString r.name) m).run.run ent =
        (.ok sealed, (ent.draw nonceSize).2) ∧
      sealed.toJson = .ok json ∧ Envelope.load (Value.ofString json) = .ok e ∧
      openValue ek e = .ok p ∧ e.keyId? = some (Text.ofString (keyId ek)) ∧
      e.cipher = Text.ofString c.name ∧ e.contentType = t ∧
      Header.written.map e.metadata.get? =
        [some (Text.ofString "1"), some (Text.ofString c.name), some (Text.ofString (keyId ek)),
          some t, some (Text.ofString "hkdf-sha256"), some (Text.ofString r.name)] ∧
      (∀ n, e.customMetadata.lookup n =
        if n.startsWith (Text.ofString Header.reservedPrefix) then none
        else ((m.filter fun x => x.1.display == n).getLast?).map fun x => x.2.display) ∧
      (e.customMetadata.map Prod.fst).Nodup := by
  have hk := (Aead.checkKey_eq_ok_iff c ek).mpr hek
  set sealed := Envelope.sealed c ek p (ent.draw nonceSize).1 t (Text.ofString r.name) m
  -- every text the envelope holds is a string, so it has JSON
  have hstrings : Headers.AllStrings sealed.metadata :=
    allStrings_buildMetadata _ _ _ _ _ (Text.isString_ofString _) (Text.isString_ofString _) ht
      (Text.isString_ofString _) (Headers.allStrings_ofValues hm)
  obtain ⟨json, hjson⟩ :=
    (Envelope.toJson_ok_iff sealed).mpr ⟨Text.isString_ofString _, hstrings⟩
  refine ⟨sealed, json, sealed, sealValue_run hk p t _ m ent, hjson,
    Envelope.load_toJson (nodup_buildMetadata _ _ _ _ _) hjson,
    openValue_sealed hk (Entropy.size_draw ent nonceSize), Envelope.keyId?_sealed,
    Envelope.cipher_sealed, Envelope.contentType_sealed, Envelope.written_sealed, fun n => ?_,
    Envelope.nodup_customMetadata_sealed⟩
  rw [Envelope.lookup_customMetadata_sealed, Headers.lookup_ofValues]

/-- A ChaCha20 envelope under the per-key policy, whose caller's headers give one name twice
(as a number and as text) and try to set the cipher. -/
theorem sealed_value_reads_back_chacha :
    let m : List (Value × Value) :=
      [(.int 1, .ofString "a"), (.ofString "1", .ofString "b"),
        (.ofString Header.cipher, .ofString "none")]
    (Bytes.replicate 32 1).size ∈ Aead.chacha20Poly1305.keySizes ∧
    (Text.ofString "text/plain").IsString ∧
    (∀ x ∈ m, x.1.display.IsString ∧ x.2.display.IsString) ∧
    ∃ sealed json e,
      (sealValue (Bytes.replicate 32 1) (Bytes.replicate 3 7) .chacha20Poly1305
          (Text.ofString "text/plain") (Text.ofString Rotation.perKey.name) m).run.run
          { seed := ByteArray.empty } =
        (.ok sealed, (({ seed := ByteArray.empty } : Entropy).draw nonceSize).2) ∧
      sealed.toJson = .ok json ∧ Envelope.load (Value.ofString json) = .ok e ∧
      openValue (Bytes.replicate 32 1) e = .ok (Bytes.replicate 3 7) ∧
      e.keyId? = some (Text.ofString (keyId (Bytes.replicate 32 1))) ∧
      e.cipher = Text.ofString Aead.chacha20Poly1305.name ∧
      e.contentType = Text.ofString "text/plain" ∧
      Header.written.map e.metadata.get? =
        [some (Text.ofString "1"), some (Text.ofString Aead.chacha20Poly1305.name),
          some (Text.ofString (keyId (Bytes.replicate 32 1))), some (Text.ofString "text/plain"),
          some (Text.ofString "hkdf-sha256"), some (Text.ofString Rotation.perKey.name)] ∧
      (∀ n, e.customMetadata.lookup n =
        if n.startsWith (Text.ofString Header.reservedPrefix) then none
        else ((m.filter fun x => x.1.display == n).getLast?).map fun x => x.2.display) ∧
      (e.customMetadata.map Prod.fst).Nodup := by
  intro m
  have hm : ∀ x ∈ m, x.1.display.IsString ∧ x.2.display.IsString := by
    simp [m, Value.ofString, Value.display, Text.isString_ofString]
  exact ⟨by simp [Aead.keySizes], Text.isString_ofString _, hm,
    sealed_value_reads_back (by simp [Aead.keySizes]) _ (Text.isString_ofString _) _ hm _⟩

/-- A content type holding a lone surrogate is sealed, yet its envelope has no JSON to store. -/
theorem sealed_surrogate_content_type_unwritable :
    ∃ sealed, (sealValue (Bytes.replicate 32 1) ByteArray.empty .aesGcm ⟨[0xD800]⟩
        (Text.ofString Rotation.perWrite.name) []).run.run { seed := ByteArray.empty } =
        (.ok sealed, (({ seed := ByteArray.empty } : Entropy).draw nonceSize).2) ∧
      ∀ json, sealed.toJson ≠ .ok json := by
  have hk : Aead.aesGcm.checkKey (Bytes.replicate 32 1) = .ok () :=
    (Aead.checkKey_eq_ok_iff _ _).mpr (by simp [Aead.keySizes])
  refine ⟨_, sealValue_run hk _ _ _ _ _,
    Envelope.toJson_sealed_ne_of_not_isString fun h => ?_⟩
  exact absurd (h 0xD800 (by simp)).1 (by decide)

end Strongbox
