import Strongbox.Entry.Cipher
import Strongbox.Proofs.Bytes

/-!
# The ciphers open what they seal

Both authenticated ciphers give back the plaintext of their own ciphertext under the same key,
nonce and associated data, and so does the entry cipher's blob format around them. The two
stream ciphers are block-by-block xors with a key stream, so `blockwise_xor_xor` does the work
once the blocks of key stream are known to be long enough; what remains are the sizes of AES
blocks, ChaCha20 blocks and tags.
-/

namespace Strongbox

open Strongbox.Bytes

/-! ## AES -/

namespace Aes

/-- Pushing words of four bytes onto words of four bytes, one per index from the current size
on, keeps every word four bytes long. -/
theorem foldl_push_words (F : Array ByteArray → Nat → ByteArray) (lo : Nat)
    (hF : ∀ w i, lo ≤ i → (∀ j < w.size, (w.getD j .empty).size = 4) → w.size = i →
      (F w i).size = 4) :
    ∀ (n s : Nat) (w : Array ByteArray), lo ≤ s → w.size = s →
      (∀ j < s, (w.getD j .empty).size = 4) →
      ((List.range' s n).foldl (fun w i => w.push (F w i)) w).size = s + n ∧
      ∀ j < s + n,
        (((List.range' s n).foldl (fun w i => w.push (F w i)) w).getD j .empty).size = 4
  | 0, s, w, _, hs, hw => by simpa [hs] using hw
  | n + 1, s, w, hlo, hs, hw => by
    rw [List.range'_succ, List.foldl_cons]
    have hpush := hF w s hlo (hs ▸ hw) hs
    obtain ⟨h1, h2⟩ := foldl_push_words F lo hF n (s + 1) (w.push (F w s)) (by omega)
      (by simp [hs]) (by
        intro j hj
        rw [Array.getD_eq_getD_getElem?, Array.getElem?_push]
        split
        · simpa using hpush
        · rw [← Array.getD_eq_getD_getElem?]
          exact hw j (by omega))
    exact ⟨by omega, fun j hj => h2 j (by omega)⟩

/-- The expanded key of a key whose length is a whole number of words: `4 * (rounds + 1)`
words of four bytes. -/
theorem expandKey_words (key : ByteArray) (rounds : Nat) (h4 : key.size % 4 = 0)
    (hnk : 0 < key.size / 4) (hle : key.size / 4 ≤ 4 * (rounds + 1)) :
    (expandKey key rounds).size = 4 * (rounds + 1) ∧
      ∀ j < 4 * (rounds + 1), ((expandKey key rounds).getD j .empty).size = 4 := by
  have hfirst : ∀ j < key.size / 4,
      ((((List.range (key.size / 4)).toArray.map fun i => slice key (4 * i) 4)).getD j
        .empty).size = 4 := by
    intro j hj
    simp [Array.getD_eq_getD_getElem?, hj]
    omega
  -- the words after the key's own, each the xor of two earlier words
  have := foldl_push_words (fun w i =>
      let nk := key.size / 4
      let prev := w.getD (i - 1) ByteArray.empty
      let temp :=
        if i % nk = 0 then
          let r := prev.data
          ByteArray.mk #[sub (r.getD 1 0) ^^^ rcon (i / nk), sub (r.getD 2 0),
            sub (r.getD 3 0), sub (r.getD 0 0)]
        else if nk > 6 ∧ i % nk = 4 then ⟨prev.data.map sub⟩
        else prev
      xor (w.getD (i - nk) ByteArray.empty) temp) (key.size / 4) ?_
    (4 * (rounds + 1) - key.size / 4) (key.size / 4) _ le_rfl (by simp) hfirst
  · rw [Nat.add_sub_cancel' hle] at this
    exact this
  · intro w i hi hw hsize
    have hprev : (w.getD (i - 1) ByteArray.empty).size = 4 := hw _ (by omega)
    have hback : (w.getD (i - key.size / 4) ByteArray.empty).size = 4 := hw _ (by omega)
    simp only [size_xor, hback]
    split
    · rfl
    · split
      · show min 4 (Array.map sub _).size = 4
        rw [Array.size_map, ByteArray.size_data, hprev]
        rfl
      · rw [hprev]
        rfl

theorem size_shiftRows (s : ByteArray) : (shiftRows s).size = 16 := by
  simp [shiftRows, ← ByteArray.size_data]

theorem size_roundKey {w : Array ByteArray} {rounds : Nat}
    (hw : ∀ j < 4 * (rounds + 1), (w.getD j .empty).size = 4) :
    (roundKey w rounds).size = 16 := by
  simp only [roundKey, ByteArray.size_append]
  rw [hw _ (by omega), hw _ (by omega), hw _ (by omega), hw _ (by omega)]

/-- The schedule of a key of one of the three sizes enciphers any block into sixteen bytes. -/
theorem size_encrypt {key : ByteArray} {k : Schedule} (h : schedule? key = some k)
    (block : ByteArray) : (k.encrypt block).size = 16 := by
  have hwords : ∀ n, rounds? key = some n →
      ∀ j < 4 * (n + 1), ((expandKey key n).getD j .empty).size = 4 := by
    intro n hn
    unfold rounds? at hn
    split at hn
    · cases hn
      exact (expandKey_words key 10 (by omega) (by omega) (by omega)).2
    · split at hn
      · cases hn
        exact (expandKey_words key 12 (by omega) (by omega) (by omega)).2
      · split at hn
        · cases hn
          exact (expandKey_words key 14 (by omega) (by omega) (by omega)).2
        · cases hn
  unfold schedule? at h
  cases hr : rounds? key with
  | none => simp [hr] at h
  | some n =>
    simp only [hr, Option.map_some, Option.some.injEq] at h
    subst h
    simp only [Schedule.encrypt, encryptBlock, size_xor, size_shiftRows,
      size_roundKey (hwords n hr), min_self]

end Aes

/-! ## AES-GCM -/

namespace Gcm

variable {k : Aes.Schedule} (hk : ∀ b, (k.encrypt b).size = 16)
include hk

omit hk in
theorem ctr_eq_blockwise (nonce data : ByteArray) :
    ctr k nonce data = blockwise 16 ((data.size + 15) / 16)
      (fun i b => xor b (k.encrypt (counterBlock nonce (i + 2)))) data := rfl

theorem size_ctr (nonce data : ByteArray) : (ctr k nonce data).size = data.size := by
  rw [ctr_eq_blockwise, size_blockwise_xor (fun i => (hk _).ge)]
  omega

theorem ctr_ctr (nonce data : ByteArray) : ctr k nonce (ctr k nonce data) = data := by
  rw [ctr_eq_blockwise nonce (ctr k nonce data), size_ctr hk, ctr_eq_blockwise]
  exact blockwise_xor_xor (fun i => (hk _).ge) (by omega)

theorem size_tag (nonce aad c : ByteArray) : (tag k nonce aad c).size = 16 := by
  simp [tag, hk]

theorem size_encrypt (nonce plaintext aad : ByteArray) :
    (encrypt k nonce plaintext aad).size = plaintext.size + 16 := by
  rw [encrypt, ByteArray.size_append, size_ctr hk, size_tag hk]

theorem decrypt_encrypt (nonce plaintext aad : ByteArray) :
    decrypt? k nonce (encrypt k nonce plaintext aad) aad = some plaintext := by
  obtain ⟨hc, ht⟩ := split_suffix (c := ctr k nonce plaintext)
    (size_tag hk nonce aad (ctr k nonce plaintext))
  rw [decrypt?, if_neg (by rw [size_encrypt hk]; omega)]
  simp only [encrypt, hc, ht, equalInTime_self, if_true, ctr_ctr hk]

end Gcm

/-! ## ChaCha20-Poly1305 -/

namespace ChaCha20

theorem size_quarter (s : Array UInt32) (a b c d : Nat) : (quarter s a b c d).size = s.size := by
  simp [quarter]

theorem size_doubleRound (s : Array UInt32) : (doubleRound s).size = s.size := by
  simp [doubleRound, size_quarter]

theorem size_rounds (n : Nat) (s : Array UInt32) :
    ((List.range n).foldl (fun s _ => doubleRound s) s).size = s.size := by
  induction n generalizing s with
  | zero => simp
  | succ n ih => simp [List.range_succ, ih, size_doubleRound]

theorem size_initial (key : ByteArray) (counter : Nat) (nonce : ByteArray) :
    (initial key counter nonce).size = 16 := by
  simp [initial]

/-- A block of key stream is 64 bytes. -/
theorem size_block (key : ByteArray) (counter : Nat) (nonce : ByteArray) :
    (block key counter nonce).size = 64 := by
  have hwords := size_array_foldl_append (fun w : UInt32 => ofNatLE 4 w.toNat)
    (fun w => size_ofNatLE 4 w.toNat)
  simp only [block]
  rw [hwords, Array.size_zipWith, size_rounds, size_initial]
  rfl

theorem xorStream_eq_blockwise (key : ByteArray) (counter : Nat) (nonce data : ByteArray) :
    xorStream key counter nonce data = blockwise 64 ((data.size + 63) / 64)
      (fun i b => xor b (block key (counter + i) nonce)) data := rfl

theorem size_xorStream (key : ByteArray) (counter : Nat) (nonce data : ByteArray) :
    (xorStream key counter nonce data).size = data.size := by
  rw [xorStream_eq_blockwise, size_blockwise_xor (fun i => (size_block _ _ _).ge)]
  omega

theorem xorStream_xorStream (key : ByteArray) (counter : Nat) (nonce data : ByteArray) :
    xorStream key counter nonce (xorStream key counter nonce data) = data := by
  rw [xorStream_eq_blockwise key counter nonce (xorStream key counter nonce data),
    size_xorStream, xorStream_eq_blockwise]
  exact blockwise_xor_xor (fun i => (size_block _ _ _).ge) (by omega)

end ChaCha20

theorem Poly1305.size_mac (key msg : ByteArray) : (Poly1305.mac key msg).size = 16 := by
  simp [Poly1305.mac]

namespace ChaChaPoly

theorem size_tag (key nonce aad c : ByteArray) : (tag key nonce aad c).size = 16 := by
  simp only [tag, Poly1305.size_mac]

theorem size_encrypt (key nonce plaintext aad : ByteArray) :
    (encrypt key nonce plaintext aad).size = plaintext.size + 16 := by
  rw [encrypt, ByteArray.size_append, ChaCha20.size_xorStream, size_tag]

theorem decrypt_encrypt (key nonce plaintext aad : ByteArray) :
    decrypt? key nonce (encrypt key nonce plaintext aad) aad = some plaintext := by
  obtain ⟨hc, ht⟩ := split_suffix (c := ChaCha20.xorStream key 1 nonce plaintext)
    (size_tag key nonce aad (ChaCha20.xorStream key 1 nonce plaintext))
  rw [decrypt?, if_neg (by rw [size_encrypt]; omega)]
  simp only [encrypt, hc, ht, equalInTime_self, if_true, ChaCha20.xorStream_xorStream]

end ChaChaPoly

/-! ## The cipher interface -/

namespace Aead

variable {a : Aead} {key : ByteArray}

/-- A key the AES check passes has a schedule. -/
theorem schedule_of_checkKey (hk : aesGcm.checkKey key = .ok ()) :
    ∃ k, Aes.schedule? key = some k := by
  simp only [checkKey] at hk
  split at hk
  · rename_i h
    obtain ⟨n, hn⟩ := Option.isSome_iff_exists.mp h
    exact ⟨⟨Aes.expandKey key n, n⟩, by simp [Aes.schedule?, hn]⟩
  · cases hk

theorem size_encryptChecked (hk : a.checkKey key = .ok ()) (nonce plaintext aad : ByteArray) :
    (a.encryptChecked key nonce plaintext aad).size = plaintext.size + 16 := by
  cases a with
  | aesGcm =>
    obtain ⟨k, hsk⟩ := schedule_of_checkKey hk
    simp only [encryptChecked, hsk]
    exact Gcm.size_encrypt (Aes.size_encrypt hsk) _ _ _
  | chacha20Poly1305 => exact ChaChaPoly.size_encrypt _ _ _ _

/-- Under a key the cipher takes, decryption inverts encryption. -/
theorem decryptChecked_encryptChecked (hk : a.checkKey key = .ok ())
    (nonce plaintext aad : ByteArray) :
    a.decryptChecked key nonce (a.encryptChecked key nonce plaintext aad) aad = some plaintext := by
  cases a with
  | aesGcm =>
    obtain ⟨k, hsk⟩ := schedule_of_checkKey hk
    simp only [encryptChecked, decryptChecked, hsk, Option.bind_some]
    exact Gcm.decrypt_encrypt (Aes.size_encrypt hsk) _ _ _
  | chacha20Poly1305 => exact ChaChaPoly.decrypt_encrypt _ _ _ _

theorem encrypt_of_checkKey (hk : a.checkKey key = .ok ()) (nonce plaintext aad : ByteArray) :
    a.encrypt key nonce plaintext aad = .ok (a.encryptChecked key nonce plaintext aad) := by
  simp [encrypt, hk]

theorem decrypt_of_checkKey (hk : a.checkKey key = .ok ()) (nonce sealed aad : ByteArray) :
    a.decrypt key nonce sealed aad = .ok (a.decryptChecked key nonce sealed aad) := by
  simp [decrypt, hk]

end Aead

/-! ## Digests and the entropy source -/

namespace Sha256

theorem size_round (v : Array UInt32) (k w : UInt32) : (round v k w).size = 8 := rfl

theorem size_compress {s : Array UInt32} (hs : s.size = 8) (b : ByteArray) (start : Nat) :
    (compress s b start).size = 8 := by
  simp only [compress, Array.size_zipWith, hs, List.range_succ, List.foldl_append,
    List.foldl_cons, List.foldl_nil, size_round]
  rfl

/-- A digest is 32 bytes. -/
theorem size_hash (msg : ByteArray) : (hash msg).size = 32 := by
  have hstate : ∀ (l : List Nat) (s : Array UInt32), s.size = 8 →
      (l.foldl (fun s i => compress s (pad msg) (64 * i)) s).size = 8 := by
    intro l
    induction l with
    | nil => intro s hs; exact hs
    | cons i l ih => intro s hs; exact ih _ (size_compress hs _ _)
  have hwords := size_array_foldl_append (fun w : UInt32 => ofNatBE 4 w.toNat)
    (fun w => size_ofNatBE 4 w.toNat)
  simp only [hash]
  rw [hwords, hstate _ _ rfl]
  rfl

end Sha256

/-- A draw of `n` bytes gives `n` bytes. -/
theorem Entropy.size_draw (e : Entropy) (n : Nat) : (e.draw n).1.size = n := by
  have hblocks := size_foldl_append (Entropy.block e.seed) (fun i => Sha256.size_hash _)
  simp only [Entropy.draw, Entropy.window, size_slice, hblocks, ByteArray.size_empty,
    List.length_range']
  omega

/-! ## Sealed blobs -/

namespace Aead

variable {a : Aead} {key : ByteArray}

/-- Sealing draws a nonce and nothing else, and gives the nonce, the ciphertext and the tag. -/
theorem encryptBlob_run (hk : a.checkKey key = .ok ()) (plaintext : ByteArray) (e : Entropy) :
    (a.encryptBlob key plaintext).run.run e =
      (.ok ((e.draw nonceSize).1 ++ a.encryptChecked key (e.draw nonceSize).1 plaintext .empty),
        (e.draw nonceSize).2) := by
  simp [encryptBlob, hk, drawBytes, encrypt_of_checkKey hk]
  rfl

/-- A blob of nonce, ciphertext and tag opens to its plaintext. -/
theorem decryptBlob_seal (hk : a.checkKey key = .ok ()) {nonce : ByteArray}
    (hn : nonce.size = nonceSize) (plaintext : ByteArray) :
    a.decryptBlob key (nonce ++ a.encryptChecked key nonce plaintext .empty) = .ok plaintext := by
  have hc := size_encryptChecked hk nonce plaintext .empty
  have hslice : slice (nonce ++ a.encryptChecked key nonce plaintext .empty) 0 nonceSize = nonce :=
    ByteArray.extract_append_eq_left (by rw [hn]; rfl)
  have hdrop : dropBytes (nonce ++ a.encryptChecked key nonce plaintext .empty) nonceSize =
      a.encryptChecked key nonce plaintext .empty :=
    ByteArray.extract_append_eq_right hn.symm (by rw [ByteArray.size_append])
  rw [decryptBlob, if_neg (by rw [ByteArray.size_append, hc, hn]; simp [nonceSize, tagSize]; omega),
    hslice, hdrop, decrypt_of_checkKey hk, decryptChecked_encryptChecked hk]

end Aead

end Strongbox
