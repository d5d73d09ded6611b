import Strongbox.Keys
import Strongbox.Proofs.Encoding

/-!
# The bytes a signature stands for

Both derived secrets are HKDF of the bytes a signer's answer stands for. An empty answer is
refused, but the test is made on the answer and not on its bytes: text that is `0x` or `0X`
followed by ASCII blanks only is not empty, and reads as hexadecimal for no bytes at all. That
is the one way to reach HKDF with empty key material (`requestSignature_size_eq_zero_iff`);
every other answer is refused or stands for at least one byte. A refused answer is a failure to
derive keys, except text with a lone surrogate, which has no UTF-8 and fails as such.
-/

namespace Strongbox

namespace Keys

/-- Text that stands for no bytes: `0x` or `0X` followed by nothing but ASCII blanks. -/
def blankHex (t : Text) : Bool :=
  match t.points with
  | 0x30 :: x :: rest =>
    (x == 0x78 || x == 0x58) && rest.all fun c => Hex.isAsciiBlank (Char.ofNat c)
  | _ => false

end Keys

/-! ## Blanks and hexadecimal text -/

namespace Hex

/-- Lenient reading gives no bytes exactly when it meets nothing but blanks: a character that
is no blank starts a byte or leaves the text unread. -/
theorem spacedBytes?_eq_some_nil_iff :
    ∀ cs : List Char, spacedBytes? cs = some [] ↔ ∀ c ∈ cs, isAsciiBlank c = true
  | [] => by simp [spacedBytes?]
  | c :: rest => by
    rw [spacedBytes?.eq_def]
    dsimp only
    split
    · rename_i hc
      simp [hc, spacedBytes?_eq_some_nil_iff rest]
    · rename_i hc
      cases rest with
      | nil => simp [hc]
      | cons d rest' => simp [hc, Option.bind_eq_some_iff]

theorem size_ofHexSpaced? {s : String} {b : ByteArray} (h : ofHexSpaced? s = some b) :
    b.size = 0 ↔ ∀ c ∈ s.toList, isAsciiBlank c = true := by
  obtain ⟨l, hl, rfl⟩ := Option.map_eq_some_iff.mp h
  rw [← spacedBytes?_eq_some_nil_iff, hl, Option.some.injEq]
  simp [ByteArray.size]

/-- A blank character is an ASCII one, so the code point it was read from is its own. -/
theorem toNat_ofNat_of_blank {c : Nat} (h : isAsciiBlank (Char.ofNat c) = true) :
    (Char.ofNat c).toNat = c ∧ c < 128 := by
  by_cases hv : c.isValidChar
  · have hc : (Char.ofNat c).toNat = c := by
      rw [Char.ofNat, dif_pos hv]
      rfl
    refine ⟨hc, ?_⟩
    simp only [isAsciiBlank, Bool.or_eq_true, beq_iff_eq] at h
    rw [← hc]
    rcases h with ((((h | h) | h) | h) | h) | h <;> rw [h] <;> decide
  · rw [Char.ofNat, dif_neg hv] at h
    exact absurd h (by decide)

end Hex

/-! ## UTF-8 of text -/

theorem Text.utf8Point_ne_nil (c : Nat) : Text.utf8Point c ≠ [] := by
  unfold Text.utf8Point
  split_ifs <;> simp

/-- Text has UTF-8 of no bytes only when it has no code point. -/
theorem Text.size_encode? {t : Text} {b : ByteArray} (h : t.encode? = some b) :
    b.size = 0 ↔ t.points = [] := by
  unfold encode? at h
  split at h
  · cases h
  · cases h
    show (t.points.flatMap utf8Point).toArray.size = 0 ↔ _
    rw [List.size_toArray, List.length_eq_zero_iff, List.flatMap_eq_nil_iff]
    constructor
    · intro hall
      cases hp : t.points with
      | nil => rfl
      | cons c cs => exact absurd (hall c (by simp [hp])) (utf8Point_ne_nil c)
    · intro hp c hc
      rw [hp] at hc
      cases hc

namespace Keys

/-! ## Signature bytes -/

/-- Blank hexadecimal text stands for no bytes. -/
theorem signatureBytes_blankHex {t : Text} (h : blankHex t = true) :
    signatureBytes (.str t) = .ok ByteArray.empty := by
  unfold blankHex at h
  split at h
  · rename_i x rest hp
    simp only [Bool.and_eq_true, Bool.or_eq_true, beq_iff_eq, List.all_eq_true] at h
    obtain ⟨hx, hrest⟩ := h
    have hpoint := fun c hc => Hex.toNat_ofNat_of_blank (hrest c hc)
    -- the blanks are code points of a string, and that string reads as no bytes
    have hstr : Text.toString? ⟨rest⟩ = some (String.ofList (rest.map Char.ofNat)) := by
      rw [Text.toString?, if_pos]
      simp only [List.all_eq_true, Bool.and_eq_true, Bool.not_eq_true']
      intro c hc
      have := (hpoint c hc).2
      exact ⟨by simp [Text.isSurrogate]; omega, by simp; omega⟩
    have hhex : Hex.ofHexSpaced? (String.ofList (rest.map Char.ofNat)) = some ByteArray.empty := by
      have hnil : Hex.spacedBytes? (rest.map Char.ofNat) = some [] :=
        (Hex.spacedBytes?_eq_some_nil_iff _).mpr (by simpa using hrest)
      simp [Hex.ofHexSpaced?, hnil]
      rfl
    have hx' : (x == 0x78 || x == 0x58) = true := by simpa using hx
    simp [signatureBytes, hp, hx', hstr, hhex]
  · cases h

/-- The bytes of text stand for nothing only when the text is blank hexadecimal or empty. -/
theorem signatureBytes_str_size {t : Text} {b : ByteArray} (h : signatureBytes (.str t) = .ok b) :
    b.size = 0 ↔ blankHex t = true ∨ t.points = [] := by
  constructor
  · intro hb
    simp only [signatureBytes] at h
    split at h
    · rename_i b' hp
      obtain rfl := Except.ok.inj h
      split at hp
      · rename_i x rest hpts
        split_ifs at hp with hx
        obtain ⟨s, hs, hh⟩ := Option.bind_eq_some_iff.mp hp
        have hall := (Hex.size_ofHexSpaced? hh).mp hb
        -- the string read is the rest of the text, every code point of it a blank
        have hsr : s = String.ofList (rest.map Char.ofNat) := by
          unfold Text.toString? at hs
          split at hs
          · exact (Option.some.inj hs).symm
          · cases hs
        refine .inl ?_
        simp only [blankHex, hpts, hx, Bool.true_and, List.all_eq_true]
        intro c hc
        exact hall _ (by rw [hsr, String.toList_ofList]; exact List.mem_map_of_mem hc)
      · cases hp
    · -- text that did not read as hexadecimal stands for its UTF-8
      split at h
      · obtain rfl := Except.ok.inj h
        exact .inr ((Text.size_encode? ‹_›).mp hb)
      · cases h
  · rintro (hb | hp)
    · rw [signatureBytes_blankHex hb, Except.ok.injEq] at h
      rw [← h]
      rfl
    · have he : signatureBytes (.str t) = .ok ByteArray.empty := by
        simp [signatureBytes, hp, Text.encode?, Text.encodePassing]
        rfl
      rw [he, Except.ok.injEq] at h
      rw [← h]
      rfl

/-- Reading an answer fails only on text with a lone surrogate or on a value of another type. -/
theorem signatureBytes_failure {v : Value} {f : Failure} (h : signatureBytes v = .error f) :
    f = .surrogateText ∨ ∃ n, f = .signatureType n := by
  cases v with
  | str t =>
    simp only [signatureBytes] at h
    split at h
    · cases h
    · split at h
      · cases h
      · exact .inl (Except.error.inj h).symm
  | bytes b => cases h
  | _ => exact .inr ⟨_, (Except.error.inj h).symm⟩

/-! ## Asking the signer -/

/-- The key material from a signer is empty exactly when the signer answered blank
hexadecimal text. -/
theorem requestSignature_size_eq_zero_iff {s : Signer} {m : Text} {sig : ByteArray}
    (h : requestSignature s m = .ok sig) :
    sig.size = 0 ↔ ∃ t, s.sign m = .ok (.str t) ∧ blankHex t = true := by
  unfold requestSignature at h
  cases hs : s.sign m with
  | error r => rw [hs] at h; cases h
  | ok v =>
    rw [hs] at h
    simp only at h
    split at h
    · cases h
    · rename_i htruthy
      have hv : signatureBytes v = .ok sig := by
        revert h
        split <;> intro h
        · cases h
        · exact h
      cases v with
      | str t =>
        -- a truthy text has a code point, so only blank hexadecimal is left
        have hne : t.points ≠ [] := by simpa [Value.truthy] using htruthy
        rw [signatureBytes_str_size hv]
        simp [hne]
      | bytes b =>
        have hb : b.size ≠ 0 := by simpa [Value.truthy] using htruthy
        rw [signatureBytes, Except.ok.injEq] at hv
        subst hv
        simp [hb]
      | _ => cases hv

/-- Asking for a signature fails as a failure to derive keys, or on text with a lone
surrogate. -/
theorem requestSignature_failure {s : Signer} {m : Text} {f : Failure}
    (h : requestSignature s m = .error f) : f.kind = .keyDerivation ∨ f = .surrogateText := by
  unfold requestSignature at h
  cases hs : s.sign m with
  | error r => rw [hs, Except.error.injEq] at h; exact .inl (h ▸ rfl)
  | ok v =>
    rw [hs] at h
    simp only at h
    split at h
    · exact .inl ((Except.error.inj h) ▸ rfl)
    · revert h
      split <;> intro h
      · exact .inl ((Except.error.inj h) ▸ rfl)
      · rcases signatureBytes_failure h with hf | ⟨n, rfl⟩
        · exact .inr hf
        · rename_i hnot
          exact absurd h (hnot n)

/-- The master key of a scope fails only for a scope with a lone surrogate. -/
theorem masterKeyOf_failure {sig : ByteArray} {scope : Text} {f : Failure}
    (h : masterKeyOf sig scope = .error f) : f = .surrogateText := by
  unfold masterKeyOf at h
  split at h
  · cases h
  · exact (Except.error.inj h).symm

/-- Both secrets are derived from the bytes of the signer's answer: a derivation fails as a
failure to derive keys or on a lone surrogate (in the answer, or in the scope of a master key),
or it runs HKDF on those bytes, which are empty exactly when the signer answered `0x` or `0X`
followed by ASCII blanks only. -/
theorem derivation_input_empty_iff (s : Signer) (scope : Text) :
    (∀ f, deriveMasterKey s scope = .error f → f.kind = .keyDerivation ∨ f = .surrogateText) ∧
    (∀ f, deriveIdentity s = .error f → f.kind = .keyDerivation ∨ f = .surrogateText) ∧
    (∀ k, deriveMasterKey s scope = .ok k →
      ∃ sig, requestSignature s (masterMessage scope) = .ok sig ∧ masterKeyOf sig scope = .ok k ∧
        (sig.size = 0 ↔ ∃ t, s.sign (masterMessage scope) = .ok (.str t) ∧ blankHex t = true)) ∧
    (∀ i, deriveIdentity s = .ok i →
      ∃ sig, requestSignature s identityMessage = .ok sig ∧ i = identityOf sig ∧
        (sig.size = 0 ↔ ∃ t, s.sign identityMessage = .ok (.str t) ∧ blankHex t = true)) := by
  refine ⟨fun f hf => ?_, fun f hf => ?_, fun k hk => ?_, fun i hi => ?_⟩
  · unfold deriveMasterKey at hf
    cases hr : requestSignature s (masterMessage scope) with
    | error f' =>
      rw [hr, except_error_bind, Except.error.injEq] at hf
      exact hf ▸ requestSignature_failure hr
    | ok sig =>
      rw [hr, except_ok_bind] at hf
      exact .inr (masterKeyOf_failure hf)
  · unfold deriveIdentity at hf
    cases hr : requestSignature s identityMessage with
    | error f' =>
      simp only [hr, Except.map, Except.error.injEq] at hf
      exact hf ▸ requestSignature_failure hr
    | ok sig => rw [hr] at hf; cases hf
  · unfold deriveMasterKey at hk
    cases hr : requestSignature s (masterMessage scope) with
    | error f' => rw [hr] at hk; cases hk
    | ok sig =>
      rw [hr, except_ok_bind] at hk
      exact ⟨sig, rfl, hk, requestSignature_size_eq_zero_iff hr⟩
  · unfold deriveIdentity at hi
    cases hr : requestSignature s identityMessage with
    | error f' => rw [hr] at hi; cases hi
    | ok sig =>
      simp only [hr, Except.map, Except.ok.injEq] at hi
      exact ⟨sig, rfl, hi.symm, requestSignature_size_eq_zero_iff hr⟩

/-- A signer that answers blank hexadecimal text gives every scope the master key of the empty
signature, and the identity of the empty signature: the same keys for every such signer. -/
theorem blankHex_answer_keys {s : Signer} {t : Text} (hb : blankHex t = true) (scope : Text)
    (hm : s.sign (masterMessage scope) = .ok (.str t))
    (hi : s.sign identityMessage = .ok (.str t)) :
    deriveMasterKey s scope = masterKeyOf ByteArray.empty scope ∧
      deriveIdentity s = .ok (identityOf ByteArray.empty) := by
  have hne : (Value.str t).truthy = true := by
    unfold blankHex at hb
    split at hb
    · rename_i x rest hp
      simp [Value.truthy, hp]
    · cases hb
  have hreq : ∀ m, s.sign m = .ok (.str t) → requestSignature s m = .ok ByteArray.empty := by
    intro m hsm
    simp [requestSignature, hsm, hne, signatureBytes_blankHex hb]
  exact ⟨by rw [deriveMasterKey, hreq _ hm, except_ok_bind],
    by rw [deriveIdentity, hreq _ hi]; rfl⟩

/-- A signer that always answers `0x`. -/
theorem blankHex_answer_keys_fixed :
    let s : Signer := ⟨fun _ => .ok (Value.ofString "0x")⟩
    let scope := Text.ofString "space1"
    blankHex (Text.ofString "0x") = true ∧
    s.sign (masterMessage scope) = .ok (.str (Text.ofString "0x")) ∧
    s.sign identityMessage = .ok (.str (Text.ofString "0x")) ∧
    deriveMasterKey s scope = masterKeyOf ByteArray.empty scope ∧
      deriveIdentity s = .ok (identityOf ByteArray.empty) :=
  ⟨by decide, rfl, rfl, blankHex_answer_keys (by decide) _ rfl rfl⟩

end Keys

end Strongbox
