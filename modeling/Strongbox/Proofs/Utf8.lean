import Strongbox.Proofs.Encoding

/-!
# UTF-8 read back

Strict decoding inverts encoding on text free of surrogates. The bytes of one code point decode
to that point whatever follows them (`decodeList_utf8Point`); each length of encoding is one
step of the decoder, stated once for any bytes of its shape. A whole text's bytes then decode to
the text (`decode?_encodePassing`).
-/

namespace Strongbox

namespace Text

/-! ## One step of the decoder per length -/

theorem toNat_toUInt8_of_lt {n : Nat} (h : n < 256) : n.toUInt8.toNat = n := by
  simp [Nat.toUInt8, Nat.mod_eq_of_lt h]

/-- A continuation byte carries six bits under its `10` tag. -/
theorem continuation?_tail {y : Nat} (hy : y < 64) : continuation? (0x80 + y).toUInt8 = some y := by
  have hb : (0x80 + y).toUInt8.toNat = 128 + y := toNat_toUInt8_of_lt (by omega)
  -- the tag test is on bits, so it is checked on the byte's number
  have hand : (128 + y) &&& 192 = 128 := by
    have key : ∀ y < 64, (128 + y) &&& 192 = 128 := by decide
    exact key y hy
  have hcont : ((0x80 + y).toUInt8 &&& 0xC0 == 0x80) = true := by
    rw [beq_iff_eq, ← UInt8.toNat_inj, UInt8.toNat_and, hb]
    exact hand
  rw [continuation?, if_pos hcont, hb]
  congr 1
  omega

theorem decodeList_one {b : UInt8} (hb : b.toNat < 0x80) (rest : List UInt8) :
    decodeList (b :: rest) = (decodeList rest).map (b.toNat :: ·) := by
  have h0 : b < 0x80 := by rw [UInt8.lt_iff_toNat_lt]; simpa using hb
  rw [decodeList.eq_def]
  dsimp only
  rw [if_pos h0]

theorem decodeList_two {b b₁ : UInt8} {x : Nat} (hb : 0xC2 ≤ b.toNat ∧ b.toNat < 0xE0)
    (h₁ : continuation? b₁ = some x) (rest : List UInt8) :
    decodeList (b :: b₁ :: rest) = (decodeList rest).map ((b.toNat % 32 * 64 + x) :: ·) := by
  have h0 : ¬ b < 0x80 := by rw [UInt8.lt_iff_toNat_lt]; simp; omega
  have h2 : 0xC2 ≤ b ∧ b < 0xE0 := by
    rw [UInt8.lt_iff_toNat_lt, UInt8.le_iff_toNat_le]; simpa using hb
  simp only [decodeList, if_neg h0, if_pos h2, h₁]
  cases decodeList rest <;> rfl

theorem decodeList_three {b b₁ b₂ : UInt8} {x y : Nat} (hb : 0xE0 ≤ b.toNat ∧ b.toNat < 0xF0)
    (h₁ : continuation? b₁ = some x) (h₂ : continuation? b₂ = some y)
    (hc : 0x800 ≤ b.toNat % 16 * 4096 + x * 64 + y)
    (hs : isSurrogate (b.toNat % 16 * 4096 + x * 64 + y) = false) (rest : List UInt8) :
    decodeList (b :: b₁ :: b₂ :: rest) =
      (decodeList rest).map ((b.toNat % 16 * 4096 + x * 64 + y) :: ·) := by
  have h0 : ¬ b < 0x80 := by rw [UInt8.lt_iff_toNat_lt]; simp; omega
  have h2 : ¬ (0xC2 ≤ b ∧ b < 0xE0) := by
    rw [UInt8.lt_iff_toNat_lt, UInt8.le_iff_toNat_le]; simp; omega
  have h3 : 0xE0 ≤ b ∧ b < 0xF0 := by
    rw [UInt8.lt_iff_toNat_lt, UInt8.le_iff_toNat_le]; simpa using hb
  rw [decodeList.eq_def]
  dsimp only
  rw [if_neg h0, if_neg h2, if_pos h3]
  simp only [h₁, h₂, Option.bind_some, Option.pure_def, bind]
  rw [if_neg (by simp only [hs, Bool.or_false, decide_eq_true_eq]; omega)]
  cases decodeList rest <;> rfl

/-- Three reads that all succeed, taken out of a do-block by rewriting. Reducing the binds by
unfolding instead makes the kernel unfold the decoder's range tests on large literals. -/
theorem bind_some_three {α : Type} {o₁ o₂ o₃ : Option Nat} {x y z : Nat} (h₁ : o₁ = some x)
    (h₂ : o₂ = some y) (h₃ : o₃ = some z) (f : Nat → Nat → Nat → Option α) :
    (o₁ >>= fun a => o₂ >>= fun b => o₃ >>= fun c => f a b c) = f x y z := by
  subst h₁ h₂ h₃
  rfl

theorem decodeList_four {b b₁ b₂ b₃ : UInt8} {x y z : Nat} (hb : 0xF0 ≤ b.toNat ∧ b.toNat < 0xF5)
    (h₁ : continuation? b₁ = some x) (h₂ : continuation? b₂ = some y)
    (h₃ : continuation? b₃ = some z)
    (hc : 0x10000 ≤ b.toNat % 8 * 262144 + x * 4096 + y * 64 + z)
    (hc' : b.toNat % 8 * 262144 + x * 4096 + y * 64 + z < 0x110000) (rest : List UInt8) :
    decodeList (b :: b₁ :: b₂ :: b₃ :: rest) =
      (decodeList rest).map ((b.toNat % 8 * 262144 + x * 4096 + y * 64 + z) :: ·) := by
  have h0 : ¬ b < 0x80 := by rw [UInt8.lt_iff_toNat_lt]; simp; omega
  have h2 : ¬ (0xC2 ≤ b ∧ b < 0xE0) := by
    rw [UInt8.lt_iff_toNat_lt, UInt8.le_iff_toNat_le]; simp; omega
  have h3 : ¬ (0xE0 ≤ b ∧ b < 0xF0) := by
    rw [UInt8.lt_iff_toNat_lt, UInt8.le_iff_toNat_le]; simp; omega
  have h4 : 0xF0 ≤ b ∧ b < 0xF5 := by
    rw [UInt8.lt_iff_toNat_lt, UInt8.le_iff_toNat_le]; simpa using hb
  rw [decodeList.eq_def]
  dsimp only
  rw [if_neg h0, if_neg h2, if_neg h3, if_pos h4, bind_some_three h₁ h₂ h₃]
  rw [if_neg (by simp only [Bool.or_eq_true, decide_eq_true_eq]; omega)]
  cases decodeList rest <;> rfl

/-! ## Encodings read back -/

/-- Strict decoding reads back the bytes of a scalar value, whatever follows them. -/
theorem decodeList_utf8Point {c : Nat} (hs : isSurrogate c = false) (hc : c < 0x110000)
    (rest : List UInt8) : decodeList (utf8Point c ++ rest) = (decodeList rest).map (c :: ·) := by
  have hy := continuation?_tail (y := c % 64) (Nat.mod_lt _ (by decide))
  unfold utf8Point
  split_ifs with h₁ h₂ h₃
  · have hb := toNat_toUInt8_of_lt (n := c) (by omega)
    rw [List.singleton_append, decodeList_one (by rw [hb]; omega), hb]
  · have hb := toNat_toUInt8_of_lt (n := 0xC0 + c / 64) (by omega)
    have hv : (0xC0 + c / 64) % 32 * 64 + c % 64 = c := by omega
    rw [List.cons_append, List.cons_append, List.nil_append, decodeList_two (by omega) hy, hb, hv]
  · have hb := toNat_toUInt8_of_lt (n := 0xE0 + c / 4096) (by omega)
    have hx := continuation?_tail (y := c / 64 % 64) (Nat.mod_lt _ (by decide))
    have hv : (0xE0 + c / 4096) % 16 * 4096 + c / 64 % 64 * 64 + c % 64 = c := by omega
    rw [List.cons_append, List.cons_append, List.cons_append, List.nil_append,
      decodeList_three (by omega) hx hy (by omega) (by rw [hb, hv]; exact hs), hb, hv]
  · have hb := toNat_toUInt8_of_lt (n := 0xF0 + c / 262144) (by omega)
    have hx := continuation?_tail (y := c / 4096 % 64) (Nat.mod_lt _ (by decide))
    have hx' := continuation?_tail (y := c / 64 % 64) (Nat.mod_lt _ (by decide))
    have hv : (0xF0 + c / 262144) % 8 * 262144 + c / 4096 % 64 * 4096 + c / 64 % 64 * 64 +
        c % 64 = c := by omega
    rw [List.cons_append, List.cons_append, List.cons_append, List.cons_append, List.nil_append,
      decodeList_four (by omega) hx hx' hy (by omega) (by omega), hb, hv]

/-- Strict decoding inverts encoding on text free of surrogates. -/
theorem decodeList_flatMap_utf8Point {l : List Nat}
    (hl : ∀ c ∈ l, isSurrogate c = false ∧ c < 0x110000) :
    decodeList (l.flatMap utf8Point) = some l := by
  induction l with
  | nil => rfl
  | cons c l ih =>
    have hc := hl c List.mem_cons_self
    rw [List.flatMap_cons, decodeList_utf8Point hc.1 hc.2,
      ih fun d hd => hl d (List.mem_cons_of_mem _ hd)]
    rfl

/-- Strict decoding reads back a text free of surrogates from the bytes it is written in. -/
theorem decode?_encodePassing {t : Text} (ht : t.IsString) : decode? (encodePassing t) = some t := by
  simp only [decode?, encodePassing, List.toList_toArray, decodeList_flatMap_utf8Point ht,
    Option.map_some]

/-! ## Strings -/

/-- The bytes of a character are those of its code point. -/
theorem utf8EncodeChar_eq (c : Char) : String.utf8EncodeChar c = utf8Point c.toNat := by
  have hc := toNat_lt c
  unfold String.utf8EncodeChar utf8Point
  simp only [Char.toNat, Nat.toUInt8] at hc ⊢
  -- both split at the same bounds; the lead byte's extra modulus is idle below U+110000
  split_ifs <;> (try omega) <;> simp only [List.cons.injEq, and_true] <;> and_intros <;>
    exact congrArg UInt8.ofNat (by omega)

/-- A string's UTF-8 bytes are those of its code points. -/
theorem toUTF8_eq (s : String) : s.toUTF8 = encodePassing (ofString s) := by
  have hchar : String.utf8EncodeChar = fun c => utf8Point c.toNat := funext utf8EncodeChar_eq
  rw [String.toUTF8_eq_toByteArray, ← String.utf8Encode_toList, List.utf8Encode]
  apply ByteArray.ext
  simp [List.data_toByteArray, encodePassing, ofString, List.flatMap_map, hchar]

/-- Strict decoding reads back every string from its UTF-8 bytes. -/
theorem decode?_toUTF8 (s : String) : decode? s.toUTF8 = some (ofString s) := by
  rw [toUTF8_eq]
  exact decode?_encodePassing (isString_ofString s)

end Text

end Strongbox
