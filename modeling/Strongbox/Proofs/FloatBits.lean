import Mathlib
import Strongbox.Number.Binary64

/-!
# The bits of a double

`Binary64.ofBits` reads the sign, significand and exponent of a double off its 64 bits. This
module ties that reading to the float model of the core library, in which every operation on
doubles is defined: unpacking gives the same value (`unpack_eq`), packing undoes unpacking on
every valid bit pattern (`pack_unpack_bits`), and unpacking undoes packing on every finite value
in canonical form (`unpack_pack_finite`). Two doubles are therefore equal as soon as they unpack
to the same value (`float_eq_of_unpack_eq`).
-/

open Float.Model Float.Model.UnpackedFloat

namespace Strongbox.Binary64

/-- The sign of the model for a sign bit. -/
def signOf (negative : Bool) : Sign := if negative then .negative else .positive

/-- The same value as an unpacked float of the model. -/
def toUnpacked : Binary64 → UnpackedFloat
  | .nan => .notANumber
  | .infinity negative => .infinity (signOf negative)
  | .finite negative m e =>
    if h : m = 0 then .zero (signOf negative) else .finite (signOf negative) m e (Nat.pos_of_ne_zero h)

/-- A finite nonzero value `m · 2^e` as the bits of a double store it: fewer than 54 bits of
significand, an exponent in range, and a full 53 bits unless the exponent is the least one. -/
structure Canonical (m : Nat) (e : Int) : Prop where
  pos : 0 < m
  lt : m < 2 ^ 53
  least : -1074 ≤ e
  greatest : e ≤ 971
  normal : 2 ^ 52 ≤ m ∨ e = -1074

@[simp] theorem signOf_toBitVec (s : Sign) : signOf (s.toBitVec.toNat == 1) = s := by
  cases s <;> rfl

theorem toNat_signOf {c : Nat} (hc : c < 2) : (signOf (c == 1)).toBitVec.toNat = c := by
  unfold signOf
  interval_cases c <;> rfl

/-- Bits that read as a finite nonzero value hold it in canonical form. -/
theorem canonical_of_ofBits {n : Nat} {negative : Bool} {m : Nat} {e : Int}
    (h : ofBits n = .finite negative m e) (hm : 0 < m) : Canonical m e := by
  have hfr : n % 2 ^ 52 < 2 ^ 52 := Nat.mod_lt _ (by decide)
  have hfield : (n >>> 52) % 2048 < 2048 := Nat.mod_lt _ (by decide)
  unfold ofBits at h
  rw [show Nat.pow 2 52 = 2 ^ 52 from rfl] at h
  by_cases hf : (n >>> 52) % 2048 = 2047
  · rw [if_pos hf] at h
    split at h <;> cases h
  · by_cases hf0 : (n >>> 52) % 2048 = 0
    · rw [if_neg hf, if_pos hf0] at h
      cases h
      exact ⟨hm, by omega, le_refl _, by decide, Or.inr rfl⟩
    · rw [if_neg hf, if_neg hf0] at h
      cases h
      exact ⟨hm, by omega, by omega, by omega, Or.inl (by omega)⟩

/-! ## Unpacking -/

theorem toNat_unpackFields (b : BitVec 64) :
    (@unpackMantissa Format.binary64 b).toNat = b.toNat % 2 ^ 52 ∧
    (@unpackExponent Format.binary64 b).toNat = (b.toNat >>> 52) % 2 ^ 11 ∧
    (@unpackSign Format.binary64 b).toNat = (b.toNat >>> 63) % 2 := by
  simp [unpackMantissa, unpackExponent, unpackSign]

/-- Unpacking a double in the model reads the value that `ofBits` reads. -/
theorem unpack_eq (b : BitVec 64) :
    UnpackedFloat.unpack Format.binary64 b = (ofBits b.toNat).toUnpacked := by
  obtain ⟨hM, hE, hS⟩ := toNat_unpackFields b
  have hsign : Sign.ofBitVec (@unpackSign Format.binary64 b)
      = signOf (b.toNat >>> 63 % 2 == 1) := by
    unfold Sign.ofBitVec signOf
    have h2 : (b.toNat >>> 63) % 2 < 2 := Nat.mod_lt _ (by decide)
    by_cases h : (b.toNat >>> 63) % 2 = 1
    · rw [if_neg, if_pos (by simpa using h)]
      intro h0
      rw [h0] at hS
      simp at hS
      omega
    · rw [if_pos, if_neg (by simpa using h)]
      apply BitVec.eq_of_toNat_eq
      rw [hS]
      simp
      omega
  have hEall : @unpackExponent Format.binary64 b = -1#_
      ↔ (b.toNat >>> 52) % 2048 = 2047 := by
    rw [← BitVec.toNat_inj, hE]
    simp
  have hE0 : @unpackExponent Format.binary64 b = 0#_ ↔ (b.toNat >>> 52) % 2048 = 0 := by
    rw [← BitVec.toNat_inj, hE]
    simp
  have hM0 : @unpackMantissa Format.binary64 b = 0#_ ↔ b.toNat % 2 ^ 52 = 0 := by
    rw [← BitVec.toNat_inj, hM]
    simp
  -- a normal number's significand gets its hidden bit back
  have hM1 : (1#1 ++ @unpackMantissa Format.binary64 b).toNat
      = b.toNat % 2 ^ 52 + 2 ^ 52 := by
    rw [BitVec.toNat_append, hM, ← Nat.shiftLeft_add_eq_or_of_lt (Nat.mod_lt _ (by decide))]
    simp
    omega
  unfold UnpackedFloat.unpack ofBits
  dsimp only
  simp only [hEall, hE0, hM0, hsign, hM1, hM]
  by_cases hf : (b.toNat >>> 52) % 2048 = 2047
  · by_cases hz : b.toNat % 4503599627370496 = 0
    · simp [hf, hz, toUnpacked]
    · simp [hf, hz, toUnpacked]
  · by_cases hf0 : (b.toNat >>> 52) % 2048 = 0
    · by_cases hz : b.toNat % 4503599627370496 = 0
      · simp [hf0, hz, toUnpacked]
      · simp [hf0, hz, toUnpacked, hE, Format.exponentBias]
    · simp [hf, hf0, toUnpacked, hE, Format.exponentBias]

/-! ## Packing -/

theorem toNat_packComponents (s : Sign) (E : BitVec 11) (M : BitVec 52) :
    (packComponents Format.binary64 s E M).toNat
      = (s.toBitVec.toNat * 2 ^ 11 + E.toNat) * 2 ^ 52 + M.toNat := by
  have hE := E.isLt
  have hM := M.isLt
  simp only [packComponents, BitVec.toNat_append]
  rw [← Nat.shiftLeft_add_eq_or_of_lt hM, ← Nat.shiftLeft_add_eq_or_of_lt hE]
  simp [Nat.shiftLeft_eq]

/-- The three fields of 64 bits put back together. -/
theorem eq_of_fields (n : Nat) (hn : n < 2 ^ 64) :
    n = ((n >>> 63) % 2 * 2 ^ 11 + (n >>> 52) % 2048) * 2 ^ 52 + n % 2 ^ 52 := by
  simp only [Nat.shiftRight_eq_div_pow]
  omega

/-- The bits of a finite value in range: the biased exponent is zero for a subnormal. -/
theorem toNat_pack_finite (s : Sign) {m : Nat} {e : Int} (h : 0 < m) (hm : m < 2 ^ 53)
    (hlo : -1074 ≤ e) (hhi : e ≤ 971) :
    (UnpackedFloat.pack Format.binary64 (.finite s m e h)).toNat =
      (s.toBitVec.toNat * 2 ^ 11 + (if 2 ^ 52 ≤ m then (e + 1075).toNat else 0)) * 2 ^ 52
        + m % 2 ^ 52 := by
  have hbias : (e + Format.binary64.exponentBias
      + Format.binary64.mantissaBitsWithoutImplicit).toNat = (e + 1075).toNat := by
    simp [Format.exponentBias]
    omega
  have hroom : ¬ 2 ^ Format.binary64.exponentBits ≤ (e + 1075).toNat + 1 := by
    simp
    omega
  have hlog : m.log2 + 1 = Format.binary64.mantissaBits ↔ 2 ^ 52 ≤ m := by
    rw [show Format.binary64.mantissaBits = 53 from rfl, ← Nat.le_log2 (by omega)]
    have := (Nat.log2_lt (n := m) (k := 53) (by omega)).2 hm
    omega
  simp only [UnpackedFloat.pack, hbias, if_neg hroom]
  by_cases hn : 2 ^ 52 ≤ m
  · rw [if_pos (hlog.2 hn), if_pos hn, toNat_packComponents]
    simp only [BitVec.toNat_ofNat]
    congr 3
    apply Nat.mod_eq_of_lt
    omega
  · rw [if_neg (mt hlog.1 hn), if_neg hn, toNat_packComponents]
    simp

/-- Packing undoes unpacking on valid bits, whose only not-a-number is the canonical one. -/
theorem pack_unpack_bits (b : BitVec 64) (hv : Format.binary64.Valid b) :
    UnpackedFloat.pack Format.binary64 (UnpackedFloat.unpack Format.binary64 b) = b := by
  obtain ⟨hM, hE, -⟩ := toNat_unpackFields b
  have hn := eq_of_fields b.toNat b.isLt
  have hs : (b.toNat >>> 63) % 2 < 2 := Nat.mod_lt _ (by decide)
  have hsign := toNat_signOf hs
  have hfr : b.toNat % 2 ^ 52 < 2 ^ 52 := Nat.mod_lt _ (by decide)
  have hfield : (b.toNat >>> 52) % 2048 < 2048 := Nat.mod_lt _ (by decide)
  have hones : (-(BitVec.ofNat Format.binary64.exponentBits 1)).toNat = 2047 := by decide
  have hzeroM : (BitVec.ofNat Format.binary64.mantissaBitsWithoutImplicit 0).toNat = 0 := rfl
  have hzeroM' : (0 : BitVec Format.binary64.mantissaBitsWithoutImplicit).toNat = 0 := rfl
  have hzeroE' : (0 : BitVec Format.binary64.exponentBits).toNat = 0 := rfl
  rw [unpack_eq]
  unfold ofBits
  dsimp only
  rw [show Nat.pow 2 52 = 2 ^ 52 from rfl]
  by_cases hf : (b.toNat >>> 52) % 2048 = 2047
  · by_cases hz : b.toNat % 2 ^ 52 = 0
    · -- an infinity: all ones above no fraction
      simp only [hf, hz, if_true, toUnpacked, UnpackedFloat.pack, packedInfinity]
      apply BitVec.eq_of_toNat_eq
      rw [toNat_packComponents, hsign, hones, hzeroM']
      omega
    · -- a not-a-number: valid bits hold the canonical one
      simp only [hf, hz, if_true, if_false, toUnpacked, UnpackedFloat.pack]
      refine (hv.eq_packedNaN ?_ ?_).symm
      · apply BitVec.eq_of_toNat_eq
        rw [hE, hones]
        omega
      · intro h0
        have := congrArg BitVec.toNat h0
        rw [hM, hzeroM] at this
        exact hz this
  · by_cases hf0 : (b.toNat >>> 52) % 2048 = 0
    · rw [if_neg hf, if_pos hf0]
      by_cases hz : b.toNat % 2 ^ 52 = 0
      · simp only [hz, toUnpacked, dif_pos, UnpackedFloat.pack, packedZero]
        apply BitVec.eq_of_toNat_eq
        rw [toNat_packComponents, hsign, hzeroE', hzeroM']
        omega
      · -- a subnormal: the fraction alone, at the least exponent
        simp only [hz, toUnpacked, dif_neg, not_false_eq_true]
        apply BitVec.eq_of_toNat_eq
        rw [toNat_pack_finite _ _ (by omega) (by decide) (by decide), hsign, if_neg (by omega),
          Nat.mod_mod]
        omega
    · -- a normal number: the hidden bit is restored and dropped again
      rw [if_neg hf, if_neg hf0]
      simp only [toUnpacked, dif_neg (show (b.toNat % 2 ^ 52 + 2 ^ 52) ≠ 0 by omega)]
      apply BitVec.eq_of_toNat_eq
      rw [toNat_pack_finite _ _ (by simp; omega) (by omega) (by omega), hsign, if_pos (by simp),
        Nat.add_mod_right, Nat.mod_mod]
      have : ((↑(b.toNat >>> 52 % 2048) : Int) - 1075 + 1075).toNat = b.toNat >>> 52 % 2048 := by
        omega
      omega

/-- The bits of a canonical finite value read back as that value. -/
theorem ofBits_pack_finite (s : Sign) {m : Nat} {e : Int} (hc : Canonical m e) :
    ofBits (UnpackedFloat.pack Format.binary64 (.finite s m e hc.pos)).toNat
      = .finite (s.toBitVec.toNat == 1) m e := by
  have hs : s.toBitVec.toNat < 2 := s.toBitVec.isLt
  have hmod : m % 2 ^ 52 < 2 ^ 52 := Nat.mod_lt _ (by decide)
  have hc' := hc
  obtain ⟨hpos, hlt, hlo, hhi, hnorm⟩ := hc'
  rw [toNat_pack_finite s hpos hlt hlo hhi]
  unfold ofBits
  dsimp only
  rw [show Nat.pow 2 52 = 2 ^ 52 from rfl]
  by_cases hn : 2 ^ 52 ≤ m
  · rw [if_pos hn]
    have hfield : (((s.toBitVec.toNat * 2 ^ 11 + (e + 1075).toNat) * 2 ^ 52 + m % 2 ^ 52) >>> 52)
        % 2048 = (e + 1075).toNat := by
      simp only [Nat.shiftRight_eq_div_pow]
      omega
    have hsign : (((s.toBitVec.toNat * 2 ^ 11 + (e + 1075).toNat) * 2 ^ 52 + m % 2 ^ 52) >>> 63)
        % 2 = s.toBitVec.toNat := by
      simp only [Nat.shiftRight_eq_div_pow]
      omega
    rw [hfield, hsign, if_neg (by omega), if_neg (by omega)]
    congr 1 <;> omega
  · rw [if_neg hn]
    have he : e = -1074 := hnorm.resolve_left hn
    have hfield : ((s.toBitVec.toNat * 2 ^ 11 * 2 ^ 52 + m % 2 ^ 52) >>> 52) % 2048 = 0 := by
      simp only [Nat.shiftRight_eq_div_pow]
      omega
    have hsign : ((s.toBitVec.toNat * 2 ^ 11 * 2 ^ 52 + m % 2 ^ 52) >>> 63) % 2
        = s.toBitVec.toNat := by
      simp only [Nat.shiftRight_eq_div_pow]
      omega
    rw [Nat.add_zero, hfield, hsign, if_neg (by omega), if_pos rfl, he]
    congr 1
    omega

/-- Unpacking undoes packing on canonical finite values. -/
theorem unpack_pack_finite (s : Sign) {m : Nat} {e : Int} (hc : Canonical m e) :
    UnpackedFloat.unpack Format.binary64 (UnpackedFloat.pack Format.binary64 (.finite s m e hc.pos))
      = .finite s m e hc.pos := by
  rw [unpack_eq, ofBits_pack_finite s hc, toUnpacked, dif_neg (Nat.pos_iff_ne_zero.1 hc.pos),
    signOf_toBitVec]

theorem unpack_pack_zero (s : Sign) :
    UnpackedFloat.unpack Format.binary64 (UnpackedFloat.pack Format.binary64 (.zero s)) = .zero s := by
  cases s <;> rfl

/-! ## Doubles -/

theorem pack_unpack_model (x : Float.Model) : Float.Model.pack x.unpack = x := by
  obtain ⟨bits, hv⟩ := x
  simp only [Float.Model.pack, Float.Model.unpack]
  congr 1
  rw [pack_unpack_bits _ hv]

/-- A double unpacks to the value its bits read as. -/
theorem unpack_toModel (x : Float) : x.toModel.unpack = (ofFloat x).toUnpacked := by
  rw [Float.Model.unpack, unpack_eq]
  rfl

/-- Doubles that unpack alike are equal. -/
theorem float_eq_of_unpack_eq {x y : Float} (h : x.toModel.unpack = y.toModel.unpack) : x = y := by
  obtain ⟨x⟩ := x
  obtain ⟨y⟩ := y
  congr 1
  rw [← pack_unpack_model x, ← pack_unpack_model y]
  exact congrArg Float.Model.pack h

theorem unpack_pack_model_finite (s : Sign) {m : Nat} {e : Int} (hc : Canonical m e) :
    (Float.Model.pack (.finite s m e hc.pos)).unpack = .finite s m e hc.pos := by
  simp only [Float.Model.pack, Float.Model.unpack, UInt64.toBitVec_ofBitVec]
  exact unpack_pack_finite s hc

theorem unpack_pack_model_zero (s : Sign) : (Float.Model.pack (.zero s)).unpack = .zero s := by
  simp only [Float.Model.pack, Float.Model.unpack, UInt64.toBitVec_ofBitVec]
  exact unpack_pack_zero s

/-- A double is finite exactly when its bits read as a finite value. -/
theorem isFinite_iff (x : Float) :
    x.isFinite = true ↔ ∃ negative m e, ofFloat x = .finite negative m e := by
  simp only [Float.isFinite, Float.Model.isFinite, unpack_toModel]
  cases ofFloat x with
  | nan => simp [toUnpacked, UnpackedFloat.isFinite]
  | infinity negative => simp [toUnpacked, UnpackedFloat.isFinite]
  | finite negative m e =>
    by_cases hm : m = 0 <;> simp [toUnpacked, hm, UnpackedFloat.isFinite]

theorem isNaN_of_isFinite {x : Float} (h : x.isFinite = true) : x.isNaN = false := by
  obtain ⟨negative, m, e, hx⟩ := (isFinite_iff x).1 h
  simp only [Float.isNaN, Float.Model.isNaN, unpack_toModel, hx, toUnpacked]
  split <;> rfl

theorem isInf_of_isFinite {x : Float} (h : x.isFinite = true) : x.isInf = false := by
  obtain ⟨negative, m, e, hx⟩ := (isFinite_iff x).1 h
  simp only [Float.isInf, Float.Model.isInf, unpack_toModel, hx, toUnpacked]
  split <;> rfl

end Strongbox.Binary64
