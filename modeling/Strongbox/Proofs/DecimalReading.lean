import Mathlib
import Strongbox.Proofs.Rounding
import Strongbox.Number.Reading

/-!
# Reading decimals as doubles

A decimal literal `D · 10^E` is read through the core library's `Float.ofScientific`, which takes
a fast path when both `D` and `10^E` are doubles (one rounded product or quotient, with the
powers of ten from a table) and otherwise rounds the decimal in the float model. Either way
the result is the double the decimal's value rounds to (`unpack_ofScientific`). A decimal
literal therefore denotes the double whose rounding interval holds its value, whatever its sign
(`toFloat_decimal`), and a literal of zero digits the zero of its sign (`toFloat_zero`).
-/

open Float.Model Float.Model.UnpackedFloat

namespace Strongbox.Binary64

/-- A positive significand widened to 53 bits. -/
theorem two_pow_le_widened {D : Nat} (hD : 0 < D) : 2 ^ 52 ≤ D * 2 ^ (52 - D.log2) := by
  have hlo : 2 ^ D.log2 ≤ D := Nat.log2_self_le hD.ne'
  by_cases hL : D.log2 ≤ 52
  · calc 2 ^ 52 = 2 ^ D.log2 * 2 ^ (52 - D.log2) := by rw [← Nat.pow_add]; congr 1; omega
      _ ≤ D * 2 ^ (52 - D.log2) := Nat.mul_le_mul_right _ hlo
  · calc 2 ^ 52 ≤ 2 ^ D.log2 := Nat.pow_le_pow_right (by decide) (by omega)
      _ ≤ D := hlo
      _ ≤ D * 2 ^ (52 - D.log2) := Nat.le_mul_of_pos_right _ (Nat.two_pow_pos _)

/-- A positive significand below `2^53`, widened to 53 bits, with the exponent that keeps
`D · 2^j`. -/
theorem canonical_widened {D : Nat} (hD : 0 < D) (hD53 : D < 2 ^ 53) (j : Nat) (hj : j ≤ 971) :
    Canonical (D * 2 ^ (52 - D.log2)) (j + D.log2 - 52) := by
  have hhi : D < 2 ^ (D.log2 + 1) := Nat.lt_log2_self
  have hL : D.log2 < 53 := (Nat.log2_lt hD.ne').2 hD53
  refine ⟨Nat.mul_pos hD (Nat.two_pow_pos _), ?_, by omega, by omega, .inl (two_pow_le_widened hD)⟩
  calc D * 2 ^ (52 - D.log2) < 2 ^ (D.log2 + 1) * 2 ^ (52 - D.log2) :=
        Nat.mul_lt_mul_of_pos_right hhi (Nat.two_pow_pos _)
    _ = 2 ^ 53 := by rw [← Nat.pow_add]; congr 1; omega

theorem value_widened (D j : Nat) (hL : D.log2 ≤ 52) :
    ((D * 2 ^ (52 - D.log2) : Nat) : ℚ) * 2 ^ ((j : Int) + D.log2 - 52) = D * 2 ^ j := by
  have h : ((j : Int) + D.log2 - 52) = j - ((52 - D.log2 : Nat) : Int) := by omega
  rw [h, zpow_sub₀ two_ne_zero, zpow_natCast, zpow_natCast]
  push_cast
  field_simp

theorem ofFloat_zero : ofFloat 0.0 = .finite false 0 (-1074) := by decide

/-- The table of powers of ten holds `10^k = 5^k · 2^k` exactly. -/
theorem ofFloat_powerOfTen : ∀ k : Fin 23,
    ofFloat (getElem Float.exactlyRepresentablePowersOfTen k.val (by
      simp [Float.exactlyRepresentablePowersOfTen])) =
      .finite false (5 ^ k.val * 2 ^ (52 - (5 ^ k.val).log2)) (k.val + (5 ^ k.val).log2 - 52) := by
  decide

/-- The model's conversion of a whole number is rounded correctly. -/
theorem ofNat_eq {n : Nat} {m : Nat} {e : Int} (hc : Canonical m e) (hin : RoundsTo m e n) :
    UnpackedFloat.ofNat Format.binary64 n = .finite .positive m e hc.pos := by
  have hn : 0 < n := by
    have := hin.pos hc
    exact_mod_cast this
  unfold UnpackedFloat.ofNat UnpackedFloat.ofInt UnpackedFloat.normalize
  rw [show compare (n : Int) 0 = .gt from Int.compare_eq_gt.2 (by omega)]
  dsimp only
  rw [Int.toNat_natCast]
  exact round_eq _ hc (by simpa using hin)

/-- A whole number below `2^53` converts exactly. -/
theorem unpack_toFloat {D : Nat} (hD : 0 < D) (hD53 : D < 2 ^ 53) :
    D.toUInt64.toFloat.toModel.unpack = .finite .positive (D * 2 ^ (52 - D.log2))
      ((0 : Nat) + D.log2 - 52) (canonical_widened hD hD53 0 (by decide)).pos := by
  have hc := canonical_widened hD hD53 0 (by decide)
  have hL : D.log2 ≤ 52 := by
    have := (Nat.log2_lt hD.ne').2 hD53
    omega
  have hin : RoundsTo (D * 2 ^ (52 - D.log2)) ((0 : Nat) + D.log2 - 52) D := by
    have h := roundsTo_self (D * 2 ^ (52 - D.log2)) ((0 : Nat) + D.log2 - 52)
    rwa [value_widened D 0 hL, pow_zero, mul_one] at h
  have hnat : D.toUInt64.toNat = D := by
    rw [Nat.toUInt64_eq, UInt64.toNat_ofNat', Nat.mod_eq_of_lt (by omega)]
  show (Float.Model.pack (UnpackedFloat.ofNat Format.binary64 D.toUInt64.toNat)).unpack = _
  rw [hnat, ofNat_eq hc hin, unpack_pack_model_finite _ hc]

theorem five_pow_lt {k : Nat} (hk : k < 23) : 5 ^ k < 2 ^ 53 :=
  calc 5 ^ k ≤ 5 ^ 22 := Nat.pow_le_pow_right (by decide) (by omega)
    _ < 2 ^ 53 := by decide

theorem unpack_powerOfTen (k : Nat) (hk : k < 23) :
    (getElem Float.exactlyRepresentablePowersOfTen k (by
      simp [Float.exactlyRepresentablePowersOfTen]; omega)).toModel.unpack
      = .finite .positive (5 ^ k * 2 ^ (52 - (5 ^ k).log2)) (k + (5 ^ k).log2 - 52)
        (canonical_widened (Nat.pow_pos (by decide : 0 < 5)) (five_pow_lt hk) k (by omega)).pos := by
  rw [unpack_toModel, ofFloat_powerOfTen ⟨k, hk⟩]
  simp [toUnpacked, signOf]

/-- A decimal literal of the core library, `D · 10^(±n)`, denotes the double its value rounds
to, along the fast path of exactly representable operands as along the model's own. -/
theorem unpack_ofScientific {D : Nat} {s : Bool} {n : Nat} {m : Nat} {e : Int}
    (hc : Canonical m e) (hin : RoundsTo m e (D * 10 ^ (if s then -(n : Int) else n))) :
    (Float.ofScientific D s n).toModel.unpack = .finite .positive m e hc.pos := by
  unfold Float.ofScientific
  split
  · -- both operands are doubles: one rounded product or quotient
    rename_i h
    obtain ⟨hD53, hn⟩ := h
    have hD : 0 < D := by
      rcases Nat.eq_zero_or_pos D with h0 | h0
      · have := hin.pos hc
        simp [h0] at this
      · exact h0
    have hL : D.log2 ≤ 52 := by
      have := (Nat.log2_lt hD.ne').2 hD53
      omega
    have h5 : (5 ^ n).log2 ≤ 52 := by
      have := (Nat.log2_lt (Nat.pow_pos (by decide : 0 < 5)).ne').2 (five_pow_lt (by omega : n < 23))
      omega
    have ha := unpack_toFloat hD hD53
    have hb := unpack_powerOfTen n (by omega)
    have hva := value_widened D 0 hL
    have hvb := value_widened (5 ^ n) n h5
    cases s
    · -- the digits times the power of ten
      have hv : ((D * 2 ^ (52 - D.log2) : Nat) : ℚ) * 2 ^ (((0 : Nat) : Int) + D.log2 - 52)
          * (((5 ^ n * 2 ^ (52 - (5 ^ n).log2) : Nat) : ℚ) * 2 ^ ((n : Int) + (5 ^ n).log2 - 52))
          = D * 10 ^ (n : Int) := by
        rw [hva, hvb, zpow_natCast]
        push_cast
        rw [show (10 : ℚ) = 5 * 2 by norm_num, mul_pow]
        ring
      simp only [Bool.false_eq_true, if_false] at hin
      rw [← hv] at hin
      have hq : 2 ^ 52 ≤ D * 2 ^ (52 - D.log2) * (5 ^ n * 2 ^ (52 - (5 ^ n).log2)) :=
        le_trans (two_pow_le_widened hD)
          (Nat.le_mul_of_pos_right _ (Nat.mul_pos (Nat.pow_pos (by decide)) (Nat.two_pow_pos _)))
      show (Float.Model.pack (UnpackedFloat.mul Format.binary64 _ _)).unpack = _
      rw [ha, hb, mul_eq _ _ _ _ (.inl hq) hc hin, unpack_pack_model_finite _ hc]
      rfl
    · -- the digits over the power of ten
      have hv : ((D * 2 ^ (52 - D.log2) : Nat) : ℚ) * 2 ^ (((0 : Nat) : Int) + D.log2 - 52)
          / (((5 ^ n * 2 ^ (52 - (5 ^ n).log2) : Nat) : ℚ) * 2 ^ ((n : Int) + (5 ^ n).log2 - 52))
          = D * 10 ^ (-(n : Int)) := by
        rw [hva, hvb, zpow_neg, zpow_natCast]
        push_cast
        rw [show (10 : ℚ) = 5 * 2 by norm_num, mul_pow]
        field_simp
      simp only [if_true] at hin
      rw [← hv] at hin
      show (Float.Model.pack (UnpackedFloat.div Format.binary64 _ _)).unpack = _
      rw [ha, hb, div_eq _ _ _ _ hc hin, unpack_pack_model_finite _ hc]
      rfl
  · -- otherwise the model rounds the decimal itself
    show (Float.Model.pack (UnpackedFloat.ofScientific Format.binary64 D _)).unpack = _
    have he : (if s then Int.negOfNat n else Int.ofNat n) = if s then -(n : Int) else n := by
      cases s <;> simp [Int.negOfNat_eq]
    rw [he, ofScientific_eq hc hin, unpack_pack_model_finite _ hc]

/-! ## Decimal literals -/

theorem unpack_neg_finite {y : Float} {s : Sign} {m : Nat} {e : Int} (hc : Canonical m e)
    (h : y.toModel.unpack = .finite s m e hc.pos) : (-y).toModel.unpack = .finite (-s) m e hc.pos := by
  show (Float.Model.pack y.toModel.unpack.neg).unpack = _
  rw [h]
  exact unpack_pack_model_finite _ hc

theorem unpack_neg_zero {y : Float} {s : Sign} (h : y.toModel.unpack = .zero s) :
    (-y).toModel.unpack = .zero (-s) := by
  show (Float.Model.pack y.toModel.unpack.neg).unpack = _
  rw [h]
  exact unpack_pack_model_zero _

/-- The digit count of `D` plus `E` is the decimal order of `D · 10^E`; for a value rounding to
a finite double it lies within 400 of zero. -/
theorem digitCount_add_bounds {D : Nat} {E : Int} (hD : D ≠ 0)
    (hlo : (2 : ℚ) ^ (-1075 : Int) ≤ D * 10 ^ E) (hhi : (D : ℚ) * 10 ^ E < 2 ^ (1024 : Int)) :
    -400 ≤ ((Nat.toDigits 10 D).length : Int) + E ∧ ((Nat.toDigits 10 D).length : Int) + E ≤ 400 := by
  have hlen : 0 < (Nat.toDigits 10 D).length := Nat.length_toDigits_pos
  have hlt : D < 10 ^ (Nat.toDigits 10 D).length :=
    (Nat.length_toDigits_le_iff (by decide) hlen).1 le_rfl
  have hge : 10 ^ ((Nat.toDigits 10 D).length - 1) ≤ D := by
    by_cases h1 : (Nat.toDigits 10 D).length = 1
    · rw [h1]
      exact Nat.pos_of_ne_zero hD
    · by_contra h
      have := (Nat.length_toDigits_le_iff (b := 10) (n := D)
        (k := (Nat.toDigits 10 D).length - 1) (by decide) (by omega)).2 (by omega)
      omega
  generalize (Nat.toDigits 10 D).length = len at hlen hlt hge ⊢
  have hpos : (0 : ℚ) < 10 ^ E := by positivity
  constructor
  · by_contra hsmall
    -- below `10^-400` there is no double
    have : (D : ℚ) * 10 ^ E < 2 ^ (-1075 : Int) :=
      calc (D : ℚ) * 10 ^ E < 10 ^ (len : Int) * 10 ^ E := by
            gcongr
            rw [zpow_natCast]
            exact_mod_cast hlt
        _ = 10 ^ ((len : Int) + E) := (zpow_add₀ (by norm_num) _ _).symm
        _ ≤ 10 ^ (-401 : Int) := zpow_le_zpow_right₀ (by norm_num) (by omega)
        _ < 2 ^ (-1075 : Int) := by
            rw [zpow_neg, zpow_neg, inv_lt_inv₀ (by positivity) (by positivity)]
            exact_mod_cast (by decide +kernel : (2 : Nat) ^ 1075 < 10 ^ 401)
    linarith
  · by_contra hlarge
    -- above `10^400` there is no double
    have : (2 : ℚ) ^ (1024 : Int) ≤ D * 10 ^ E :=
      calc (2 : ℚ) ^ (1024 : Int) ≤ 10 ^ (400 : Int) := by
            rw [zpow_ofNat, zpow_ofNat]
            exact_mod_cast (by decide +kernel : (2 : Nat) ^ 1024 ≤ 10 ^ 400)
        _ ≤ 10 ^ (((len - 1 : Nat) : Int) + E) := zpow_le_zpow_right₀ (by norm_num) (by omega)
        _ = 10 ^ ((len - 1 : Nat) : Int) * 10 ^ E := zpow_add₀ (by norm_num) _ _
        _ ≤ D * 10 ^ E := by
            gcongr
            rw [zpow_natCast]
            exact_mod_cast hge
    linarith

/-- A decimal literal whose value rounds to a finite nonzero double denotes that double. -/
theorem toFloat_decimal {negative : Bool} {D : Nat} {E : Int} {x : Float} {m : Nat} {e : Int}
    (hx : ofFloat x = .finite negative m e) (hm : 0 < m) (hin : RoundsTo m e (D * 10 ^ E)) :
    (FloatLiteral.decimal negative D E).toFloat = x := by
  have hc := canonical_of_ofBits hx hm
  have hD : D ≠ 0 := by
    rintro rfl
    have := hin.pos hc
    simp at this
  obtain ⟨hlo, hhi⟩ := hin.bounds hc
  obtain ⟨hsize, hsize'⟩ := digitCount_add_bounds hD hlo hhi
  -- the magnitude takes the path of a literal of this exponent's sign
  have hmag : (if E ≥ 0 then Float.ofScientific D false E.toNat
      else Float.ofScientific D true (-E).toNat).toModel.unpack = .finite .positive m e hc.pos := by
    by_cases hE : E ≥ 0
    · rw [if_pos hE]
      apply unpack_ofScientific hc
      rwa [if_neg (by decide), Int.toNat_of_nonneg hE]
    · rw [if_neg hE]
      apply unpack_ofScientific hc
      rwa [if_pos rfl, Int.toNat_of_nonneg (by omega), neg_neg]
  have hx' : x.toModel.unpack = .finite (signOf negative) m e hc.pos := by
    rw [unpack_toModel, hx, toUnpacked, dif_neg hm.ne']
  apply float_eq_of_unpack_eq
  rw [hx']
  simp only [FloatLiteral.toFloat, hD, decide_false, Bool.false_or,
    show ¬ ((Nat.toDigits 10 D).length + E < -400) by omega, if_false,
    show ¬ ((Nat.toDigits 10 D).length + E > 400) by omega]
  cases negative
  · exact hmag
  · exact unpack_neg_finite hc hmag

/-- A literal with no nonzero digit denotes the zero of its sign. -/
theorem toFloat_zero {negative : Bool} {E : Int} {x : Float} {e : Int}
    (hx : ofFloat x = .finite negative 0 e) : (FloatLiteral.decimal negative 0 E).toFloat = x := by
  have hzero : (0.0 : Float).toModel.unpack = .zero .positive := by
    rw [unpack_toModel, ofFloat_zero]
    rfl
  apply float_eq_of_unpack_eq
  rw [unpack_toModel x, hx]
  simp only [FloatLiteral.toFloat, decide_true, Bool.true_or, if_true]
  cases negative
  · exact hzero
  · exact unpack_neg_zero hzero

end Strongbox.Binary64
