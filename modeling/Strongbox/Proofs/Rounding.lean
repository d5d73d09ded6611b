import Mathlib
import Strongbox.Proofs.FloatBits

/-!
# Rounding to the nearest double

The float model computes a product, a quotient or a decimal as a significand with an exponent
and an accuracy, which says how the exact value lies against that significand; then
`roundWithAccuracy` shifts it to 53 bits and rounds to nearest, ties to even. `RoundsTo m e r`
says which rationals belong to the canonical double `m · 2^e`: those nearer to it than to the
doubles beside it.

Main statement: `roundWithAccuracy_eq`. A significand that locates a value `r` and carries 53
bits, or stands at the least exponent, is rounded to the double `r` rounds to. From it the
model's products (`mul_eq`), quotients (`div_eq`), exact values (`round_eq`) and decimals
(`ofScientific_eq`) are rounded correctly.
-/

open Float.Model Float.Model.UnpackedFloat

namespace Strongbox.Binary64

/-- Where a value `x`, counted in units of the last place, lies against an extended mantissa:
on it, on its half, or strictly between those and the next mantissa, as the round and sticky
bits say. -/
def Locates (em : ExtendedMantissa) (x : ℚ) : Prop :=
  match em.roundBit, em.stickyBit with
  | false, false => x = em.mantissa
  | false, true => em.mantissa < x ∧ x < em.mantissa + 1 / 2
  | true, false => x = em.mantissa + 1 / 2
  | true, true => em.mantissa + 1 / 2 < x ∧ x < em.mantissa + 1

theorem locates_bounds {em : ExtendedMantissa} {x : ℚ} (h : Locates em x) :
    (em.mantissa : ℚ) ≤ x ∧ x < em.mantissa + 1 := by
  obtain ⟨m, r, s⟩ := em
  cases r <;> cases s <;> simp only [Locates] at h ⊢ <;> constructor <;> linarith

theorem locates_exact (q : Nat) : Locates (.ofMantissaAndAccuracy q .exact) q := rfl

/-- Of the round and sticky bits, a step right keeps only whether the value was on the
mantissa itself. -/
theorem locates_iff_sticky {m : Nat} {r s : Bool} {x : ℚ} (h : Locates ⟨m, r, s⟩ x) :
    ((r || s) = false ∧ x = m) ∨ ((r || s) = true ∧ (m : ℚ) < x ∧ x < m + 1) := by
  cases r <;> cases s <;> simp only [Locates] at h
  · exact .inl ⟨rfl, h⟩
  · exact .inr ⟨rfl, h.1, by linarith [h.2]⟩
  · exact .inr ⟨rfl, by linarith, by linarith⟩
  · exact .inr ⟨rfl, by linarith [h.1], h.2⟩

/-- One step right halves the value; the bit shifted out becomes the round bit. -/
theorem locates_shiftRightOne {em : ExtendedMantissa} {x : ℚ} (h : Locates em x) :
    Locates em.shiftRightOne (x / 2) := by
  obtain ⟨m, r, s⟩ := em
  have hm : (m : ℚ) = 2 * ((m / 2 : Nat) : ℚ) + ((m % 2 : Nat) : ℚ) := by
    exact_mod_cast (Nat.div_add_mod m 2).symm
  simp only [Locates, ExtendedMantissa.shiftRightOne]
  rcases Nat.mod_two_eq_zero_or_one m with hb | hb <;> rw [hb] at hm <;> push_cast at hm <;>
    rw [hb]
  · -- an even mantissa: the half is clear
    rcases locates_iff_sticky h with ⟨hrs, hx⟩ | ⟨hrs, hlo, hhi⟩ <;>
      rw [hrs, show ((0 : Nat) != 0) = false from rfl]
    · linarith
    · constructor <;> linarith
  · -- an odd mantissa: the half is set
    rcases locates_iff_sticky h with ⟨hrs, hx⟩ | ⟨hrs, hlo, hhi⟩ <;>
      rw [hrs, show ((1 : Nat) != 0) = true from rfl]
    · linarith
    · constructor <;> linarith

theorem locates_shiftRight {em : ExtendedMantissa} {x : ℚ} (h : Locates em x) (n : Nat) :
    Locates (em >>> n) (x / 2 ^ n) := by
  change Locates (n.repeat ExtendedMantissa.shiftRightOne em) _
  induction n with
  | zero => simpa [Nat.repeat] using h
  | succ n ih =>
    rw [Nat.repeat, pow_succ, ← div_div]
    exact locates_shiftRightOne ih

/-- Rounding to nearest gives `n` when the value is within half a unit of it, `n` being even
when the value is halfway. -/
theorem roundedMantissa_eq {em : ExtendedMantissa} {x : ℚ} (h : Locates em x) {n : Nat}
    (hlo : (n : ℚ) - 1 / 2 ≤ x) (hhi : x ≤ n + 1 / 2)
    (htie : x = n - 1 / 2 ∨ x = n + 1 / 2 → n % 2 = 0) : em.roundedMantissa = n := by
  obtain ⟨m, r, s⟩ := em
  cases r <;> cases s <;> simp only [Locates] at h <;>
    simp only [ExtendedMantissa.roundedMantissa, ExtendedMantissa.accuracy,
      Accuracy.roundToNearestEven]
  · -- on the mantissa
    have h1 : m < n + 1 := by exact_mod_cast (show (m : ℚ) < n + 1 by linarith)
    have h2 : n < m + 1 := by exact_mod_cast (show (n : ℚ) < m + 1 by linarith)
    omega
  · -- below the half
    have h1 : m < n + 1 := by exact_mod_cast (show (m : ℚ) < n + 1 by linarith [h.1])
    have h2 : n < m + 1 := by exact_mod_cast (show (n : ℚ) < m + 1 by linarith [h.2])
    omega
  · -- on the half: the tie goes to the even neighbour
    have h1 : m < n + 1 := by exact_mod_cast (show (m : ℚ) < n + 1 by linarith)
    have h2 : n < m + 2 := by exact_mod_cast (show (n : ℚ) < m + 2 by linarith)
    rcases (show n = m ∨ n = m + 1 by omega) with rfl | rfl
    · have := htie (.inr h)
      omega
    · have := htie (.inl (by push_cast; linarith))
      omega
  · -- above the half
    have h1 : m < n := by exact_mod_cast (show (m : ℚ) < n by linarith [h.1])
    have h2 : n < m + 2 := by exact_mod_cast (show (n : ℚ) < m + 2 by linarith [h.2])
    omega

/-! ## The rounding interval -/

/-- How far below `m · 2^e` its rounding interval reaches, in units of `2^e`: half the gap to
the double below, a gap that is halved at the bottom of a binade. -/
def lowGap (m : Nat) (e : Int) : ℚ := if m = 2 ^ 52 ∧ -1074 < e then 1 / 4 else 1 / 2

/-- The rationals that round to the double `m · 2^e`: those nearer to it than to the doubles
beside it, and the halfway points when `m` is even, since ties go to the even significand. -/
structure RoundsTo (m : Nat) (e : Int) (r : ℚ) : Prop where
  above : (m - lowGap m e) * 2 ^ e < r ∨ ((m - lowGap m e) * 2 ^ e = r ∧ m % 2 = 0)
  below : r < (m + 1 / 2) * 2 ^ e ∨ (r = (m + 1 / 2) * 2 ^ e ∧ m % 2 = 0)

/-- `r` lies in the binade whose last place is `2^t`; the least binade also takes in
everything below it. -/
structure Binade (t : Int) (r : ℚ) : Prop where
  least : -1074 ≤ t
  below : r < 2 ^ (t + 53)
  above : t = -1074 ∨ 2 ^ (t + 52) ≤ r

theorem lowGap_le (m : Nat) (e : Int) : lowGap m e ≤ 1 / 2 := by
  unfold lowGap
  split <;> norm_num

theorem two_zpow_add (a b : Int) : (2 : ℚ) ^ (a + b) = 2 ^ a * 2 ^ b :=
  zpow_add₀ two_ne_zero a b

theorem targetExponent_eq (x : Int) : Format.binary64.targetExponent x = max (x - 53) (-1074) := by
  simp [Format.targetExponent, Format.mantissaBits, Format.minExponent]

@[simp] theorem mantissa_ofMantissaAndAccuracy (q : Nat) (acc : Accuracy) :
    (ExtendedMantissa.ofMantissaAndAccuracy q acc).mantissa = q := by
  rcases acc with _ | (_ | _ | _) <;> rfl

/-- The exponent the model rounds to keeps every bit of a significand with 53 bits or more,
and of one on the least exponent or below it. -/
theorem le_targetExponent {q : Nat} {T : Int} (hq : 2 ^ 52 ≤ q ∨ T ≤ -1074) :
    T ≤ Format.binary64.targetExponent (totalExponent q T) := by
  rw [targetExponent_eq, totalExponent]
  rcases hq with hq | hq
  · have := (Nat.le_log2 (by omega)).2 hq
    omega
  · omega

/-- The exponent the model rounds to is the binade of the value. -/
theorem binade_targetExponent {q : Nat} {T : Int} {acc : Accuracy} {r : ℚ}
    (hr : Locates (.ofMantissaAndAccuracy q acc) (r / 2 ^ T)) (hq : 2 ^ 52 ≤ q ∨ T ≤ -1074) :
    Binade (Format.binary64.targetExponent (totalExponent q T)) r := by
  obtain ⟨hlo, hhi⟩ := locates_bounds hr
  rw [mantissa_ofMantissaAndAccuracy] at hlo hhi
  have hu : (0 : ℚ) < 2 ^ T := zpow_pos two_pos T
  have hlo' : (q : ℚ) * 2 ^ T ≤ r := by rwa [le_div_iff₀ hu] at hlo
  have hhi' : r < (q + 1) * 2 ^ T := by rwa [div_lt_iff₀ hu] at hhi
  set L := q.log2
  have hqL : (q : ℚ) + 1 ≤ 2 ^ (L + 1) := by exact_mod_cast Nat.lt_log2_self
  rw [targetExponent_eq, totalExponent]
  refine ⟨le_max_right _ _, ?_, ?_⟩
  · -- below: `r < (q + 1) · 2^T ≤ 2^(L + 1 + T)`
    calc r < (q + 1) * 2 ^ T := hhi'
      _ ≤ 2 ^ ((L + 1 : Nat) : Int) * 2 ^ T := by
        rw [zpow_natCast]
        exact mul_le_mul_of_nonneg_right hqL hu.le
      _ = 2 ^ ((L + 1 : Nat) + T) := (two_zpow_add _ _).symm
      _ ≤ 2 ^ (max ((L : Int) + 1 + T - 53) (-1074) + 53) :=
        zpow_le_zpow_right₀ one_le_two (by push_cast; omega)
  · -- above: off the least binade, `2^(L + T) ≤ q · 2^T`
    by_cases ht : max ((L : Int) + 1 + T - 53) (-1074) = -1074
    · exact .inl ht
    · right
      have hq0 : q ≠ 0 := by
        rintro rfl
        simp only [L, Nat.log2_zero] at ht
        omega
      have hL : (2 : ℚ) ^ L ≤ q := by exact_mod_cast Nat.log2_self_le hq0
      calc (2 : ℚ) ^ (max ((L : Int) + 1 + T - 53) (-1074) + 52) = 2 ^ ((L : Int) + T) := by
            congr 1
            omega
        _ = 2 ^ L * 2 ^ T := by rw [two_zpow_add, zpow_natCast]
        _ ≤ q * 2 ^ T := mul_le_mul_of_nonneg_right hL hu.le
        _ ≤ r := hlo'

/-- A value that rounds to the canonical `m · 2^e` lies in the binade of `e`, or just below it
when `m` is the bottom of its binade. -/
theorem binade_eq {t : Int} {r : ℚ} (hb : Binade t r) {m : Nat} {e : Int} (hc : Canonical m e)
    (hin : RoundsTo m e r) :
    t = e ∨ (t = e - 1 ∧ m = 2 ^ 52 ∧ -1074 < e ∧ r < 2 ^ (e + 52)) := by
  have hu : (0 : ℚ) < 2 ^ e := zpow_pos two_pos e
  have hhigh : r ≤ (m + 1 / 2) * 2 ^ e := by
    rcases hin.below with h | h
    · exact h.le
    · exact h.1.le
  have hlow : (m - 1 / 2) * 2 ^ e ≤ r := by
    have hg := lowGap_le m e
    have : (m - 1 / 2) * 2 ^ e ≤ (m - lowGap m e) * (2 : ℚ) ^ e :=
      mul_le_mul_of_nonneg_right (by linarith) hu.le
    rcases hin.above with h | h
    · linarith
    · linarith [h.1]
  have hm53 : (m : ℚ) + 1 ≤ 2 ^ 53 := by exact_mod_cast hc.lt
  -- above the binade of `e` lies `2^(e + 53)`, beyond every value rounding to `m · 2^e`
  have hle : t ≤ e := by
    by_contra hgt
    have htop : (2 : ℚ) ^ (e + 53) ≤ 2 ^ (t + 52) := zpow_le_zpow_right₀ one_le_two (by omega)
    have hr := hb.above.resolve_left (by have := hc.least; omega)
    rw [two_zpow_add, zpow_ofNat] at htop
    have : (m + 1 / 2) * 2 ^ e < (2 : ℚ) ^ e * 2 ^ 53 := by
      rw [mul_comm]
      exact mul_lt_mul_of_pos_left (by linarith) hu
    linarith
  -- below it, only the bottom of a normal binade reaches
  have hnormal : t < e → 2 ^ 52 ≤ m ∧ -1074 < e := by
    intro hlt
    have := hb.least
    exact ⟨hc.normal.resolve_right (by omega), by omega⟩
  have hge : e - 1 ≤ t := by
    by_contra hlt
    obtain ⟨hm, -⟩ := hnormal (by omega)
    have hm' : (2 : ℚ) ^ 52 ≤ m := by exact_mod_cast hm
    have hbot : (2 : ℚ) ^ (t + 53) ≤ 2 ^ (e + 51) := zpow_le_zpow_right₀ one_le_two (by omega)
    rw [two_zpow_add e, zpow_ofNat] at hbot
    have : (2 : ℚ) ^ e * 2 ^ 51 < (m - 1 / 2) * 2 ^ e := by
      rw [mul_comm]
      exact mul_lt_mul_of_pos_right (by linarith) hu
    linarith [hb.below]
  rcases (show t = e ∨ t = e - 1 by omega) with h | h
  · exact .inl h
  · obtain ⟨hm, he⟩ := hnormal (by omega)
    have hbelow : r < 2 ^ (e + 52) := by
      have := hb.below
      rwa [h, show e - 1 + 53 = e + 52 by ring] at this
    refine .inr ⟨h, ?_, he, hbelow⟩
    by_contra hne
    have hm' : (2 : ℚ) ^ 52 + 1 ≤ m := by exact_mod_cast (show 2 ^ 52 + 1 ≤ m by omega)
    rw [two_zpow_add, zpow_ofNat] at hbelow
    have : (2 : ℚ) ^ e * 2 ^ 52 < (m - 1 / 2) * 2 ^ e := by
      rw [mul_comm]
      exact mul_lt_mul_of_pos_right (by linarith) hu
    linarith

/-- Measured in units of `2^e`, a value rounding to `m · 2^e` is within half a unit of `m`,
and `m` is even when the value is halfway. -/
theorem RoundsTo.near {m : Nat} {e : Int} {r : ℚ} (hin : RoundsTo m e r) :
    (m : ℚ) - 1 / 2 ≤ r / 2 ^ e ∧ r / 2 ^ e ≤ m + 1 / 2 ∧
      (r / 2 ^ e = m - 1 / 2 ∨ r / 2 ^ e = m + 1 / 2 → m % 2 = 0) := by
  have hu : (0 : ℚ) < 2 ^ e := zpow_pos two_pos e
  have hg := lowGap_le m e
  obtain ⟨habove, hbelow⟩ := hin
  rw [← lt_div_iff₀ hu, ← eq_div_iff hu.ne'] at habove
  rw [← div_lt_iff₀ hu, ← div_eq_iff hu.ne'] at hbelow
  refine ⟨?_, ?_, ?_⟩
  · rcases habove with h | ⟨h, -⟩ <;> linarith
  · rcases hbelow with h | ⟨h, -⟩ <;> linarith
  · rintro (h | h)
    · rcases habove with h' | h'
      · linarith
      · exact h'.2
    · rcases hbelow with h' | h'
      · linarith
      · exact h'.2

/-! ## Rounding -/

/-- The first shift drops bits down to the target exponent. -/
theorem shiftToTargetExponent_first {q : Nat} {T : Int} (acc : Accuracy)
    (hT : T ≤ Format.binary64.targetExponent (totalExponent q T)) :
    shiftToTargetExponent Format.binary64 q T acc =
      (ExtendedMantissa.ofMantissaAndAccuracy q acc >>> (Format.binary64.targetExponent (totalExponent q T) - T).toNat,
        Format.binary64.targetExponent (totalExponent q T)) := by
  simp only [shiftToTargetExponent, shiftToExponent, Prod.mk.injEq, true_and]
  omega

/-- A rounded significand of at most 53 bits needs no second shift. -/
theorem shiftToTargetExponent_of_lt {R : Nat} {t : Int} (hR : R < 2 ^ 53) (ht : -1074 ≤ t) :
    shiftToTargetExponent Format.binary64 R t .exact = (⟨R, false, false⟩, t) := by
  have hlog : R.log2 < 53 := by
    by_cases h : R = 0
    · simp [h]
    · exact (Nat.log2_lt h).2 hR
  have hshift : (Format.binary64.targetExponent (totalExponent R t) - t).toNat = 0 := by
    rw [targetExponent_eq, totalExponent]
    omega
  simp only [shiftToTargetExponent, shiftToExponent, hshift, Nat.cast_zero, add_zero]
  rfl

/-- A significand rounded up to `2^53` carries into the exponent. -/
theorem shiftToTargetExponent_carry {t : Int} (ht : -1075 ≤ t) :
    shiftToTargetExponent Format.binary64 (2 ^ 53) t .exact = (⟨2 ^ 52, false, false⟩, t + 1) := by
  have htarget : Format.binary64.targetExponent (totalExponent (2 ^ 53) t) = t + 1 := by
    rw [targetExponent_eq, totalExponent, Nat.log2_two_pow]
    omega
  simp only [shiftToTargetExponent, shiftToExponent, htarget, show (t + 1 - t).toNat = 1 by omega]
  rfl

/-- The model rounds a value within the rounding interval of a canonical double to that
double, given a significand, exponent and accuracy that locate the value and carry 53 bits
(or reach the least exponent). -/
theorem roundWithAccuracy_eq (s : Sign) {q : Nat} {T : Int} {acc : Accuracy} {r : ℚ}
    (hr : Locates (.ofMantissaAndAccuracy q acc) (r / 2 ^ T)) (hq : 2 ^ 52 ≤ q ∨ T ≤ -1074)
    {m : Nat} {e : Int} (hc : Canonical m e) (hin : RoundsTo m e r) :
    roundWithAccuracy Format.binary64 s q T acc = .finite s m e hc.pos := by
  have hT := le_targetExponent (q := q) hq
  have hb := binade_targetExponent hr hq
  unfold roundWithAccuracy
  rw [shiftToTargetExponent_first acc hT]
  dsimp only
  set t := Format.binary64.targetExponent (totalExponent q T)
  -- after the first shift the value is located in units of `2^t`
  have hloc : Locates (ExtendedMantissa.ofMantissaAndAccuracy q acc >>> (t - T).toNat)
      (r / 2 ^ t) := by
    have h := locates_shiftRight hr (t - T).toNat
    rwa [div_div, ← zpow_natCast, ← two_zpow_add, Int.toNat_of_nonneg (by omega),
      show T + (t - T) = t by ring] at h
  rcases binade_eq hb hc hin with hte | ⟨hte, hm, he, hbelow⟩
  · -- in the binade of `e` the significand rounds to `m` and stays
    obtain ⟨hlo, hhi, htie⟩ := hin.near
    rw [hte] at hloc ⊢
    rw [roundedMantissa_eq hloc hlo hhi htie, shiftToTargetExponent_of_lt hc.lt hc.least]
    exact dif_neg hc.pos.ne'
  · -- just below the bottom of its binade the significand rounds up to `2^53`, which carries
    have hu : (0 : ℚ) < 2 ^ e := zpow_pos two_pos e
    have hgap : lowGap m e = 1 / 4 := by simp [lowGap, hm, he]
    have hlow : (2 ^ 52 - 1 / 4 : ℚ) ≤ r / 2 ^ e := by
      rw [le_div_iff₀ hu]
      rcases hin.above with h | ⟨h, -⟩ <;> rw [hgap, hm] at h <;> push_cast at h <;> linarith
    have hhigh : r / 2 ^ e < 2 ^ 52 := by
      rwa [div_lt_iff₀ hu, ← zpow_ofNat, ← two_zpow_add, add_comm]
    have hx : r / 2 ^ t = 2 * (r / 2 ^ e) := by
      rw [hte, zpow_sub_one₀ two_ne_zero]
      field_simp
    rw [hx] at hloc
    have hR := roundedMantissa_eq (n := 2 ^ 53) hloc (by push_cast; linarith)
      (by push_cast; linarith) (fun _ => by decide)
    rw [hR, shiftToTargetExponent_carry (by omega), show t + 1 = e by omega]
    subst hm
    exact dif_neg (Nat.pos_iff_ne_zero.1 (Nat.two_pow_pos 52))

/-! ## Operations -/

theorem RoundsTo.pos {m : Nat} {e : Int} {r : ℚ} (hc : Canonical m e) (hin : RoundsTo m e r) :
    0 < r := by
  have hu : (0 : ℚ) < 2 ^ e := zpow_pos two_pos e
  have hm : (1 : ℚ) ≤ m := by exact_mod_cast hc.pos
  have hlo := hin.near.1
  rw [le_div_iff₀ hu] at hlo
  nlinarith

/-- A double is the only one its own value rounds to. -/
theorem roundsTo_self (m : Nat) (e : Int) : RoundsTo m e (m * 2 ^ e) := by
  have hu : (0 : ℚ) < 2 ^ e := zpow_pos two_pos e
  have hg : 0 < lowGap m e := by
    unfold lowGap
    split <;> norm_num
  constructor
  · left
    nlinarith
  · left
    nlinarith

/-- A product is rounded correctly when its significand carries 53 bits or its exponent reaches
the least one, as for the product of two canonical doubles. -/
theorem mul_eq (s₁ s₂ : Sign) {m₁ m₂ : Nat} {e₁ e₂ : Int} (h₁ : 0 < m₁) (h₂ : 0 < m₂)
    (hq : 2 ^ 52 ≤ m₁ * m₂ ∨ e₁ + e₂ ≤ -1074) {m : Nat} {e : Int} (hc : Canonical m e)
    (hin : RoundsTo m e (m₁ * 2 ^ e₁ * (m₂ * 2 ^ e₂))) :
    UnpackedFloat.mul Format.binary64 (.finite s₁ m₁ e₁ h₁) (.finite s₂ m₂ e₂ h₂)
      = .finite (s₁ * s₂) m e hc.pos := by
  have hval : (m₁ * 2 ^ e₁ * (m₂ * 2 ^ e₂) : ℚ) / 2 ^ (e₁ + e₂) = ((m₁ * m₂ : Nat) : ℚ) := by
    rw [two_zpow_add]
    push_cast
    field_simp
  have hr : Locates (.ofMantissaAndAccuracy (m₁ * m₂) .exact)
      ((m₁ * 2 ^ e₁ * (m₂ * 2 ^ e₂) : ℚ) / 2 ^ (e₁ + e₂)) := by
    rw [hval]
    exact locates_exact _
  exact roundWithAccuracy_eq _ hr hq hc hin

/-- A quotient `M / d` is located by its integer part and the accuracy of its remainder. -/
theorem locates_divide (M : Nat) {d : Nat} (hd : 0 < d) :
    Locates (.ofMantissaAndAccuracy (M / d) (accuracyOfFraction (M % d) d)) ((M : ℚ) / d) := by
  have hdq : (0 : ℚ) < d := by exact_mod_cast hd
  have hsplit : (M : ℚ) / d = (M / d : Nat) + ((M % d : Nat) : ℚ) / d := by
    have h : (M : ℚ) = d * (M / d : Nat) + (M % d : Nat) := by
      exact_mod_cast (Nat.div_add_mod M d).symm
    rw [h]
    field_simp
  have hrem : ((M % d : Nat) : ℚ) < d := by exact_mod_cast Nat.mod_lt M hd
  rw [hsplit]
  unfold accuracyOfFraction
  simp only [Locates, ExtendedMantissa.ofMantissaAndAccuracy]
  by_cases h0 : M % d = 0
  · simp [h0]
  · rw [if_neg h0]
    have hpos : (0 : ℚ) < ((M % d : Nat) : ℚ) / d :=
      div_pos (by exact_mod_cast Nat.pos_of_ne_zero h0) hdq
    have hlt1 : ((M % d : Nat) : ℚ) / d < 1 := by rwa [div_lt_one hdq]
    rcases lt_trichotomy (2 * (M % d)) d with h | h | h
    · have hhalf : ((M % d : Nat) : ℚ) / d < 1 / 2 := by
        rw [div_lt_iff₀ hdq]
        have : ((2 * (M % d) : Nat) : ℚ) < d := by exact_mod_cast h
        push_cast at this
        linarith
      rw [Nat.compare_eq_lt.2 h]
      exact ⟨by linarith, by linarith⟩
    · have hhalf : ((M % d : Nat) : ℚ) / d = 1 / 2 := by
        rw [div_eq_iff hdq.ne']
        have : ((2 * (M % d) : Nat) : ℚ) = d := by exact_mod_cast h
        push_cast at this
        linarith
      rw [Nat.compare_eq_eq.2 h]
      linarith
    · have hhalf : 1 / 2 < ((M % d : Nat) : ℚ) / d := by
        rw [lt_div_iff₀ hdq]
        have : (d : ℚ) < ((2 * (M % d) : Nat) : ℚ) := by exact_mod_cast h
        push_cast at this
        linarith
      rw [Nat.compare_eq_gt.2 h]
      exact ⟨by linarith, by linarith⟩

/-- The quotient the model forms keeps 53 bits unless its exponent reaches the least one. -/
theorem divCore_precise {m₁ m₂ : Nat} (e₁ e₂ : Int) (h₁ : 0 < m₁) (h₂ : 0 < m₂) :
    2 ^ 52 ≤ (divCore Format.binary64 m₁ e₁ m₂ e₂).1 ∨
      (divCore Format.binary64 m₁ e₁ m₂ e₂).2.1 ≤ -1074 := by
  simp only [divCore, targetExponent_eq, totalExponent]
  set L₁ := m₁.log2
  set L₂ := m₂.log2
  by_cases ht : min (e₁ - e₂) (max ((L₁ : Int) + 1 + e₁ - (L₂ + 1 + e₂) - 53) (-1074)) ≤ -1074
  · exact .inr ht
  · left
    -- the shift leaves `L₁ + shift ≥ L₂ + 53` bits above the divisor's top bit
    set sh := (e₁ - e₂ - min (e₁ - e₂) (max ((L₁ : Int) + 1 + e₁ - (L₂ + 1 + e₂) - 53) (-1074))).toNat
    have hsh : L₂ + 53 ≤ L₁ + sh := by omega
    have hlo : 2 ^ L₁ ≤ m₁ := Nat.log2_self_le h₁.ne'
    have hhi : m₂ < 2 ^ (L₂ + 1) := Nat.lt_log2_self
    rw [Nat.le_div_iff_mul_le h₂, Nat.shiftLeft_eq]
    calc 2 ^ 52 * m₂ ≤ 2 ^ 52 * 2 ^ (L₂ + 1) := Nat.mul_le_mul_left _ hhi.le
      _ = 2 ^ (L₂ + 53) := by rw [← Nat.pow_add]; ring_nf
      _ ≤ 2 ^ (L₁ + sh) := Nat.pow_le_pow_right (by decide) hsh
      _ = 2 ^ L₁ * 2 ^ sh := Nat.pow_add _ _ _
      _ ≤ m₁ * 2 ^ sh := Nat.mul_le_mul_right _ hlo

/-- The quotient the model forms locates the exact quotient. -/
theorem locates_divCore {m₁ m₂ : Nat} (e₁ e₂ : Int) (h₂ : 0 < m₂) :
    Locates (.ofMantissaAndAccuracy (divCore Format.binary64 m₁ e₁ m₂ e₂).1
        (divCore Format.binary64 m₁ e₁ m₂ e₂).2.2)
      ((m₁ * 2 ^ e₁ / (m₂ * 2 ^ e₂) : ℚ) / 2 ^ (divCore Format.binary64 m₁ e₁ m₂ e₂).2.1) := by
  simp only [divCore]
  set t := min (e₁ - e₂) (Format.binary64.targetExponent (totalExponent m₁ e₁ - totalExponent m₂ e₂))
  have ht : t ≤ e₁ - e₂ := min_le_left _ _
  have h := locates_divide (m₁ <<< (e₁ - e₂ - t).toNat) h₂
  have hm₂ : (0 : ℚ) < m₂ := by exact_mod_cast h₂
  -- the exact quotient in units of `2^t` is the shifted dividend over the divisor
  have hval : (m₁ * 2 ^ e₁ / (m₂ * 2 ^ e₂) : ℚ) / 2 ^ t
      = ((m₁ <<< (e₁ - e₂ - t).toNat : Nat) : ℚ) / m₂ := by
    have he : (2 : ℚ) ^ e₁ = 2 ^ e₂ * 2 ^ t * 2 ^ ((e₁ - e₂ - t).toNat : Int) := by
      rw [← two_zpow_add, ← two_zpow_add, Int.toNat_of_nonneg (by omega)]
      congr 1
      ring
    rw [Nat.shiftLeft_eq, he, zpow_natCast]
    push_cast
    field_simp
  rwa [hval]

/-- A quotient of doubles is rounded correctly. -/
theorem div_eq (s₁ s₂ : Sign) {m₁ m₂ : Nat} {e₁ e₂ : Int} (h₁ : 0 < m₁) (h₂ : 0 < m₂)
    {m : Nat} {e : Int} (hc : Canonical m e) (hin : RoundsTo m e (m₁ * 2 ^ e₁ / (m₂ * 2 ^ e₂))) :
    UnpackedFloat.div Format.binary64 (.finite s₁ m₁ e₁ h₁) (.finite s₂ m₂ e₂ h₂)
      = .finite (s₁ / s₂) m e hc.pos :=
  roundWithAccuracy_eq _ (locates_divCore e₁ e₂ h₂) (divCore_precise e₁ e₂ h₁ h₂) hc hin

/-- Rounding a value `n · 2^X` given exactly is correct. -/
theorem round_eq (s : Sign) {n : Nat} {X : Int} {m : Nat} {e : Int} (hc : Canonical m e)
    (hin : RoundsTo m e (n * 2 ^ X)) :
    UnpackedFloat.round Format.binary64 s n X = .finite s m e hc.pos := by
  have hn : 0 < n := by
    have := hin.pos hc
    rcases Nat.eq_zero_or_pos n with h | h
    · simp [h] at this
    · exact h
  simp only [UnpackedFloat.round, decreaseExponent]
  set t := Format.binary64.targetExponent (totalExponent n X)
  set k := (X - t).toNat
  apply roundWithAccuracy_eq s ?_ ?_ hc hin
  · -- the value in units of `2^(X - k)` is the shifted significand
    have hval : (n * 2 ^ X : ℚ) / 2 ^ (X - k) = ((n <<< k : Nat) : ℚ) := by
      have hX : (2 : ℚ) ^ X = 2 ^ (X - k) * 2 ^ (k : Int) := by
        rw [← two_zpow_add]
        congr 1
        ring
      rw [Nat.shiftLeft_eq, hX, zpow_natCast]
      push_cast
      field_simp
    rw [hval]
    exact locates_exact _
  · -- the shift fills 53 bits unless it stops at the least exponent
    have hlo : 2 ^ n.log2 ≤ n := Nat.log2_self_le hn.ne'
    have ht : t = max ((n.log2 : Int) + 1 + X - 53) (-1074) := targetExponent_eq _
    by_cases hleast : X - k ≤ -1074
    · exact .inr hleast
    · left
      have hk : 52 ≤ n.log2 + k := by omega
      rw [Nat.shiftLeft_eq]
      calc 2 ^ 52 ≤ 2 ^ (n.log2 + k) := Nat.pow_le_pow_right (by decide) hk
        _ = 2 ^ n.log2 * 2 ^ k := Nat.pow_add _ _ _
        _ ≤ n * 2 ^ k := Nat.mul_le_mul_right _ hlo

/-- The values that round to a canonical double lie strictly between `2^-1075` and `2^1024`. -/
theorem RoundsTo.bounds {m : Nat} {e : Int} {r : ℚ} (hc : Canonical m e) (hin : RoundsTo m e r) :
    (2 : ℚ) ^ (-1075 : Int) ≤ r ∧ r < 2 ^ (1024 : Int) := by
  have hu : (0 : ℚ) < 2 ^ e := zpow_pos two_pos e
  obtain ⟨hlo, hhi, -⟩ := hin.near
  rw [le_div_iff₀ hu] at hlo
  rw [div_le_iff₀ hu] at hhi
  have hm1 : (1 : ℚ) ≤ m := by exact_mod_cast hc.pos
  have hm53 : (m : ℚ) + 1 ≤ 2 ^ 53 := by exact_mod_cast hc.lt
  constructor
  · calc (2 : ℚ) ^ (-1075 : Int) = 1 / 2 * 2 ^ (-1074 : Int) := by
          rw [show (-1075 : Int) = -1 + -1074 by norm_num, two_zpow_add]
          norm_num
      _ ≤ 1 / 2 * 2 ^ e := by
          gcongr
          · norm_num
          · exact hc.least
      _ ≤ (m - 1 / 2) * 2 ^ e := by gcongr; linarith
      _ ≤ r := hlo
  · calc r ≤ (m + 1 / 2) * 2 ^ e := hhi
      _ < 2 ^ 53 * 2 ^ e := by gcongr; linarith
      _ ≤ 2 ^ 53 * 2 ^ (971 : Int) := by
          gcongr
          · norm_num
          · exact hc.greatest
      _ = 2 ^ (1024 : Int) := by
          rw [show (1024 : Int) = 53 + 971 by norm_num, two_zpow_add]
          norm_num

/-- A decimal `D · 10^E` is rounded correctly: its guards against huge powers of ten never
cut off a value that rounds to a finite nonzero double. -/
theorem ofScientific_eq {D : Nat} {E : Int} {m : Nat} {e : Int} (hc : Canonical m e)
    (hin : RoundsTo m e (D * 10 ^ E)) :
    UnpackedFloat.ofScientific Format.binary64 D E = .finite .positive m e hc.pos := by
  obtain ⟨hlow, hhigh⟩ := hin.bounds hc
  have hD : D ≠ 0 := by
    rintro rfl
    have := hin.pos hc
    simp at this
  have hD1 : (1 : ℚ) ≤ D := by exact_mod_cast Nat.pos_of_ne_zero hD
  have hmb : Format.binary64.mantissaBits = 53 := rfl
  unfold UnpackedFloat.ofScientific
  rw [dif_neg hD]
  -- no exponent above `2^11`: `10^2049` is far beyond the largest double
  have hbig : ¬ E > 2 ^ Format.binary64.exponentBits := by
    intro hE
    have hE' : (1024 : Int) ≤ E := by simp at hE; omega
    have : (2 : ℚ) ^ (1024 : Int) ≤ D * 10 ^ E :=
      calc (2 : ℚ) ^ (1024 : Int) ≤ 2 ^ E := zpow_le_zpow_right₀ one_le_two hE'
        _ ≤ 10 ^ E := zpow_le_zpow_left₀ (by omega) (by norm_num) (by norm_num)
        _ ≤ D * 10 ^ E := le_mul_of_one_le_left (by positivity) hD1
    linarith
  -- no exponent below `-(2^11 + log₂ D)`: such a decimal is below half the least double
  have hsmall : ¬ E < -((2 : Int) ^ Format.binary64.exponentBits + D.log2) := by
    intro hE
    have hE' : E ≤ -2049 - D.log2 := by simp at hE; omega
    have hDlt : (D : ℚ) < 2 ^ ((D.log2 + 1 : Nat) : Int) := by
      rw [zpow_natCast]
      exact_mod_cast Nat.lt_log2_self
    have : (D : ℚ) * 10 ^ E < 2 ^ (-1075 : Int) :=
      calc (D : ℚ) * 10 ^ E < 2 ^ ((D.log2 + 1 : Nat) : Int) * 10 ^ E :=
            mul_lt_mul_of_pos_right hDlt (by positivity)
        _ ≤ 2 ^ ((D.log2 + 1 : Nat) : Int) * 2 ^ E := by
            -- a negative power of ten is below the same power of two
            obtain ⟨k, hk⟩ : ∃ k : Nat, E = -k := ⟨(-E).toNat, by omega⟩
            rw [hk, zpow_neg, zpow_neg, zpow_natCast, zpow_natCast]
            gcongr
            exact pow_le_pow_left₀ (by norm_num) (by norm_num) k
        _ = 2 ^ (((D.log2 + 1 : Nat) : Int) + E) := (two_zpow_add _ _).symm
        _ ≤ 2 ^ (-1075 : Int) := zpow_le_zpow_right₀ one_le_two (by push_cast; omega)
    linarith
  rw [if_neg hbig, if_neg hsmall]
  by_cases hE : 0 ≤ E
  · -- a whole decimal: the digits, widened by 53 bits, times the power of ten
    rw [if_pos hE]
    have hv : ((D <<< Format.binary64.mantissaBits : Nat) : ℚ)
        * 2 ^ (-(Format.binary64.mantissaBits : Int)) * ((10 ^ E.toNat : Nat) * 2 ^ (0 : Int))
        = D * 10 ^ E := by
      rw [hmb, Nat.shiftLeft_eq]
      push_cast
      rw [← zpow_natCast (10 : ℚ), Int.toNat_of_nonneg hE]
      field_simp
      norm_num
    rw [← hv] at hin
    refine mul_eq .positive .positive _ _ (.inl ?_) hc hin
    rw [hmb, Nat.shiftLeft_eq]
    calc 2 ^ 52 ≤ 1 * 2 ^ 53 * 1 := by norm_num
      _ ≤ D * 2 ^ 53 * 10 ^ E.toNat := by
        gcongr
        · exact Nat.pos_of_ne_zero hD
        · exact Nat.one_le_pow _ _ (by decide)
  · -- a fraction: the digits over the power of ten
    rw [if_neg hE]
    obtain ⟨k, rfl⟩ : ∃ k : Nat, E = -k := ⟨(-E).toNat, by omega⟩
    have hv : ((D : Nat) : ℚ) * 2 ^ (0 : Int) / (((10 ^ (-(-(k : Int))).toNat : Nat) : ℚ)
        * 2 ^ (0 : Int)) = D * 10 ^ (-(k : Int)) := by
      rw [neg_neg, Int.toNat_natCast, zpow_neg, zpow_natCast]
      push_cast
      field_simp
    rw [← hv] at hin
    exact div_eq .positive .positive _ _ hc hin

end Strongbox.Binary64
