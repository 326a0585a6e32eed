import QuotePress.Proofs.Decimal.Bits
import Mathlib.Algebra.Order.Field.Basic
import Mathlib.Data.Rat.Cast.Order
import Mathlib.Tactic.FieldSimp
import Mathlib.Tactic.Linarith
import Mathlib.Tactic.Positivity
import Mathlib.Tactic.Ring

/-! # Rounding to doubles

The mantissa of an exact result is shifted to the right, and two bits tell how much of it is lost.
This rounds to the nearest double; the error is at most half a unit of the last place that is
kept. -/
namespace QuotePress.Binary64

open Float.Model (Format UnpackedFloat)
open Float.Model.UnpackedFloat

theorem shifted_bits {p q r : Nat} (hr : r < p) :
    (q % 2 != 0) = decide (p * 2 ≤ 2 * (r + p * (q % 2))) ∧
      (decide (p ≤ 2 * r) || decide (2 * r % p ≠ 0)) =
        decide (2 * (r + p * (q % 2)) % (p * 2) ≠ 0) := by
  have hsticky : (p ≤ 2 * r ∨ 2 * r % p ≠ 0) ↔ r ≠ 0 := by
    by_cases hhalf : p ≤ 2 * r
    · exact iff_of_true (Or.inl hhalf) (by omega)
    · rw [Nat.mod_eq_of_lt (Nat.lt_of_not_ge hhalf)]
      omega
  have hrest : 2 * (r + p * (q % 2)) % (p * 2) = 2 * r := by
    rw [Nat.mul_comm p 2, Nat.mul_mod_mul_left, Nat.add_mul_mod_self_left, Nat.mod_eq_of_lt hr]
  constructor
  · rcases Nat.mod_two_eq_zero_or_one q with hq | hq
    · rw [hq, Nat.mul_zero, Nat.add_zero, decide_eq_false (by omega)]
      rfl
    · rw [hq, Nat.mul_one, decide_eq_true (by omega)]
      rfl
  · rw [hrest, ← Bool.decide_or, decide_eq_decide, hsticky]
    omega

/-- The mantissa and the two bits after a shift, from a quotient and its remainder. -/
theorem shifted_eq (m k : Nat) : (⟨m, false, false⟩ : ExtendedMantissa) >>> k =
    ⟨m / 2 ^ k, decide (2 ^ k ≤ 2 * (m % 2 ^ k)), decide (2 * (m % 2 ^ k) % 2 ^ k ≠ 0)⟩ := by
  induction k with
  | zero =>
    change (⟨m, false, false⟩ : ExtendedMantissa) = _
    simp [Nat.mod_one]
  | succ k ih =>
    change ((⟨m, false, false⟩ : ExtendedMantissa) >>> k).shiftRightOne = _
    obtain ⟨hround, hsticky⟩ :=
      @shifted_bits (2 ^ k) (m / 2 ^ k) _ (Nat.mod_lt m (Nat.two_pow_pos k))
    rw [ih, ExtendedMantissa.shiftRightOne, Nat.pow_succ, Nat.mod_mul, ← hround, ← hsticky,
      Nat.div_div_eq_div_mul]

/-- Shifting and rounding is one division, rounded to the nearest with ties to even. -/
theorem roundedMantissa_shifted (m k : Nat) :
    ((⟨m, false, false⟩ : ExtendedMantissa) >>> k).roundedMantissa =
      roundDiv m (2 ^ k) .toEven := by
  have hlt := Nat.mod_lt m (Nat.two_pow_pos k)
  rw [shifted_eq, roundDiv]
  generalize m % 2 ^ k = r at *
  generalize m / 2 ^ k = q at *
  generalize 2 ^ k = p at *
  by_cases hbelow : 2 * r < p
  · rw [if_pos hbelow, decide_eq_false (by omega)]
    cases decide (2 * r % p ≠ 0) <;> rfl
  · rw [if_neg hbelow, decide_eq_true (by omega)]
    have hrest : 2 * r % p = 2 * r - p := by
      rw [Nat.mod_eq_sub_mod (by omega), Nat.mod_eq_of_lt (by omega)]
    by_cases habove : p < 2 * r
    · rw [if_pos habove, decide_eq_true (by omega)]
      rfl
    · rw [if_neg habove, decide_eq_false (by omega)]
      change q + q % 2 = if q % 2 = 0 then q else q + 1
      split <;> omega

/-- How many places of the mantissa a double has no room for. -/
def surplus (m : Nat) (e : Int) : Nat :=
  (max ((m.log2 : Int) + 1 + e - 53) (-1074) - e).toNat

theorem surplus_ge (m : Nat) (e : Int) : -1074 ≤ e + surplus m e := by
  rw [surplus]
  omega

theorem surplus_zero {m : Nat} {e : Int} (hm : m < 2 * leadingBit) (he : -1074 ≤ e) :
    surplus m e = 0 := by
  have hlog : m.log2 ≤ 52 := by
    by_cases h : m = 0
    · rw [h]
      decide
    · exact Nat.le_of_lt_succ ((Nat.log2_lt h).2 hm)
  rw [surplus]
  omega

theorem surplus_carry {e : Int} (he : -1074 ≤ e) : surplus (2 * leadingBit) e = 1 := by
  have hlog : (2 * leadingBit).log2 = 53 := by decide +kernel
  rw [surplus, hlog]
  omega

def ofMantissa (s : Sign) (m : Nat) (e : Int) : UnpackedFloat :=
  if h : m = 0 then .zero s else .finite s m e (Nat.pos_of_ne_zero h)

theorem ofMantissa_pos (s : Sign) {m : Nat} (hm : 0 < m) (e : Int) :
    ofMantissa s m e = .finite s m e hm :=
  dif_neg (Nat.ne_of_gt hm)

theorem roundWithAccuracy_eq (s : Sign) {m r : Nat} {e : Int}
    (hr : roundDiv m (2 ^ surplus m e) .toEven = r) :
    roundWithAccuracy Format.binary64 s m e .exact =
      ofMantissa s (r / 2 ^ surplus r (e + surplus m e))
        (e + surplus m e + surplus r (e + surplus m e)) := by
  have hround := (roundedMantissa_shifted m (surplus m e)).trans hr
  have hcarry : ((⟨r, false, false⟩ : ExtendedMantissa) >>>
      surplus r (e + surplus m e)).mantissa = r / 2 ^ surplus r (e + surplus m e) := by
    rw [shifted_eq]
  rw [← hcarry, ← hround]
  rfl

theorem roundWithAccuracy_fits (s : Sign) {m r : Nat} {e : Int}
    (hr : roundDiv m (2 ^ surplus m e) .toEven = r) (hpos : 0 < r) (hlt : r < 2 * leadingBit) :
    roundWithAccuracy Format.binary64 s m e .exact = .finite s r (e + surplus m e) hpos := by
  rw [roundWithAccuracy_eq s hr, surplus_zero hlt (surplus_ge m e), Nat.pow_zero, Nat.div_one,
    Nat.cast_zero, Int.add_zero]
  exact ofMantissa_pos s hpos _

theorem roundWithAccuracy_carries (s : Sign) {m : Nat} {e : Int}
    (hr : roundDiv m (2 ^ surplus m e) .toEven = 2 * leadingBit) :
    roundWithAccuracy Format.binary64 s m e .exact =
      .finite s leadingBit (e + surplus m e + 1) (by decide) := by
  have hhalf : 2 * leadingBit / 2 ^ 1 = leadingBit := by decide
  rw [roundWithAccuracy_eq s hr, surplus_carry (surplus_ge m e), hhalf, Nat.cast_one]
  exact ofMantissa_pos s (by decide) _

section Nearest

variable {m : Nat} {e : Int}

theorem surplus_room (m : Nat) (e : Int) : m < 2 * leadingBit * 2 ^ surplus m e := by
  have hplaces : m.log2 + 1 ≤ 53 + surplus m e := by
    rw [surplus]
    omega
  calc m < 2 ^ (m.log2 + 1) := Nat.lt_log2_self
    _ ≤ 2 ^ (53 + surplus m e) := Nat.pow_le_pow_right (by decide) hplaces
    _ = 2 * leadingBit * 2 ^ surplus m e := Nat.pow_add ..

theorem surplus_full (hm : 0 < m) (hplaces : leadingBit ≤ m ∨ e ≤ -1074)
    (he : -1074 < e + surplus m e) : leadingBit * 2 ^ surplus m e ≤ m := by
  have hlog : m.log2 = 52 + surplus m e := by
    rcases hplaces with h | h
    · have hbits : 52 ≤ m.log2 := (Nat.le_log2 (by omega)).2 h
      rw [surplus] at *
      omega
    · rw [surplus] at *
      omega
  calc leadingBit * 2 ^ surplus m e = 2 ^ m.log2 := by
        rw [hlog, Nat.pow_add]
        rfl
    _ ≤ m := Nat.log2_self_le (by omega)

theorem roundDiv_mul (n : Nat) {p : Nat} (hp : 0 < p) (tie : Tie) : roundDiv (n * p) p tie = n := by
  simp only [roundDiv, Nat.mul_mod_left, Nat.mul_div_cancel _ hp, Nat.mul_zero, hp, ↓reduceIte]

theorem le_roundDiv {a p : Nat} (hp : 0 < p) (tie : Tie) (h : a * p ≤ m) :
    a ≤ roundDiv m p tie := by
  obtain ⟨hbelow, -⟩ := roundDiv_within_half m p tie hp
  by_contra hlt
  have hnext := Nat.mul_le_mul_right p (Nat.lt_of_not_ge hlt)
  rw [Nat.succ_mul] at hnext
  omega

theorem roundDiv_le {b p : Nat} (hp : 0 < p) (tie : Tie) (h : m ≤ b * p) :
    roundDiv m p tie ≤ b := by
  obtain ⟨-, habove⟩ := roundDiv_within_half m p tie hp
  by_contra hlt
  have hnext := Nat.mul_le_mul_right p (Nat.lt_of_not_ge hlt)
  rw [Nat.succ_mul] at hnext
  omega

def magnitude (m : Nat) (e : Int) : ℚ := m * 2 ^ e

theorem magnitude_nonneg (m : Nat) (e : Int) : 0 ≤ magnitude m e :=
  mul_nonneg (Nat.cast_nonneg m) (zpow_nonneg zero_le_two e)

theorem magnitude_pos {m : Nat} (hm : 0 < m) (e : Int) : 0 < magnitude m e :=
  mul_pos (Nat.cast_pos.2 hm) (zpow_pos two_pos e)

theorem magnitude_zero (e : Int) : magnitude 0 e = 0 := by
  rw [magnitude, Nat.cast_zero, zero_mul]

theorem magnitude_add (m n : Nat) (e : Int) :
    magnitude (m + n) e = magnitude m e + magnitude n e := by
  rw [magnitude, magnitude, magnitude, Nat.cast_add, add_mul]

theorem magnitude_mul (m₁ m₂ : Nat) (e₁ e₂ : Int) :
    magnitude (m₁ * m₂) (e₁ + e₂) = magnitude m₁ e₁ * magnitude m₂ e₂ := by
  rw [magnitude, magnitude, magnitude, Nat.cast_mul, zpow_add₀ two_ne_zero]
  ring

theorem magnitude_le_iff {m n : Nat} {e : Int} : magnitude m e ≤ magnitude n e ↔ m ≤ n := by
  rw [magnitude, magnitude, mul_le_mul_iff_left₀ (zpow_pos two_pos e), Nat.cast_le]

theorem magnitude_lt_iff {m n : Nat} {e : Int} : magnitude m e < magnitude n e ↔ m < n := by
  rw [magnitude, magnitude, mul_lt_mul_iff_left₀ (zpow_pos two_pos e), Nat.cast_lt]

theorem magnitude_shift (m k : Nat) (e : Int) : magnitude m (e + k) = magnitude (m * 2 ^ k) e := by
  rw [magnitude, magnitude, zpow_add₀ two_ne_zero, zpow_natCast, Nat.cast_mul, Nat.cast_pow,
    Nat.cast_ofNat]
  ring

theorem magnitude_inj {m n : Nat} {e : Int} (h : magnitude m e = magnitude n e) : m = n := by
  have hunit : (2 : ℚ) ^ e ≠ 0 := zpow_ne_zero e two_ne_zero
  exact_mod_cast mul_right_cancel₀ hunit h

/-- The rounded mantissa is near the exact one: it is off by half of the last place at most, and by
nothing where the result is a multiple of the least double. -/
theorem rounded_near (hm : 0 < m) (hplaces : leadingBit ≤ m ∨ e ≤ -1074)
    (hgrid : ∃ n : Nat, magnitude m e = magnitude n (-1074)) :
    let p := 2 ^ surplus m e
    let r := roundDiv m p .toEven
    0 < r ∧ r ≤ 2 * leadingBit ∧ (leadingBit ≤ r ∨ e + surplus m e = -1074) ∧
      2 * leadingBit * (r * p) ≤ 2 * leadingBit * m + m ∧
      2 * leadingBit * m ≤ 2 * leadingBit * (r * p) + m := by
  intro p r
  have hp : 0 < p := Nat.two_pow_pos _
  have hroom : m < 2 * leadingBit * p := surplus_room m e
  obtain ⟨hbelow, habove⟩ := roundDiv_within_half m p .toEven hp
  change 2 * m ≤ 2 * (r * p) + p at hbelow
  change 2 * (r * p) ≤ 2 * m + p at habove
  rcases lt_or_eq_of_le (surplus_ge m e) with he | he
  · have hfull : leadingBit * p ≤ m := surplus_full hm hplaces he
    have hlow : leadingBit ≤ r := le_roundDiv hp .toEven hfull
    have hhigh : r ≤ 2 * leadingBit := roundDiv_le hp .toEven (Nat.le_of_lt hroom)
    rw [leadingBit] at *
    exact ⟨by omega, hhigh, Or.inl hlow, by omega, by omega⟩
  · obtain ⟨n, hn⟩ := hgrid
    have hmul : m = n * p := by
      rw [he, magnitude_shift] at hn
      exact magnitude_inj hn
    have hr : r = n := by
      rw [← roundDiv_mul n hp .toEven, ← hmul]
    have hlow : 0 < n := Nat.pos_of_mul_pos_right (hmul ▸ hm)
    have hhigh : n < 2 * leadingBit := Nat.lt_of_mul_lt_mul_right (hmul ▸ hroom)
    rw [hr, ← hmul]
    exact ⟨hlow, Nat.le_of_lt hhigh, Or.inr he.symm, Nat.le_add_right .., Nat.le_add_right ..⟩

theorem magnitude_near {q : Nat} (hbelow : 2 * leadingBit * q ≤ 2 * leadingBit * m + m)
    (habove : 2 * leadingBit * m ≤ 2 * leadingBit * q + m) :
    |magnitude q e - magnitude m e| ≤ magnitude m e / 2 ^ 53 := by
  have hunit : (0 : ℚ) < 2 ^ e := zpow_pos two_pos e
  have hplaces : ((2 * leadingBit : Nat) : ℚ) = 2 ^ 53 := by norm_num [leadingBit]
  have hbelow : (2 : ℚ) ^ 53 * q ≤ 2 ^ 53 * m + m := by
    rw [← hplaces]
    exact_mod_cast hbelow
  have habove : (2 : ℚ) ^ 53 * m ≤ 2 ^ 53 * q + m := by
    rw [← hplaces]
    exact_mod_cast habove
  have hnear : |(q : ℚ) - m| ≤ m / 2 ^ 53 := by
    rw [abs_le]
    constructor <;> linarith
  calc |magnitude q e - magnitude m e| = |(q : ℚ) - m| * 2 ^ e := by
        rw [magnitude, magnitude, ← sub_mul, abs_mul, abs_of_pos hunit]
    _ ≤ m / 2 ^ 53 * 2 ^ e := mul_le_mul_of_nonneg_right hnear hunit.le
    _ = magnitude m e / 2 ^ 53 := by
        rw [magnitude]
        ring

def rounded (m : Nat) (e : Int) : ℚ :=
  magnitude (roundDiv m (2 ^ surplus m e) .toEven) (e + surplus m e)

theorem roundWithAccuracy_rounded (s : Sign) (hm : 0 < m) (hplaces : leadingBit ≤ m ∨ e ≤ -1074)
    (hgrid : ∃ n : Nat, magnitude m e = magnitude n (-1074)) :
    ∃ m' e' hm', roundWithAccuracy Format.binary64 s m e .exact = .finite s m' e' hm' ∧
      Canonical m' e' ∧ magnitude m' e' = rounded m e := by
  obtain ⟨hpos, hle, hfull, -, -⟩ := rounded_near hm hplaces hgrid
  obtain ⟨r, hr⟩ : ∃ r, roundDiv m (2 ^ surplus m e) .toEven = r := ⟨_, rfl⟩
  rw [hr] at hpos hle hfull
  rw [rounded, hr]
  rcases Nat.lt_or_eq_of_le hle with hlt | heq
  · exact ⟨r, _, hpos, roundWithAccuracy_fits s hr hpos hlt, ⟨hlt, surplus_ge m e, hfull⟩, rfl⟩
  · rw [heq] at hr ⊢
    refine ⟨leadingBit, _, by decide, roundWithAccuracy_carries s hr, ⟨by decide, ?_, ?_⟩, ?_⟩
    · have := surplus_ge m e
      omega
    · exact Or.inl le_rfl
    · rw [show e + surplus m e + 1 = e + surplus m e + (1 : Nat) from rfl, magnitude_shift _ 1,
        Nat.pow_one, Nat.mul_comm]

theorem roundWithAccuracy_near (s : Sign) (hm : 0 < m) (hplaces : leadingBit ≤ m ∨ e ≤ -1074)
    (hgrid : ∃ n : Nat, magnitude m e = magnitude n (-1074)) :
    ∃ m' e' hm', roundWithAccuracy Format.binary64 s m e .exact = .finite s m' e' hm' ∧
      Canonical m' e' ∧
      |magnitude m' e' - magnitude m e| ≤ magnitude m e / 2 ^ 53 := by
  obtain ⟨-, -, -, hbelow, habove⟩ := rounded_near hm hplaces hgrid
  obtain ⟨m', e', hm', hround, hcanonical, hrounded⟩ :=
    roundWithAccuracy_rounded s hm hplaces hgrid
  refine ⟨m', e', hm', hround, hcanonical, ?_⟩
  rw [hrounded, rounded, magnitude_shift]
  exact magnitude_near hbelow habove

theorem magnitude_grid (m : Nat) (he : -1074 ≤ e) :
    magnitude m e = magnitude (m * 2 ^ (e + 1074).toNat) (-1074) := by
  rw [← magnitude_shift]
  congr 1
  omega

/-- A sum has places added to it until a double's are filled or the least exponent is reached. -/
theorem round_widened (s : Sign) (hm : 0 < m) : ∃ k : Nat,
    UnpackedFloat.round Format.binary64 s m e =
        roundWithAccuracy Format.binary64 s (m * 2 ^ k) (e - k) .exact ∧
      magnitude (m * 2 ^ k) (e - k) = magnitude m e ∧
      (leadingBit ≤ m * 2 ^ k ∨ e - k ≤ -1074) := by
  obtain ⟨k, hk⟩ : ∃ k : Nat, k = (e - max ((m.log2 : Int) + 1 + e - 53) (-1074)).toNat := ⟨_, rfl⟩
  refine ⟨k, ?_, ?_, ?_⟩
  · rw [← Nat.shiftLeft_eq, hk]
    rfl
  · rw [← magnitude_shift, Int.sub_add_cancel]
  · by_cases hleast : e - k ≤ -1074
    · exact Or.inr hleast
    · have hbits : 52 ≤ m.log2 + k := by omega
      left
      calc leadingBit = 2 ^ 52 := rfl
        _ ≤ 2 ^ (m.log2 + k) := Nat.pow_le_pow_right (by decide) hbits
        _ = 2 ^ m.log2 * 2 ^ k := Nat.pow_add ..
        _ ≤ m * 2 ^ k := Nat.mul_le_mul_right _ (Nat.log2_self_le (by omega))

/-- A sum of doubles has no exponent below the least, so its error is relative to it. -/
theorem round_near (s : Sign) (hm : 0 < m) (he : -1074 ≤ e) :
    ∃ m' e' hm', UnpackedFloat.round Format.binary64 s m e = .finite s m' e' hm' ∧ Canonical m' e' ∧
      |magnitude m' e' - magnitude m e| ≤ magnitude m e / 2 ^ 53 := by
  obtain ⟨k, hround, hmagnitude, hplaces⟩ := round_widened s hm (e := e)
  rw [hround, ← hmagnitude]
  refine roundWithAccuracy_near s (Nat.mul_pos hm (Nat.two_pow_pos k)) hplaces ?_
  exact ⟨_, hmagnitude.trans (magnitude_grid m he)⟩

end Nearest

end QuotePress.Binary64
