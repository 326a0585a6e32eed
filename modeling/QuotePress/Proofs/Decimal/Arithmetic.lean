import QuotePress.Proofs.Decimal.Rounding

/-! # Sums and products of doubles

A sum of doubles is off by a relative part of `2 ^ -53` at most, and so is a product that is a
multiple of the least double. -/
namespace QuotePress.Binary64

open Float.Model (Format UnpackedFloat)
open Float.Model.UnpackedFloat

def value : Binary64 → ℚ
  | .finite negative m e => signed negative m * 2 ^ e
  | .infinite _ => 0
  | .nan => 0

/-- The exact result is met but for a relative part of `2 ^ -53`. -/
def Near (result exact : ℚ) : Prop :=
  |result - exact| ≤ |exact| / 2 ^ 53

theorem Near.refl (exact : ℚ) : Near exact exact := by
  rw [Near, sub_self, abs_zero]
  positivity

section Signs

variable {s : Sign} {m : Nat} {e : Int}

theorem value_finite : value (.finite (isNegative s) m e) = (s.apply m : ℤ) * 2 ^ e := by
  cases s <;> rfl

theorem apply_mul_zpow : ((s.apply m : ℤ) : ℚ) * 2 ^ e = (s.apply 1 : ℤ) * magnitude m e := by
  cases s with
  | negative => simp [Sign.apply, magnitude]
  | positive => simp [Sign.apply, magnitude]

theorem abs_apply_one : |((s.apply 1 : ℤ) : ℚ)| = 1 := by
  cases s <;> simp [Sign.apply]

theorem abs_apply_mul_zpow : |((s.apply m : ℤ) : ℚ) * 2 ^ e| = magnitude m e := by
  rw [apply_mul_zpow, abs_mul, abs_apply_one, one_mul, abs_of_nonneg (magnitude_nonneg m e)]

theorem near_of_magnitude {m' : Nat} {e' : Int}
    (h : |magnitude m' e' - magnitude m e| ≤ magnitude m e / 2 ^ 53) :
    Near ((s.apply m' : ℤ) * 2 ^ e') ((s.apply m : ℤ) * 2 ^ e) := by
  rw [Near, abs_apply_mul_zpow, apply_mul_zpow, apply_mul_zpow, ← mul_sub, abs_mul, abs_apply_one,
    one_mul]
  exact h

theorem apply_mul_apply (s₁ s₂ : Sign) (m₁ m₂ : Nat) :
    (s₁ * s₂).apply (m₁ * m₂ : Nat) = s₁.apply m₁ * s₂.apply m₂ := by
  rw [Int.natCast_mul]
  cases s₁ <;> cases s₂
  · exact (Int.neg_mul_neg _ _).symm
  · exact (Int.neg_mul _ _).symm
  · exact (Int.mul_neg _ _).symm
  · rfl

theorem value_stored_zero : value (stored (.zero s)) = 0 := by
  rw [stored_zero, value_finite]
  cases s <;> simp [Sign.apply]

theorem value_stored {hm : 0 < m} (h : Canonical m e)
    (hfinite : (stored (.finite s m e hm)).isFinite = true) :
    value (stored (.finite s m e hm)) = (s.apply m : ℤ) * 2 ^ e := by
  rw [stored_finite hm h] at hfinite ⊢
  by_cases hsmall : e ≤ 971
  · rw [if_pos hsmall, value_finite]
  · rw [if_neg hsmall] at hfinite
    cases hfinite

end Signs

section Operands

variable {x y : Float}

theorem ofFloat_add : ofFloat (x + y) =
    stored (UnpackedFloat.add Format.binary64 x.toModel.unpack y.toModel.unpack) := rfl

theorem ofFloat_mul : ofFloat (x * y) =
    stored (UnpackedFloat.mul Format.binary64 x.toModel.unpack y.toModel.unpack) := rfl

theorem value_cases (hx : (ofFloat x).isFinite = true) :
    (∃ s, x.toModel.unpack = .zero s ∧ value (ofFloat x) = 0) ∨
      ∃ s m e hm, x.toModel.unpack = .finite s m e hm ∧ Canonical m e ∧
        value (ofFloat x) = (s.apply m : ℤ) * 2 ^ e := by
  cases hshape : ofFloat x with
  | nan =>
    rw [hshape] at hx
    cases hx
  | infinite negative =>
    rw [hshape] at hx
    cases hx
  | finite negative m e =>
    obtain ⟨s, rfl, ⟨rfl, hzero⟩ | ⟨hm, hfinite⟩⟩ := unpack_ofFloat hshape
    · left
      refine ⟨s, hzero, ?_⟩
      rw [value_finite]
      cases s <;> simp [Sign.apply]
    · right
      exact ⟨s, m, e, hm, hfinite, canonical_ofFloat hshape, value_finite⟩

theorem value_round_near (s : Sign) {m : Nat} {e : Int} (hm : 0 < m) (he : -1074 ≤ e)
    (hfinite : (stored (UnpackedFloat.round Format.binary64 s m e)).isFinite = true) :
    Near (value (stored (UnpackedFloat.round Format.binary64 s m e)))
      ((s.apply m : ℤ) * 2 ^ e) := by
  obtain ⟨m', e', hm', hround, hcanonical, hnear⟩ := round_near s hm he
  rw [hround] at hfinite ⊢
  rw [value_stored hcanonical hfinite]
  exact near_of_magnitude hnear

theorem normalize_pos {m : Nat} {e : Int} (hm : 0 < m) :
    UnpackedFloat.normalize Format.binary64 m e .positive =
      UnpackedFloat.round Format.binary64 .positive m e := by
  rw [UnpackedFloat.normalize, Int.compare_eq_gt.2 (Int.natCast_pos.2 hm), Int.toNat_natCast]

theorem value_normalize_near {n : Int} {e : Int} (he : -1074 ≤ e)
    (hfinite : (stored (UnpackedFloat.normalize Format.binary64 n e .positive)).isFinite = true) :
    Near (value (stored (UnpackedFloat.normalize Format.binary64 n e .positive))) (n * 2 ^ e) := by
  rcases lt_trichotomy n 0 with hn | rfl | hn
  · obtain ⟨m, rfl⟩ : ∃ m : Nat, n = -m := ⟨n.natAbs, by omega⟩
    have hround : UnpackedFloat.normalize Format.binary64 (-m) e .positive =
        UnpackedFloat.round Format.binary64 .negative m e := by
      rw [UnpackedFloat.normalize, Int.compare_eq_lt.2 hn, Int.neg_neg, Int.toNat_natCast]
    rw [hround] at hfinite ⊢
    exact value_round_near .negative (by omega) he hfinite
  · have hzero : UnpackedFloat.normalize Format.binary64 0 e .positive = .zero .positive := rfl
    rw [hzero, value_stored_zero, Int.cast_zero, zero_mul]
    exact Near.refl 0
  · obtain ⟨m, rfl⟩ : ∃ m : Nat, n = m := ⟨n.natAbs, by omega⟩
    have hm : 0 < m := by omega
    rw [normalize_pos hm] at hfinite ⊢
    exact value_round_near .positive hm he hfinite

/-- Two numbers are brought to one exponent before they are added. -/
theorem magnitude_aligned (m : Nat) {e target : Int} (h : target ≤ e) :
    magnitude (decreaseExponent m e target).1 target = magnitude m e := by
  have hexponent : target + ((e - target).toNat : Nat) = e := by omega
  rw [decreaseExponent, Nat.shiftLeft_eq, ← magnitude_shift, hexponent]

theorem aligned (s : Sign) (m : Nat) {e target : Int} (h : target ≤ e) :
    ((s.apply ((decreaseExponent m e target).1 : Nat) : ℤ) : ℚ) * 2 ^ target =
      (s.apply m : ℤ) * 2 ^ e := by
  rw [apply_mul_zpow, apply_mul_zpow, magnitude_aligned m h]

theorem value_add_of_zero (hx : (ofFloat x).isFinite = true) (hy : (ofFloat y).isFinite = true)
    (hsum : (ofFloat (x + y)).isFinite = true)
    (hzero : (∃ s, x.toModel.unpack = .zero s) ∨ ∃ s, y.toModel.unpack = .zero s) :
    value (ofFloat (x + y)) = value (ofFloat x) + value (ofFloat y) := by
  rw [ofFloat_add] at hsum ⊢
  obtain ⟨s₁, h₁, hv₁⟩ | ⟨s₁, m₁, e₁, hm₁, h₁, hc₁, hv₁⟩ := value_cases hx
  · obtain ⟨s₂, h₂, hv₂⟩ | ⟨s₂, m₂, e₂, hm₂, h₂, hc₂, hv₂⟩ := value_cases hy
    · have hadd : ∃ s, UnpackedFloat.add Format.binary64 (.zero s₁) (.zero s₂) = .zero s := by
        cases s₁ <;> cases s₂ <;> exact ⟨_, rfl⟩
      obtain ⟨s, hs⟩ := hadd
      rw [h₁, h₂, hv₁, hv₂, hs, value_stored_zero, add_zero]
    · rw [h₁, h₂] at hsum ⊢
      rw [hv₁, hv₂, zero_add]
      exact value_stored hc₂ hsum
  · obtain ⟨s₂, h₂, hv₂⟩ | ⟨s₂, m₂, e₂, hm₂, h₂, hc₂, hv₂⟩ := value_cases hy
    · rw [h₁, h₂] at hsum ⊢
      rw [hv₁, hv₂, add_zero]
      exact value_stored hc₁ hsum
    · obtain ⟨s, h⟩ | ⟨s, h⟩ := hzero
      · cases h₁.symm.trans h
      · cases h₂.symm.trans h

/-- Everything else is rounded once, from the exact sum. -/
theorem value_add_near (hx : (ofFloat x).isFinite = true) (hy : (ofFloat y).isFinite = true)
    (hsum : (ofFloat (x + y)).isFinite = true) :
    Near (value (ofFloat (x + y))) (value (ofFloat x) + value (ofFloat y)) := by
  have hexact := value_add_of_zero hx hy hsum
  obtain ⟨s₁, h₁, -⟩ | ⟨s₁, m₁, e₁, hm₁, h₁, hc₁, hv₁⟩ := value_cases hx
  · rw [hexact (Or.inl ⟨s₁, h₁⟩)]
    exact Near.refl _
  · obtain ⟨s₂, h₂, -⟩ | ⟨s₂, m₂, e₂, hm₂, h₂, hc₂, hv₂⟩ := value_cases hy
    · rw [hexact (Or.inr ⟨s₂, h₂⟩)]
      exact Near.refl _
    · rw [ofFloat_add, h₁, h₂] at hsum ⊢
      rw [hv₁, hv₂, ← aligned s₁ m₁ (min_le_left e₁ e₂), ← aligned s₂ m₂ (min_le_right e₁ e₂),
        ← add_mul, ← Int.cast_add]
      exact value_normalize_near (le_min hc₁.exponent_ge hc₂.exponent_ge) hsum

/-- Without a full mantissa in either factor, both exponents are the least. -/
theorem Canonical.mul_places {m₁ m₂ : Nat} {e₁ e₂ : Int} (h₁ : Canonical m₁ e₁)
    (h₂ : Canonical m₂ e₂) (hm₁ : 0 < m₁) (hm₂ : 0 < m₂) :
    leadingBit ≤ m₁ * m₂ ∨ e₁ + e₂ ≤ -1074 := by
  rcases h₁.full with hfull | hleast
  · exact Or.inl (hfull.trans (Nat.le_mul_of_pos_right m₁ hm₂))
  · rcases h₂.full with hfull | hleast'
    · exact Or.inl (hfull.trans (Nat.le_mul_of_pos_left m₂ hm₁))
    · exact Or.inr (by omega)

theorem mul_of_zero (hx : (ofFloat x).isFinite = true) (hy : (ofFloat y).isFinite = true)
    (hzero : (∃ s, x.toModel.unpack = .zero s) ∨ ∃ s, y.toModel.unpack = .zero s) :
    ∃ s, UnpackedFloat.mul Format.binary64 x.toModel.unpack y.toModel.unpack = .zero s := by
  obtain ⟨s, h⟩ | ⟨s, h⟩ := hzero
  · obtain ⟨s₂, h₂, -⟩ | ⟨s₂, m₂, e₂, hm₂, h₂, -⟩ := value_cases hy
    · exact ⟨s * s₂, by rw [h, h₂]; rfl⟩
    · exact ⟨s * s₂, by rw [h, h₂]; rfl⟩
  · obtain ⟨s₁, h₁, -⟩ | ⟨s₁, m₁, e₁, hm₁, h₁, -⟩ := value_cases hx
    · exact ⟨s₁ * s, by rw [h, h₁]; rfl⟩
    · exact ⟨s₁ * s, by rw [h, h₁]; rfl⟩

/-- A product below the least double could lose more than its part, so that is excluded. -/
theorem value_mul_near (hx : (ofFloat x).isFinite = true) (hy : (ofFloat y).isFinite = true)
    (hproduct : (ofFloat (x * y)).isFinite = true)
    (hgrid : ∃ n : Nat, |value (ofFloat x) * value (ofFloat y)| = magnitude n (-1074)) :
    Near (value (ofFloat (x * y))) (value (ofFloat x) * value (ofFloat y)) := by
  rw [ofFloat_mul] at hproduct ⊢
  obtain ⟨s₁, h₁, hv₁⟩ | ⟨s₁, m₁, e₁, hm₁, h₁, hc₁, hv₁⟩ := value_cases hx
  · obtain ⟨s, hs⟩ := mul_of_zero hx hy (Or.inl ⟨s₁, h₁⟩)
    rw [hv₁, hs, value_stored_zero, zero_mul]
    exact Near.refl 0
  · obtain ⟨s₂, h₂, hv₂⟩ | ⟨s₂, m₂, e₂, hm₂, h₂, hc₂, hv₂⟩ := value_cases hy
    · obtain ⟨s, hs⟩ := mul_of_zero hx hy (Or.inr ⟨s₂, h₂⟩)
      rw [hv₂, hs, value_stored_zero, mul_zero]
      exact Near.refl 0
    · have hexact : value (ofFloat x) * value (ofFloat y) =
          ((s₁ * s₂).apply (m₁ * m₂ : Nat) : ℤ) * 2 ^ (e₁ + e₂) := by
        rw [hv₁, hv₂, apply_mul_apply, Int.cast_mul, zpow_add₀ two_ne_zero]
        ring
      rw [hexact] at hgrid ⊢
      rw [abs_apply_mul_zpow] at hgrid
      obtain ⟨m, e, hm, hround, hcanonical, hnear⟩ :=
        roundWithAccuracy_near (s₁ * s₂) (Nat.mul_pos hm₁ hm₂) (hc₁.mul_places hc₂ hm₁ hm₂) hgrid
      rw [h₁, h₂] at hproduct ⊢
      change (stored (roundWithAccuracy Format.binary64 (s₁ * s₂) (m₁ * m₂) (e₁ + e₂)
        .exact)).isFinite = true at hproduct
      change Near (value (stored (roundWithAccuracy Format.binary64 (s₁ * s₂) (m₁ * m₂) (e₁ + e₂)
        .exact))) _
      rw [hround] at hproduct ⊢
      rw [value_stored hcanonical hproduct]
      exact near_of_magnitude hnear

theorem isFinite_of_stored {u : UnpackedFloat} (h : (stored u).isFinite = true) :
    u.isFinite = true := by
  cases u with
  | notANumber =>
    rw [stored_notANumber] at h
    cases h
  | infinity s =>
    rw [stored_infinity] at h
    cases h
  | zero s => rfl
  | finite s m e hm => rfl

theorem isFinite_ofFloat : (ofFloat x).isFinite = x.toModel.unpack.isFinite := by
  rw [ofFloat_eq]
  cases x.toModel.unpack <;> rfl

/-- A sum is finite only if both of its parts are. -/
theorem isFinite_of_add (hsum : (ofFloat (x + y)).isFinite = true) :
    (ofFloat x).isFinite = true ∧ (ofFloat y).isFinite = true := by
  rw [ofFloat_add] at hsum
  have hadd := isFinite_of_stored hsum
  rw [isFinite_ofFloat, isFinite_ofFloat]
  revert hadd
  cases x.toModel.unpack with
  | notANumber => nofun
  | infinity s₁ =>
    cases y.toModel.unpack with
    | infinity s₂ => cases s₁ <;> cases s₂ <;> nofun
    | _ => nofun
  | zero s₁ =>
    cases y.toModel.unpack with
    | zero s₂ => exact fun _ => ⟨rfl, rfl⟩
    | finite => exact fun _ => ⟨rfl, rfl⟩
    | _ => nofun
  | finite =>
    cases y.toModel.unpack with
    | zero s₂ => exact fun _ => ⟨rfl, rfl⟩
    | finite => exact fun _ => ⟨rfl, rfl⟩
    | _ => nofun

theorem isFinite_of_mul (hproduct : (ofFloat (x * y)).isFinite = true) :
    (ofFloat x).isFinite = true ∧ (ofFloat y).isFinite = true := by
  rw [ofFloat_mul] at hproduct
  have hmul := isFinite_of_stored hproduct
  rw [isFinite_ofFloat, isFinite_ofFloat]
  revert hmul
  cases x.toModel.unpack with
  | notANumber => nofun
  | infinity s₁ => cases y.toModel.unpack <;> nofun
  | zero s₁ =>
    cases y.toModel.unpack with
    | zero s₂ => exact fun _ => ⟨rfl, rfl⟩
    | finite => exact fun _ => ⟨rfl, rfl⟩
    | _ => nofun
  | finite =>
    cases y.toModel.unpack with
    | zero s₂ => exact fun _ => ⟨rfl, rfl⟩
    | finite => exact fun _ => ⟨rfl, rfl⟩
    | _ => nofun

theorem value_grid (hx : (ofFloat x).isFinite = true) :
    ∃ n : Nat, |value (ofFloat x)| = magnitude n (-1074) := by
  obtain ⟨s, -, hv⟩ | ⟨s, m, e, -, -, hcanonical, hv⟩ := value_cases hx
  · exact ⟨0, by simp [hv, magnitude]⟩
  · rw [hv, abs_apply_mul_zpow]
    exact ⟨_, magnitude_grid m hcanonical.exponent_ge⟩

/-- A product with a whole number is a multiple of the least double. -/
theorem value_mul_whole_near {k : Nat} (hy : value (ofFloat y) = k)
    (hproduct : (ofFloat (x * y)).isFinite = true) :
    Near (value (ofFloat (x * y))) (value (ofFloat x) * k) := by
  obtain ⟨hx, hfinite⟩ := isFinite_of_mul hproduct
  obtain ⟨n, hn⟩ := value_grid hx
  rw [← hy]
  apply value_mul_near hx hfinite hproduct
  refine ⟨n * k, ?_⟩
  rw [abs_mul, hn, hy, Nat.abs_cast, magnitude, magnitude, Nat.cast_mul]
  ring

end Operands

/-! ## Errors that grow -/

/-- The part of a sum that `n` roundings can add to it. -/
def growth (n : Nat) : ℚ :=
  (1 + 1 / 2 ^ 53) ^ n - 1

theorem growth_succ (n : Nat) : growth (n + 1) = growth n * (1 + 1 / 2 ^ 53) + 1 / 2 ^ 53 := by
  rw [growth, growth, pow_succ]
  ring

theorem growth_nonneg (n : Nat) : 0 ≤ growth n :=
  sub_nonneg.2 (one_le_pow₀ (by norm_num))

theorem growth_le_succ (n : Nat) : growth n ≤ growth (n + 1) := by
  have h := growth_nonneg n
  rw [growth_succ]
  linarith

theorem Near.abs_le {result exact : ℚ} (h : Near result exact) :
    |result| ≤ |exact| * (1 + 1 / 2 ^ 53) := by
  have hsplit : |result| ≤ |result - exact| + |exact| := by
    simpa using abs_add_le (result - exact) exact
  rw [Near] at h
  linarith

/-- One more addition: the growth of what has been off before, and the error of its own. -/
theorem add_near {n : Nat} {error next exact a x w : ℚ} (hw : 0 ≤ w)
    (herror : |error| ≤ growth n * (|next| + w)) (hnext : Near next exact)
    (hexact : |exact| ≤ a + x) :
    |error + (next - exact)| ≤ growth (n + 1) * (a + (x + w)) := by
  have hgrown : |next| + w ≤ |exact| * (1 + 1 / 2 ^ 53) + w := by
    linarith [hnext.abs_le]
  calc |error + (next - exact)| ≤ |error| + |next - exact| := abs_add_le ..
    _ ≤ growth n * (|exact| * (1 + 1 / 2 ^ 53) + w) + |exact| / 2 ^ 53 :=
        add_le_add (herror.trans (mul_le_mul_of_nonneg_left hgrown (growth_nonneg n))) hnext
    _ = growth (n + 1) * |exact| + growth n * w := by
        rw [growth_succ]
        ring
    _ ≤ growth (n + 1) * (a + x) + growth (n + 1) * w :=
        add_le_add (mul_le_mul_of_nonneg_left hexact (growth_nonneg _))
          (mul_le_mul_of_nonneg_right (growth_le_succ n) hw)
    _ = growth (n + 1) * (a + (x + w)) := by ring

/-! ## Whole numbers -/

/-- The nearest whole number; halves go away from zero. -/
def nearest : Binary64 → Int
  | .finite negative m e =>
    let (num, den) := fraction m e
    signed negative (roundDiv num den .away)
  | _ => 0

theorem round_eq {b : Binary64} (h : b.isFinite = true) : b.round = clamp b.nearest := by
  cases b with
  | finite negative m e => rfl
  | infinite negative => cases h
  | nan => cases h

theorem fraction_eq (m : Nat) (e : Int) :
    ((fraction m e).1 : ℚ) = magnitude m e * (fraction m e).2 := by
  have htwo (n : Nat) : (twoTo n : ℚ) = 2 ^ (n : ℤ) := by
    rw [twoTo, Nat.pow_eq, Nat.cast_pow, Nat.cast_ofNat, zpow_natCast]
  rw [fraction, magnitude, Nat.cast_mul, htwo, htwo, mul_assoc, ← zpow_add₀ two_ne_zero]
  congr 2
  omega

theorem signed_sub_signed (negative : Bool) (n : Nat) (q : ℚ) :
    |((signed negative n : ℤ) : ℚ) - (signed negative 1 : ℤ) * q| = |(n : ℚ) - q| := by
  cases negative with
  | false => simp [signed]
  | true =>
    rw [← abs_neg]
    congr 1
    simp [signed]
    ring

theorem value_eq_signed (negative : Bool) (m : Nat) (e : Int) :
    value (.finite negative m e) = (signed negative 1 : ℤ) * magnitude m e := by
  cases negative <;> simp [value, signed, magnitude]

theorem nearest_within_half (b : Binary64) : |(b.nearest : ℚ) - value b| ≤ 1 / 2 := by
  cases b with
  | nan => norm_num [nearest, value]
  | infinite negative => norm_num [nearest, value]
  | finite negative m e =>
    have hden : 0 < (fraction m e).2 := Nat.two_pow_pos _
    obtain ⟨hbelow, habove⟩ := roundDiv_within_half (fraction m e).1 (fraction m e).2 .away hden
    have hexact := fraction_eq m e
    rw [value_eq_signed, nearest, signed_sub_signed]
    generalize roundDiv (fraction m e).1 (fraction m e).2 .away = r at *
    generalize (fraction m e).1 = num at *
    generalize (fraction m e).2 = den at *
    have hbelow : (2 * magnitude m e) * den ≤ (2 * r + 1) * den := by
      rw [mul_assoc, ← hexact, add_mul, one_mul, mul_assoc]
      exact_mod_cast hbelow
    have habove : (2 * r) * den ≤ (2 * magnitude m e + 1) * den := by
      rw [add_mul, one_mul, mul_assoc, mul_assoc, ← hexact]
      exact_mod_cast habove
    have hpos : (0 : ℚ) < den := Nat.cast_pos.2 hden
    rw [abs_le]
    constructor
    · linarith [le_of_mul_le_mul_right hbelow hpos]
    · linarith [le_of_mul_le_mul_right habove hpos]

end QuotePress.Binary64
