import QuotePress.Proofs.Decimal.Arithmetic

/-! # The order of doubles

Rounding respects the order of what is rounded. So a sum of doubles that are not below zero is no
smaller than any of them, and a product with a whole number grows with its other factor. -/
namespace QuotePress

theorem roundDiv_mul_mul (num den : Nat) (tie : Tie) {c : Nat} (hc : 0 < c) :
    roundDiv (num * c) (den * c) tie = roundDiv num den tie := by
  have hlt (a b : Nat) : 2 * (a * c) < b * c ↔ 2 * a < b := by
    rw [← Nat.mul_assoc, Nat.mul_lt_mul_right hc]
  have hgt (a b : Nat) : b * c < 2 * (a * c) ↔ b < 2 * a := by
    rw [← Nat.mul_assoc, Nat.mul_lt_mul_right hc]
  simp only [roundDiv, Nat.mul_div_mul_right _ _ hc, Nat.mul_mod_mul_right, hlt, hgt]

theorem roundDiv_mono_num {a b : Nat} (den : Nat) (h : a ≤ b) :
    roundDiv a den .toEven ≤ roundDiv b den .toEven := by
  have hfloor (n : Nat) : n / den ≤ roundDiv n den .toEven ∧
      roundDiv n den .toEven ≤ n / den + 1 := by
    simp only [roundDiv]
    grind
  rcases Nat.lt_or_eq_of_le (Nat.div_le_div_right (c := den) h) with hlt | heq
  · exact (hfloor a).2.trans (Nat.succ_le_of_lt hlt |>.trans (hfloor b).1)
  · have hrest : a % den ≤ b % den := by
      have ha := Nat.div_add_mod a den
      have hb := Nat.div_add_mod b den
      rw [heq] at ha
      omega
    simp only [roundDiv, heq]
    grind

theorem roundDiv_mono {a b p q : Nat} (hp : 0 < p) (hq : 0 < q) (h : a * q ≤ b * p) :
    roundDiv a p .toEven ≤ roundDiv b q .toEven :=
  calc roundDiv a p .toEven = roundDiv (a * q) (p * q) .toEven := (roundDiv_mul_mul a p _ hq).symm
    _ ≤ roundDiv (b * p) (p * q) .toEven := roundDiv_mono_num _ h
    _ = roundDiv b q .toEven := by rw [Nat.mul_comm p q, roundDiv_mul_mul b q _ hp]

namespace Binary64

open Float.Model (Format UnpackedFloat)
open Float.Model.UnpackedFloat

theorem magnitude_double_le (m : Nat) {e f : Int} (h : e < f) :
    magnitude (2 * m) e ≤ magnitude m f := by
  obtain ⟨k, rfl⟩ : ∃ k : Nat, f = e + (k + 1 : Nat) := ⟨(f - e - 1).toNat, by omega⟩
  rw [magnitude_shift, magnitude_le_iff, Nat.mul_comm, Nat.pow_succ, Nat.mul_comm (2 ^ k),
    ← Nat.mul_assoc]
  exact Nat.le_mul_of_pos_right _ (Nat.two_pow_pos k)

section Grids

variable {m₁ m₂ : Nat} {e₁ e₂ : Int}

/-- Two magnitudes are compared by their mantissas if shifts bring them to one exponent. -/
theorem magnitude_cross {k₁ k₂ : Nat} (h : e₁ + k₁ = e₂ + k₂) :
    magnitude m₁ e₁ ≤ magnitude m₂ e₂ ↔ m₁ * 2 ^ k₂ ≤ m₂ * 2 ^ k₁ := by
  have h₁ : e₁ = e₁ - k₂ + k₂ := by omega
  have h₂ : e₂ = e₁ - k₂ + k₁ := by omega
  rw [h₂, magnitude_shift]
  nth_rewrite 1 [h₁]
  rw [magnitude_shift, magnitude_le_iff]

/-- Of doubles with different exponents the larger one has the larger exponent. -/
theorem Canonical.magnitude_lt (h₁ : Canonical m₁ e₁) (h₂ : Canonical m₂ e₂) (h : e₁ < e₂) :
    magnitude m₁ e₁ < magnitude m₂ e₂ := by
  have hfull : leadingBit ≤ m₂ := h₂.full.resolve_right (ne_of_gt (h₁.exponent_ge.trans_lt h))
  calc magnitude m₁ e₁ < magnitude (2 * leadingBit) e₁ := magnitude_lt_iff.2 h₁.mantissa_lt
    _ ≤ magnitude leadingBit e₂ := magnitude_double_le _ h
    _ ≤ magnitude m₂ e₂ := magnitude_le_iff.2 hfull

theorem Canonical.magnitude_lt_iff (h₁ : Canonical m₁ e₁) (h₂ : Canonical m₂ e₂) :
    magnitude m₁ e₁ < magnitude m₂ e₂ ↔ e₁ < e₂ ∨ e₁ = e₂ ∧ m₁ < m₂ := by
  rcases lt_trichotomy e₁ e₂ with hlt | rfl | hgt
  · exact iff_of_true (h₁.magnitude_lt h₂ hlt) (Or.inl hlt)
  · rw [Binary64.magnitude_lt_iff]
    omega
  · have hge := h₂.magnitude_lt h₁ hgt
    exact iff_of_false (not_lt_of_gt hge) (by omega)

theorem magnitude_lt_room (m : Nat) (e : Int) :
    magnitude m e < magnitude (2 * leadingBit) (e + surplus m e) := by
  rw [magnitude_shift, Binary64.magnitude_lt_iff]
  exact surplus_room m e

theorem magnitude_ge_full {m : Nat} {e : Int} (hm : 0 < m) (hplaces : leadingBit ≤ m ∨ e ≤ -1074)
    (he : -1074 < e + surplus m e) : magnitude leadingBit (e + surplus m e) ≤ magnitude m e := by
  rw [magnitude_shift, magnitude_le_iff]
  exact surplus_full hm hplaces he

theorem rounded_canonical {m : Nat} {e : Int} (h : Canonical m e) : rounded m e = magnitude m e := by
  rw [rounded, surplus_zero h.mantissa_lt h.exponent_ge, Nat.pow_zero, Nat.cast_zero, Int.add_zero]
  congr 1
  simpa using roundDiv_mul m one_pos .toEven

/-- Rounding respects the order: what is larger has a grid that is as wide or wider. -/
theorem rounded_mono (hm₁ : 0 < m₁) (hm₂ : 0 < m₂) (hplaces₁ : leadingBit ≤ m₁ ∨ e₁ ≤ -1074)
    (hplaces₂ : leadingBit ≤ m₂ ∨ e₂ ≤ -1074) (h : magnitude m₁ e₁ ≤ magnitude m₂ e₂) :
    rounded m₁ e₁ ≤ rounded m₂ e₂ := by
  rw [rounded, rounded]
  -- On one grid the quotients are compared. On two, the least full mantissa of the wider one lies
  -- between the results.
  rcases lt_trichotomy (e₁ + surplus m₁ e₁) (e₂ + surplus m₂ e₂) with hlt | heq | hgt
  · have hwide : -1074 < e₂ + surplus m₂ e₂ := (surplus_ge m₁ e₁).trans_lt hlt
    have hhigh : roundDiv m₁ (2 ^ surplus m₁ e₁) .toEven ≤ 2 * leadingBit :=
      roundDiv_le (Nat.two_pow_pos _) .toEven (surplus_room m₁ e₁).le
    have hlow : leadingBit ≤ roundDiv m₂ (2 ^ surplus m₂ e₂) .toEven :=
      le_roundDiv (Nat.two_pow_pos _) .toEven (surplus_full hm₂ hplaces₂ hwide)
    calc _ ≤ magnitude (2 * leadingBit) (e₁ + surplus m₁ e₁) := magnitude_le_iff.2 hhigh
      _ ≤ magnitude leadingBit (e₂ + surplus m₂ e₂) := magnitude_double_le _ hlt
      _ ≤ _ := magnitude_le_iff.2 hlow
  · rw [heq, magnitude_le_iff]
    apply roundDiv_mono (Nat.two_pow_pos _) (Nat.two_pow_pos _)
    exact (magnitude_cross heq).1 h
  · have hwide : -1074 < e₁ + surplus m₁ e₁ := (surplus_ge m₂ e₂).trans_lt hgt
    have hless : magnitude m₂ e₂ < magnitude m₁ e₁ :=
      calc magnitude m₂ e₂ < magnitude (2 * leadingBit) (e₂ + surplus m₂ e₂) :=
            magnitude_lt_room m₂ e₂
        _ ≤ magnitude leadingBit (e₁ + surplus m₁ e₁) := magnitude_double_le _ hgt
        _ ≤ magnitude m₁ e₁ := magnitude_ge_full hm₁ hplaces₁ hwide
    exact absurd h (not_le_of_gt hless)

end Grids

/-! ## Doubles that are not below zero -/

/-- Neither a number below zero nor the infinity there; a zero may have either sign. -/
def isBelowZero : Binary64 → Bool
  | .nan => false
  | .infinite negative => negative
  | .finite negative m _ => negative && m != 0

theorem isBelowZero_ofMantissa (m : Nat) (e : Int) :
    (ofUnpacked (ofMantissa .positive m e)).isBelowZero = false := by
  rcases Nat.eq_zero_or_pos m with rfl | hm
  · rfl
  · rw [ofMantissa_pos .positive hm]
    rfl

theorem isBelowZero_roundWithAccuracy (m : Nat) (e : Int) :
    (ofUnpacked (roundWithAccuracy Format.binary64 .positive m e .exact)).isBelowZero = false := by
  rw [roundWithAccuracy_eq .positive rfl]
  exact isBelowZero_ofMantissa _ _

theorem isBelowZero_normalize (n : Nat) (e : Int) :
    (ofUnpacked (UnpackedFloat.normalize Format.binary64 n e .positive)).isBelowZero = false := by
  cases n with
  | zero => rfl
  | succ n => exact isBelowZero_roundWithAccuracy _ _

theorem isBelowZero_ofFields (biased fraction : Nat) :
    (ofFields false biased fraction).isBelowZero = false := by
  rw [ofFields]
  split
  · split <;> rfl
  · split <;> rfl

theorem unpacked_cases {u : UnpackedFloat} (h : (ofUnpacked u).isBelowZero = false) :
    u = .notANumber ∨ u = .infinity .positive ∨ (∃ s, u = .zero s) ∨
      ∃ m e hm, u = .finite .positive m e hm := by
  cases u with
  | notANumber => exact Or.inl rfl
  | infinity s =>
    cases s with
    | negative => cases h
    | positive => exact Or.inr (Or.inl rfl)
  | zero s => exact Or.inr (Or.inr (Or.inl ⟨s, rfl⟩))
  | finite s m e hm =>
    cases s with
    | negative =>
      have hnonzero : (m != 0) = false := h
      exact absurd (bne_eq_false_iff_eq.1 hnonzero) (Nat.ne_of_gt hm)
    | positive => exact Or.inr (Or.inr (Or.inr ⟨m, e, hm, rfl⟩))

section Unpacked

variable {u v : UnpackedFloat} (hu : (ofUnpacked u).isBelowZero = false)
  (hv : (ofUnpacked v).isBelowZero = false)

include hu

theorem isBelowZero_stored : (stored u).isBelowZero = false := by
  obtain rfl | rfl | ⟨s, rfl⟩ | ⟨m, e, hm, rfl⟩ := unpacked_cases hu
  · rw [stored_notANumber]
    rfl
  · rw [stored_infinity]
    rfl
  · rw [stored_zero]
    exact hu
  · have hpack : ∃ exponent mantissa, pack Format.binary64 (.finite .positive m e hm) =
        packComponents Format.binary64 .positive exponent mantissa := by
      delta pack packedInfinity
      dsimp only
      split
      · exact ⟨_, _, rfl⟩
      · split <;> exact ⟨_, _, rfl⟩
    obtain ⟨exponent, mantissa, hpack⟩ := hpack
    rw [stored, ofFloat_eq]
    change (ofUnpacked (unpack Format.binary64
      (pack Format.binary64 (.finite .positive m e hm)))).isBelowZero = false
    rw [hpack, ofUnpacked_components]
    exact isBelowZero_ofFields _ _

include hv

theorem isBelowZero_add_unpacked :
    (ofUnpacked (UnpackedFloat.add Format.binary64 u v)).isBelowZero = false := by
  obtain rfl | rfl | ⟨s₁, rfl⟩ | ⟨m₁, e₁, hm₁, rfl⟩ := unpacked_cases hu
  · rfl
  · obtain rfl | rfl | ⟨s₂, rfl⟩ | ⟨m₂, e₂, hm₂, rfl⟩ := unpacked_cases hv <;> rfl
  · obtain rfl | rfl | ⟨s₂, rfl⟩ | ⟨m₂, e₂, hm₂, rfl⟩ := unpacked_cases hv
    · rfl
    · rfl
    · cases s₁ <;> cases s₂ <;> rfl
    · rfl
  · obtain rfl | rfl | ⟨s₂, rfl⟩ | ⟨m₂, e₂, hm₂, rfl⟩ := unpacked_cases hv
    · rfl
    · rfl
    · rfl
    · exact isBelowZero_normalize (_ + _) (min e₁ e₂)

theorem isBelowZero_mul_unpacked :
    (ofUnpacked (UnpackedFloat.mul Format.binary64 u v)).isBelowZero = false := by
  obtain rfl | rfl | ⟨s₁, rfl⟩ | ⟨m₁, e₁, hm₁, rfl⟩ := unpacked_cases hu
  · rfl
  · obtain rfl | rfl | ⟨s₂, rfl⟩ | ⟨m₂, e₂, hm₂, rfl⟩ := unpacked_cases hv <;> rfl
  · obtain rfl | rfl | ⟨s₂, rfl⟩ | ⟨m₂, e₂, hm₂, rfl⟩ := unpacked_cases hv
    · rfl
    · rfl
    · cases s₁ <;> cases s₂ <;> rfl
    · cases s₁ <;> rfl
  · obtain rfl | rfl | ⟨s₂, rfl⟩ | ⟨m₂, e₂, hm₂, rfl⟩ := unpacked_cases hv
    · rfl
    · rfl
    · cases s₂ <;> rfl
    · exact isBelowZero_roundWithAccuracy _ _

end Unpacked

section Sums

variable {x y : Float} (hx : (ofFloat x).isBelowZero = false)
  (hy : (ofFloat y).isBelowZero = false)

include hx hy

theorem isBelowZero_add : (ofFloat (x + y)).isBelowZero = false := by
  rw [ofFloat_eq] at hx hy
  rw [ofFloat_add]
  exact isBelowZero_stored (isBelowZero_add_unpacked hx hy)

theorem isBelowZero_mul : (ofFloat (x * y)).isBelowZero = false := by
  rw [ofFloat_eq] at hx hy
  rw [ofFloat_mul]
  exact isBelowZero_stored (isBelowZero_mul_unpacked hx hy)

end Sums

section Order

variable {x y : Float}

theorem lt_iff_compare :
    x < y ↔ UnpackedFloat.compare x.toModel.unpack y.toModel.unpack = some .lt :=
  decide_eq_true_iff.trans beq_iff_eq

theorem le_iff_compare :
    x ≤ y ↔ (UnpackedFloat.compare x.toModel.unpack y.toModel.unpack).any Ordering.isLE = true :=
  decide_eq_true_iff

theorem isBelowZero_eq_compare :
    (ofFloat x).isBelowZero =
      (UnpackedFloat.compare (0 : Float).toModel.unpack x.toModel.unpack == some .gt) := by
  have hzero : (0 : Float).toModel.unpack = .zero .positive := by rfl
  rw [hzero, ofFloat_eq]
  cases x.toModel.unpack with
  | notANumber => rfl
  | infinity s => cases s <;> rfl
  | zero s => cases s <;> rfl
  | finite s m e hm =>
    cases s with
    | negative => exact (bne_iff_ne.2 (Nat.ne_of_gt hm))
    | positive => rfl

theorem isBelowZero_of_pos (h : 0 < x) : (ofFloat x).isBelowZero = false := by
  rw [isBelowZero_eq_compare, lt_iff_compare.1 h]
  rfl

theorem isBelowZero_of_nonneg (h : 0 ≤ x) : (ofFloat x).isBelowZero = false := by
  rw [le_iff_compare] at h
  rw [isBelowZero_eq_compare]
  revert h
  cases UnpackedFloat.compare (0 : Float).toModel.unpack x.toModel.unpack with
  | none => exact fun _ => rfl
  | some o => cases o <;> simp

theorem upward_cases (hx : (ofFloat x).isBelowZero = false) (hfinite : (ofFloat x).isFinite = true) :
    (∃ s, x.toModel.unpack = .zero s ∧ value (ofFloat x) = 0) ∨
      ∃ m e hm, x.toModel.unpack = .finite .positive m e hm ∧ Canonical m e ∧
        value (ofFloat x) = magnitude m e := by
  obtain hzero | ⟨s, m, e, hm, hunpack, hcanonical, hvalue⟩ := value_cases hfinite
  · exact Or.inl hzero
  · right
    rw [ofFloat_eq, hunpack] at hx
    obtain h | h | ⟨s', h⟩ | ⟨m', e', hm', h⟩ := unpacked_cases hx
    · cases h
    · cases h
    · cases h
    · cases h
      exact ⟨m, e, hm, hunpack, hcanonical, hvalue⟩

theorem value_nonneg (hx : (ofFloat x).isBelowZero = false) : 0 ≤ value (ofFloat x) := by
  cases hshape : ofFloat x with
  | nan => exact le_rfl
  | infinite negative => exact le_rfl
  | finite negative m e =>
    rw [← hshape]
    obtain ⟨s, -, hv⟩ | ⟨m, e, hm, -, -, hv⟩ := upward_cases hx (by rw [hshape]; rfl)
    · exact hv.ge
    · rw [hv]
      exact magnitude_nonneg m e

/-- Doubles that are not below zero are compared as the numbers they stand for. -/
theorem lt_iff_value_lt (hx : (ofFloat x).isBelowZero = false)
    (hy : (ofFloat y).isBelowZero = false) (hfinite : (ofFloat y).isFinite = true) :
    x < y ↔ (ofFloat x).isFinite = true ∧ value (ofFloat x) < value (ofFloat y) := by
  have hcases := upward_cases hy hfinite
  rw [lt_iff_compare]
  by_cases hsmall : (ofFloat x).isFinite = true
  · rw [and_iff_right hsmall]
    obtain ⟨s₁, h₁, hv₁⟩ | ⟨m₁, e₁, hm₁, h₁, hc₁, hv₁⟩ := upward_cases hx hsmall
    · obtain ⟨s₂, h₂, hv₂⟩ | ⟨m₂, e₂, hm₂, h₂, hc₂, hv₂⟩ := hcases
      · rw [h₁, h₂, hv₁, hv₂]
        exact iff_of_false nofun (lt_irrefl 0)
      · rw [h₁, h₂, hv₁, hv₂]
        exact iff_of_true rfl (magnitude_pos hm₂ e₂)
    · obtain ⟨s₂, h₂, hv₂⟩ | ⟨m₂, e₂, hm₂, h₂, hc₂, hv₂⟩ := hcases
      · rw [h₁, h₂, hv₁, hv₂]
        exact iff_of_false nofun (not_lt_of_ge (magnitude_nonneg m₁ e₁))
      · rw [h₁, h₂, hv₁, hv₂, hc₁.magnitude_lt_iff hc₂]
        change some ((compare e₁ e₂).then (compare m₁ m₂)) = some .lt ↔ _
        rw [Option.some_inj, Ordering.then_eq_lt, Int.compare_eq_lt, Int.compare_eq_eq,
          Nat.compare_eq_lt]
  · refine iff_of_false ?_ (fun h => hsmall h.1)
    rw [isFinite_ofFloat] at hsmall
    rw [ofFloat_eq] at hx
    obtain h | h | ⟨s, h⟩ | ⟨m, e, hm, h⟩ := unpacked_cases hx
    · rw [h]
      nofun
    · obtain ⟨s₂, h₂, -⟩ | ⟨m₂, e₂, hm₂, h₂, -⟩ := hcases
      · rw [h, h₂]
        nofun
      · rw [h, h₂]
        nofun
    · exact absurd (congrArg UnpackedFloat.isFinite h) hsmall
    · exact absurd (congrArg UnpackedFloat.isFinite h) hsmall

end Order

section Zero

variable {b : Binary64} {x : Float}

theorem isBelowZero_iff_value_neg (h : b.isFinite = true) : b.isBelowZero = true ↔ value b < 0 := by
  cases b with
  | nan => cases h
  | infinite negative => cases h
  | finite negative m e =>
    have hpower : (0 : ℚ) < 2 ^ e := zpow_pos two_pos e
    cases negative with
    | false =>
      apply iff_of_false
      · exact Bool.false_ne_true
      · exact not_lt_of_ge (mul_nonneg (Nat.cast_nonneg m) hpower.le)
    | true =>
      rw [isBelowZero, value, signed, if_pos rfl, Int.cast_neg, Int.cast_natCast, mul_neg_iff]
      simp [hpower, not_lt_of_gt hpower, Nat.pos_iff_ne_zero]

theorem isBelowZero_eq_false_iff (h : b.isFinite = true) :
    b.isBelowZero = false ↔ 0 ≤ value b := by
  rw [← not_lt, ← isBelowZero_iff_value_neg h, Bool.not_eq_true]

theorem pos_iff_value_pos (h : (ofFloat x).isFinite = true) :
    0 < x ↔ 0 < value (ofFloat x) := by
  have hbits : ofFloat 0 = .finite false 0 (-1074) := by decide +kernel
  have hzero : (ofFloat 0).isBelowZero = false := by rw [hbits]; rfl
  have hvalue : value (ofFloat 0) = 0 := by simp [hbits, value, signed]
  constructor
  · intro hpos
    have hless := ((lt_iff_value_lt hzero (isBelowZero_of_pos hpos) h).1 hpos).2
    rwa [hvalue] at hless
  · intro hpos
    rw [lt_iff_value_lt hzero ((isBelowZero_eq_false_iff h).2 hpos.le) h, hvalue, hbits]
    exact ⟨rfl, hpos⟩

theorem nonneg_iff_value_nonneg (h : (ofFloat x).isFinite = true) :
    0 ≤ x ↔ 0 ≤ value (ofFloat x) := by
  rw [← isBelowZero_eq_false_iff h]
  constructor
  · exact isBelowZero_of_nonneg
  · intro hx
    have hzero : (0 : Float).toModel.unpack = .zero .positive := by rfl
    rw [le_iff_compare, hzero]
    obtain ⟨s, hunpack, -⟩ | ⟨m, e, hm, hunpack, -⟩ := upward_cases hx h
    · rw [hunpack]
      rfl
    · rw [hunpack]
      rfl

end Zero

section Monotone

variable {m₁ m₂ : Nat} {e₁ e₂ : Int}

/-- If the larger of two results has room in the bits of a double, so has the smaller one. -/
theorem stored_mono {hm₁ : 0 < m₁} {hm₂ : 0 < m₂} (h₁ : Canonical m₁ e₁) (h₂ : Canonical m₂ e₂)
    (h : magnitude m₁ e₁ ≤ magnitude m₂ e₂)
    (hfinite : (stored (.finite .positive m₂ e₂ hm₂)).isFinite = true) :
    (stored (.finite .positive m₁ e₁ hm₁)).isFinite = true ∧
      value (stored (.finite .positive m₁ e₁ hm₁)) ≤
        value (stored (.finite .positive m₂ e₂ hm₂)) := by
  have hroom : e₂ ≤ 971 := by
    by_contra hlarge
    rw [stored_finite hm₂ h₂, if_neg hlarge] at hfinite
    cases hfinite
  have hexponent : e₁ ≤ e₂ := by
    by_contra hlarger
    exact absurd h (not_le_of_gt (h₂.magnitude_lt h₁ (not_le.1 hlarger)))
  rw [stored_finite hm₁ h₁, if_pos (hexponent.trans hroom), stored_finite hm₂ h₂, if_pos hroom]
  exact ⟨rfl, h⟩

/-- The exact sum of two positive numbers is rounded. -/
theorem add_positive (hm₁ : 0 < m₁) (hm₂ : 0 < m₂) : ∃ m, 0 < m ∧
    UnpackedFloat.add Format.binary64 (.finite .positive m₁ e₁ hm₁) (.finite .positive m₂ e₂ hm₂) =
      UnpackedFloat.round Format.binary64 .positive m (min e₁ e₂) ∧
    magnitude m (min e₁ e₂) = magnitude m₁ e₁ + magnitude m₂ e₂ := by
  let e := min e₁ e₂
  let m := (decreaseExponent m₁ e₁ e).1 + (decreaseExponent m₂ e₂ e).1
  have hsum : magnitude m e = magnitude m₁ e₁ + magnitude m₂ e₂ := by
    rw [← magnitude_aligned m₁ (min_le_left e₁ e₂), ← magnitude_aligned m₂ (min_le_right e₁ e₂)]
    exact magnitude_add _ _ e
  have hm : 0 < m := by
    have hpos := add_pos (magnitude_pos hm₁ e₁) (magnitude_pos hm₂ e₂)
    rw [← hsum, ← magnitude_zero e, magnitude_lt_iff] at hpos
    exact hpos
  refine ⟨m, hm, ?_, hsum⟩
  exact normalize_pos hm

theorem le_round {m : Nat} {e : Int} (hm : 0 < m) (hcanonical : Canonical m e) (hm₁ : 0 < m₁)
    (he₁ : -1074 ≤ e₁) (h : magnitude m e ≤ magnitude m₁ e₁) :
    ∃ m' e' hm', UnpackedFloat.round Format.binary64 .positive m₁ e₁ =
        .finite .positive m' e' hm' ∧
      Canonical m' e' ∧ magnitude m e ≤ magnitude m' e' := by
  obtain ⟨k, hround, hmagnitude, hplaces⟩ := round_widened .positive hm₁ (e := e₁)
  have hwide : 0 < m₁ * 2 ^ k := Nat.mul_pos hm₁ (Nat.two_pow_pos k)
  obtain ⟨m', e', hm', hresult, hcanonical', hrounded⟩ :=
    roundWithAccuracy_rounded .positive hwide hplaces ⟨_, hmagnitude.trans (magnitude_grid m₁ he₁)⟩
  refine ⟨m', e', hm', hround.trans hresult, hcanonical', ?_⟩
  rw [hrounded, ← rounded_canonical hcanonical]
  apply rounded_mono hm hwide _ hplaces
  · rw [hmagnitude]
    exact h
  · exact hcanonical.full.imp_right Eq.le

theorem mul_whole_positive {k : Nat} (hm₁ : 0 < m₁) (hm₂ : 0 < m₂) (h₁ : Canonical m₁ e₁)
    (h₂ : Canonical m₂ e₂) (hwhole : magnitude m₂ e₂ = k) :
    ∃ m e hm, UnpackedFloat.mul Format.binary64 (.finite .positive m₁ e₁ hm₁)
        (.finite .positive m₂ e₂ hm₂) = .finite .positive m e hm ∧
      Canonical m e ∧ magnitude m e = rounded (m₁ * m₂) (e₁ + e₂) := by
  apply roundWithAccuracy_rounded .positive (Nat.mul_pos hm₁ hm₂) (h₁.mul_places h₂ hm₁ hm₂)
  refine ⟨m₁ * 2 ^ (e₁ + 1074).toNat * k, ?_⟩
  rw [magnitude_mul, hwhole, magnitude_grid m₁ h₁.exponent_ge, magnitude, magnitude,
    Nat.cast_mul _ k]
  ring

end Monotone

section Results

variable {x y z : Float}

/-- A double that is no larger than the exact sum of two others is no larger than their sum. -/
theorem le_value_add (hx : (ofFloat x).isBelowZero = false) (hy : (ofFloat y).isBelowZero = false)
    (hz : (ofFloat z).isBelowZero = false) (hfinite : (ofFloat z).isFinite = true)
    (hsum : (ofFloat (x + y)).isFinite = true)
    (h : value (ofFloat z) ≤ value (ofFloat x) + value (ofFloat y)) :
    value (ofFloat z) ≤ value (ofFloat (x + y)) := by
  obtain ⟨hxfinite, hyfinite⟩ := isFinite_of_add hsum
  have hexact := value_add_of_zero hxfinite hyfinite hsum
  have hnonneg := value_nonneg (isBelowZero_add hx hy)
  obtain ⟨s₁, h₁, -⟩ | ⟨m₁, e₁, hm₁, h₁, hc₁, hv₁⟩ := upward_cases hx hxfinite
  · rw [hexact (Or.inl ⟨s₁, h₁⟩)]
    exact h
  · obtain ⟨s₂, h₂, -⟩ | ⟨m₂, e₂, hm₂, h₂, hc₂, hv₂⟩ := upward_cases hy hyfinite
    · rw [hexact (Or.inr ⟨s₂, h₂⟩)]
      exact h
    · obtain ⟨s, h₃, hv₃⟩ | ⟨m, e, hm, h₃, hc₃, hv₃⟩ := upward_cases hz hfinite
      · rw [hv₃]
        exact hnonneg
      · obtain ⟨m', hm', hadd, hexact⟩ := @add_positive m₁ m₂ e₁ e₂ hm₁ hm₂
        rw [hv₁, hv₂, hv₃, ← hexact] at h
        obtain ⟨m'', e'', hm'', hround, hc'', hle⟩ :=
          le_round hm hc₃ hm' (le_min hc₁.exponent_ge hc₂.exponent_ge) h
        rw [ofFloat_add, h₁, h₂, hadd, hround] at hsum ⊢
        rw [value_stored hc'' hsum, hv₃]
        exact hle

/-- Of two products with a whole number, the one with the smaller factor is smaller, and has room in
the bits of a double if the other has. -/
theorem value_mul_whole_mono {k : Nat} (hx : (ofFloat x).isBelowZero = false)
    (hz : (ofFloat z).isBelowZero = false) (hy : (ofFloat y).isBelowZero = false)
    (hwhole : value (ofFloat y) = k) (hfinite : (ofFloat x).isFinite = true)
    (hproduct : (ofFloat (z * y)).isFinite = true)
    (h : value (ofFloat x) ≤ value (ofFloat z)) :
    (ofFloat (x * y)).isFinite = true ∧ value (ofFloat (x * y)) ≤ value (ofFloat (z * y)) := by
  obtain ⟨hzfinite, hyfinite⟩ := isFinite_of_mul hproduct
  have hnonneg := value_nonneg (isBelowZero_mul hz hy)
  rw [ofFloat_mul] at hproduct hnonneg ⊢
  rw [ofFloat_mul]
  have hzero {u : UnpackedFloat} (hu : ∃ s, u = .zero s) : (stored u).isFinite = true ∧
      value (stored u) ≤ value (stored (UnpackedFloat.mul Format.binary64 z.toModel.unpack
        y.toModel.unpack)) := by
    obtain ⟨s, rfl⟩ := hu
    rw [value_stored_zero, stored_zero]
    exact ⟨rfl, hnonneg⟩
  obtain ⟨s₁, h₁, -⟩ | ⟨m₁, e₁, hm₁, h₁, hc₁, hv₁⟩ := upward_cases hx hfinite
  · exact hzero (mul_of_zero hfinite hyfinite (Or.inl ⟨s₁, h₁⟩))
  · obtain ⟨s₂, h₂, -⟩ | ⟨m₂, e₂, hm₂, h₂, hc₂, hv₂⟩ := upward_cases hy hyfinite
    · exact hzero (mul_of_zero hfinite hyfinite (Or.inr ⟨s₂, h₂⟩))
    · obtain ⟨s₃, h₃, hv₃⟩ | ⟨m₃, e₃, hm₃, h₃, hc₃, hv₃⟩ := upward_cases hz hzfinite
      · rw [hv₁, hv₃] at h
        exact absurd h (not_le_of_gt (magnitude_pos hm₁ e₁))
      · rw [hv₂] at hwhole
        obtain ⟨m, e, hm, hmul, hc, hrounded⟩ := mul_whole_positive hm₁ hm₂ hc₁ hc₂ hwhole
        obtain ⟨m', e', hm', hmul', hc', hrounded'⟩ := mul_whole_positive hm₃ hm₂ hc₃ hc₂ hwhole
        rw [h₂, h₃, hmul'] at hproduct
        rw [h₁, h₂, h₃, hmul, hmul']
        apply stored_mono hc hc' _ hproduct
        rw [hrounded, hrounded']
        apply rounded_mono (Nat.mul_pos hm₁ hm₂) (Nat.mul_pos hm₃ hm₂)
          (hc₁.mul_places hc₂ hm₁ hm₂) (hc₃.mul_places hc₂ hm₃ hm₂)
        rw [magnitude_mul, magnitude_mul, ← hv₁, ← hv₃]
        exact mul_le_mul_of_nonneg_right h (magnitude_nonneg m₂ e₂)

end Results

end Binary64

end QuotePress
