import QuotePress.Proofs.Decimal.Order

/-! # Doubles against whole numbers of 64 bits

A double that is not below zero becomes a whole number of 64 bits, rounded or as its whole part,
exactly if it is below `2 ^ 63`. -/
namespace QuotePress

namespace Binary64

/-- The least double above all whole numbers of 64 bits. -/
def limit : Float := 9223372036854775808

def wholePart : Binary64 → Int
  | .finite negative m e =>
    let (num, den) := fraction m e
    signed negative (num / den)
  | _ => 0

theorem truncate_eq {b : Binary64} (h : b.isFinite = true) : b.truncate = clamp b.wholePart := by
  cases b with
  | finite negative m e => rfl
  | infinite negative => cases h
  | nan => cases h

theorem wholePart_of_isWhole {b : Binary64} (h : b.isWhole = true) : (b.wholePart : ℚ) = value b := by
  cases b with
  | nan => cases h
  | infinite negative => cases h
  | finite negative m e =>
    obtain ⟨n, hn⟩ : ∃ n, (fraction m e).1 / (fraction m e).2 = n := ⟨_, rfl⟩
    have hwhole : wholePart (.finite negative m e) = signed negative n :=
      congrArg (signed negative) hn
    have hrest : (fraction m e).1 % (fraction m e).2 = 0 := of_decide_eq_true h
    have hexact : (n : ℚ) = magnitude m e := by
      have hden : ((fraction m e).2 : ℚ) ≠ 0 := Nat.cast_ne_zero.2 (Nat.two_pow_pos _).ne'
      rw [← mul_left_inj' hden, ← fraction_eq, ← hn, ← Nat.cast_mul,
        Nat.div_mul_cancel (Nat.dvd_of_mod_eq_zero hrest)]
    rw [value_eq_signed, hwhole, ← hexact]
    cases negative <;> simp [signed]

theorem cast_maxInt : (maxInt : ℚ) = 2 ^ 63 - 1 := by
  norm_num [maxInt]

section Limit

variable {x : Float} (hx : (ofFloat x).isBelowZero = false)

include hx

theorem lt_limit_iff :
    x < limit ↔ (ofFloat x).isFinite = true ∧ value (ofFloat x) < 2 ^ 63 := by
  have hbits : ofFloat limit = .finite false 4503599627370496 11 := by decide +kernel
  have hvalue : value (ofFloat limit) = 2 ^ 63 := by
    rw [hbits]
    norm_num [value, signed]
  rw [lt_iff_value_lt hx (by rw [hbits]; rfl) (by rw [hbits]; rfl), hvalue]

variable (hfinite : (ofFloat x).isFinite = true)

include hfinite

/-- A double has digits after the point only if its mantissa is not used up in front of it. -/
theorem small_or_whole : value (ofFloat x) ≤ 2 ^ 52 ∨
    (ofFloat x).isWhole = true ∧ ∃ n : Nat, value (ofFloat x) = n := by
  obtain ⟨s, -, hv⟩ | ⟨m, e, hm, hunpack, hcanonical, hv⟩ := upward_cases hx hfinite
  · rw [hv]
    exact Or.inl (by positivity)
  · rw [hv, ofFloat_eq, hunpack]
    rcases lt_or_ge e 0 with he | he
    · left
      calc magnitude m e ≤ magnitude (2 * leadingBit) e :=
            magnitude_le_iff.2 hcanonical.mantissa_lt.le
        _ ≤ magnitude leadingBit 0 := magnitude_double_le _ he
        _ = 2 ^ 52 := by norm_num [magnitude, leadingBit]
    · right
      obtain ⟨k, rfl⟩ := Int.eq_ofNat_of_zero_le he
      have hpoint : (-(k : Int)).toNat = 0 := by omega
      refine ⟨decide_eq_true ?_, m * 2 ^ k, ?_⟩
      · rw [hpoint]
        exact Nat.mod_one _
      · rw [← Int.zero_add (k : Int), magnitude_shift, magnitude, zpow_zero, mul_one]

theorem value_lt_limit_iff : value (ofFloat x) < 2 ^ 63 ↔ value (ofFloat x) ≤ maxInt := by
  rw [cast_maxInt]
  obtain hsmall | ⟨-, n, hn⟩ := small_or_whole hx hfinite
  · exact iff_of_true (by linarith) (by linarith)
  · rw [hn, le_sub_iff_add_le]
    exact_mod_cast Iff.rfl

theorem nearest_within_iff : minInt ≤ (ofFloat x).nearest ∧ (ofFloat x).nearest ≤ maxInt ↔
    value (ofFloat x) < 2 ^ 63 := by
  have hnear := abs_le.1 (nearest_within_half (ofFloat x))
  have hnonneg := value_nonneg hx
  have hmax := cast_maxInt
  constructor
  · rintro ⟨-, h⟩
    have h : ((ofFloat x).nearest : ℚ) ≤ maxInt := by exact_mod_cast h
    linarith
  · intro h
    have hle := (value_lt_limit_iff hx hfinite).1 h
    have hlow : ((-1 : Int) : ℚ) < (ofFloat x).nearest := by
      rw [Int.cast_neg, Int.cast_one]
      linarith
    have hhigh : ((ofFloat x).nearest : ℚ) < (maxInt + 1 : Int) := by
      rw [Int.cast_add, Int.cast_one]
      linarith
    have hlow := Int.cast_lt.1 hlow
    have hhigh := Int.cast_lt.1 hhigh
    rw [minInt]
    omega

/-- If a double is whole, its whole part is within 64 bits exactly below the limit; and it is whole if
it is not below the limit. -/
theorem wholePart_within_iff : ((ofFloat x).isWhole = true →
      minInt ≤ (ofFloat x).wholePart ∧ (ofFloat x).wholePart ≤ maxInt) ↔
    value (ofFloat x) < 2 ^ 63 := by
  have hnonneg := value_nonneg hx
  rw [value_lt_limit_iff hx hfinite]
  constructor
  · intro h
    obtain hsmall | ⟨hwhole, -⟩ := small_or_whole hx hfinite
    · have hmax := cast_maxInt
      linarith
    · rw [← wholePart_of_isWhole hwhole]
      exact_mod_cast (h hwhole).2
  · intro h hwhole
    rw [← wholePart_of_isWhole hwhole] at h hnonneg
    have hlow : 0 ≤ (ofFloat x).wholePart := by exact_mod_cast hnonneg
    have hhigh : (ofFloat x).wholePart ≤ maxInt := by exact_mod_cast h
    rw [minInt]
    omega

end Limit

end Binary64

end QuotePress
