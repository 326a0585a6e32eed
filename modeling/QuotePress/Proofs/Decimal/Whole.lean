import QuotePress.Proofs.Decimal.Limit
import QuotePress.Value

/-! # Whole numbers as doubles

A whole number below `2 ^ 53` is a double, and is printed as it is. -/
namespace QuotePress

namespace Binary64

open Float.Model (Format UnpackedFloat)
open Float.Model.UnpackedFloat

section Exact

variable {m m' : Nat} {e e' : Int}

theorem Canonical.unique (h : Canonical m e) (h' : Canonical m' e')
    (heq : magnitude m e = magnitude m' e') : m = m' ∧ e = e' := by
  have hexponent : e = e' := by
    rcases lt_trichotomy e e' with hlt | hsame | hgt
    · exact absurd heq (h.magnitude_lt h' hlt).ne
    · exact hsame
    · exact absurd heq.symm (h'.magnitude_lt h hgt).ne
  subst hexponent
  exact ⟨magnitude_inj heq, rfl⟩

/-- Rounding changes nothing that is a double. -/
theorem rounded_exact (hm : 0 < m) (hplaces : leadingBit ≤ m ∨ e ≤ -1074) (hm' : 0 < m')
    (h' : Canonical m' e') (heq : magnitude m e = magnitude m' e') :
    rounded m e = magnitude m' e' := by
  have hplaces' : leadingBit ≤ m' ∨ e' ≤ -1074 := h'.full.imp_right Eq.le
  rw [← rounded_canonical h']
  apply le_antisymm
  · exact rounded_mono hm hm' hplaces hplaces' heq.le
  · exact rounded_mono hm' hm hplaces' hplaces heq.ge

/-- A number that is a double is what it is rounded to. -/
theorem round_exact (hm : 0 < m) (he : -1074 ≤ e) (hm' : 0 < m') (h' : Canonical m' e')
    (heq : magnitude m e = magnitude m' e') :
    UnpackedFloat.round Format.binary64 .positive m e = .finite .positive m' e' hm' := by
  obtain ⟨k, hround, hmagnitude, hplaces⟩ := round_widened .positive hm (e := e)
  have hwide : 0 < m * 2 ^ k := Nat.mul_pos hm (Nat.two_pow_pos k)
  obtain ⟨m₁, e₁, hm₁, hresult, hcanonical, hrounded⟩ :=
    roundWithAccuracy_rounded .positive hwide hplaces ⟨_, hmagnitude.trans (magnitude_grid m he)⟩
  rw [rounded_exact hwide hplaces hm' h' (hmagnitude.trans heq)] at hrounded
  obtain ⟨rfl, rfl⟩ := hcanonical.unique h' hrounded
  exact hround.trans hresult

theorem mul_exact {m₁ m₂ k : Nat} {e₁ e₂ : Int} {hm₁ : 0 < m₁} {hm₂ : 0 < m₂}
    (h₁ : Canonical m₁ e₁) (h₂ : Canonical m₂ e₂) (hwhole : magnitude m₂ e₂ = k) (hm : 0 < m)
    (h : Canonical m e) (heq : magnitude m₁ e₁ * k = magnitude m e) :
    UnpackedFloat.mul Format.binary64 (.finite .positive m₁ e₁ hm₁) (.finite .positive m₂ e₂ hm₂) =
      .finite .positive m e hm := by
  obtain ⟨m', e', hm', hresult, hcanonical, hrounded⟩ := mul_whole_positive hm₁ hm₂ h₁ h₂ hwhole
  rw [rounded_exact (Nat.mul_pos hm₁ hm₂) (h₁.mul_places h₂ hm₁ hm₂) hm h
    ((magnitude_mul ..).trans (hwhole ▸ heq))] at hrounded
  obtain ⟨rfl, rfl⟩ := hcanonical.unique h hrounded
  exact hresult

end Exact

def room (n : Nat) : Nat :=
  52 - n.log2

theorem magnitude_whole (n k : Nat) : magnitude (n * 2 ^ k) (-(k : Int)) = n := by
  rw [← magnitude_shift]
  simp [magnitude]

theorem unpack_positive {x : Float} {m : Nat} {e : Int} (h : ofFloat x = .finite false m e)
    (hm : 0 < m) : x.toModel.unpack = .finite .positive m e hm := by
  obtain ⟨s, hs, ⟨hzero, -⟩ | ⟨_, hunpack⟩⟩ := unpack_ofFloat h
  · exact absurd hzero hm.ne'
  · cases s with
    | negative => cases hs
    | positive => exact hunpack

section Whole

variable {n : Nat} (hn : 0 < n) (h : n < 2 * leadingBit)

include hn h

theorem canonical_whole : Canonical (n * 2 ^ room n) (-(room n : Int)) := by
  have hlow : 2 ^ n.log2 ≤ n := Nat.log2_self_le hn.ne'
  have hhigh : n < 2 ^ (n.log2 + 1) := Nat.lt_log2_self
  have hlog : n.log2 < 53 := (Nat.log2_lt hn.ne').2 h
  have hroom : n.log2 + room n = 52 := by
    rw [room]
    omega
  constructor
  · calc n * 2 ^ room n < 2 ^ (n.log2 + 1) * 2 ^ room n :=
          Nat.mul_lt_mul_of_pos_right hhigh (Nat.two_pow_pos _)
      _ = 2 ^ (52 + 1) := by rw [← Nat.pow_add, ← hroom, Nat.add_right_comm]
  · omega
  · left
    calc 2 ^ 52 = 2 ^ n.log2 * 2 ^ room n := by rw [← hroom, Nat.pow_add]
      _ ≤ n * 2 ^ room n := Nat.mul_le_mul_right _ hlow

theorem stored_whole (hm : 0 < n * 2 ^ room n) :
    stored (.finite .positive (n * 2 ^ room n) (-(room n : Int)) hm) =
      .finite false (n * 2 ^ room n) (-(room n : Int)) := by
  rw [stored_finite hm (canonical_whole hn h), if_pos (by omega)]
  rfl

theorem ofFloat_toFloat : ofFloat n.toUInt64.toFloat =
    .finite false (n * 2 ^ room n) (-(room n : Int)) := by
  have hm : 0 < n * 2 ^ room n := Nat.mul_pos hn (Nat.two_pow_pos _)
  have hword : n.toUInt64.toNat = n :=
    Nat.mod_eq_of_lt (h.trans (by decide))
  have hround : ofFloat n.toUInt64.toFloat =
      stored (UnpackedFloat.normalize Format.binary64 n.toUInt64.toNat 0 .positive) := rfl
  rw [hround, hword, normalize_pos hn,
    round_exact hn (by decide) hm (canonical_whole hn h) ?_]
  · exact stored_whole hn h hm
  · rw [magnitude_whole]
    simp [magnitude]

/-- A whole number that a double has room for is not rounded. -/
theorem ofFloat_ofNat : ofFloat (Float.ofNat n) =
    .finite false (n * 2 ^ room n) (-(room n : Int)) := by
  have hm : 0 < n * 2 ^ room n := Nat.mul_pos hn (Nat.two_pow_pos _)
  let one := Float.ofBits 4607182418800017408
  have hbits : ofFloat one = .finite false leadingBit (-52) := by decide +kernel
  have hone : magnitude leadingBit (-52) = (1 : Nat) := magnitude_whole 1 52
  have hproduct : Float.ofNat n = n.toUInt64.toFloat * one :=
    dif_pos (⟨h, by decide⟩ : n < 2 ^ 53 ∧ 0 ≤ 22)
  rw [hproduct, ofFloat_mul, unpack_positive (ofFloat_toFloat hn h) hm,
    unpack_positive hbits (by decide), mul_exact (canonical_whole hn h) (canonical_ofFloat hbits)
      hone hm (canonical_whole hn h) (by simp)]
  exact stored_whole hn h hm

end Whole

end Binary64

theorem Value.numberText_ofNat {n : Nat} (hn : 0 < n) (h : n < 2 * Binary64.leadingBit) :
    numberText (Float.ofNat n) = toString n := by
  have hfraction (k : Nat) : Binary64.fraction (n * 2 ^ k) (-(k : Int)) = (n * 2 ^ k, 2 ^ k) := by
    simp [Binary64.fraction, twoTo]
  have hexact : n * 2 ^ Binary64.room n / 2 ^ Binary64.room n = n :=
    Nat.mul_div_cancel n (Nat.two_pow_pos _)
  have hlimit : n ≤ exactLimit := h.le
  simp only [numberText, Binary64.ofFloat_ofNat hn h, hfraction, Nat.mul_mod_left, hexact, hlimit,
    and_self, if_true]
  rfl

end QuotePress
