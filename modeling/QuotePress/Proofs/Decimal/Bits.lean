import QuotePress.Decimal.Binary64
import Mathlib.Tactic.NormNum

/-! # Doubles in bits

Arithmetic on doubles is defined on numbers that are taken out of their bits and put back into them.
What a double stands for can be read in either form. -/
namespace QuotePress.Binary64

open Float.Model (Format UnpackedFloat)
open Float.Model.UnpackedFloat

def isNegative : Sign → Bool
  | .negative => true
  | .positive => false

def ofUnpacked : UnpackedFloat → Binary64
  | .notANumber => .nan
  | .infinity s => .infinite (isNegative s)
  | .zero s => .finite (isNegative s) 0 (-1074)
  | .finite s m e _ => .finite (isNegative s) m e

def ofFields (negative : Bool) (biased fraction : Nat) : Binary64 :=
  if biased = 2047 then
    if fraction = 0 then .infinite negative else .nan
  else if biased = 0 then .finite negative fraction (-1074)
  else .finite negative (leadingBit + fraction) (biased - 1075)

section Fields

variable (bits : BitVec 64)

theorem toNat_mantissa :
    (@unpackMantissa Format.binary64 bits).toNat = bits.toNat % leadingBit := by
  simp [unpackMantissa, leadingBit]

theorem toNat_exponent :
    (@unpackExponent Format.binary64 bits).toNat = bits.toNat / leadingBit % 2048 := by
  simp [unpackExponent, leadingBit, Nat.shiftRight_eq_div_pow]

theorem toNat_sign :
    (@unpackSign Format.binary64 bits).toNat = bits.toNat / leadingBit / 2048 := by
  have hbits := bits.isLt
  change (bits.extractLsb 63 63).toNat = _
  simp only [BitVec.extractLsb_toNat, Nat.shiftRight_eq_div_pow, leadingBit]
  norm_num
  omega

theorem isNegative_ofBitVec (bit : BitVec 1) :
    isNegative (Sign.ofBitVec bit) = decide (bit.toNat = 1) := by
  revert bit
  decide

theorem toNat_implicit (stored : BitVec 52) :
    (1#1 ++ stored).toNat = leadingBit + stored.toNat := by
  rw [BitVec.toNat_append, ← Nat.shiftLeft_add_eq_or_of_lt stored.isLt]
  rfl

theorem ofUnpacked_unpack : ofUnpacked (unpack Format.binary64 bits) =
    ofFields (isNegative (Sign.ofBitVec (@unpackSign Format.binary64 bits)))
      (@unpackExponent Format.binary64 bits).toNat
      (@unpackMantissa Format.binary64 bits).toNat := by
  have hspecial : (@unpackExponent Format.binary64 bits).toNat = 2047 ↔
      @unpackExponent Format.binary64 bits = -1#_ := BitVec.toNat_inj (y := -1#11)
  have hsmall : (@unpackExponent Format.binary64 bits).toNat = 0 ↔
      @unpackExponent Format.binary64 bits = 0#_ := BitVec.toNat_inj (y := 0#11)
  have hzero : (@unpackMantissa Format.binary64 bits).toNat = 0 ↔
      @unpackMantissa Format.binary64 bits = 0#_ := BitVec.toNat_inj (y := 0#52)
  delta unpack
  rw [ofFields]
  conv => zeta
  by_cases h : @unpackExponent Format.binary64 bits = -1#_
  · rw [if_pos (hspecial.2 h), if_pos h]
    by_cases hm : @unpackMantissa Format.binary64 bits = 0#_
    · rw [if_pos (hzero.2 hm), if_pos hm]
      rfl
    · rw [if_neg (mt hzero.1 hm), if_neg hm]
      rfl
  · rw [if_neg (mt hspecial.1 h), if_neg h]
    by_cases h0 : @unpackExponent Format.binary64 bits = 0#_
    · rw [if_pos (hsmall.2 h0), if_pos h0]
      by_cases hm : @unpackMantissa Format.binary64 bits = 0#_
      · rw [dif_pos hm, hzero.2 hm]
        rfl
      · rw [dif_neg hm, hsmall.2 h0]
        rfl
    · rw [if_neg (mt hsmall.1 h0), if_neg h0, ← toNat_implicit]
      rfl

end Fields

theorem ofFloat_eq (x : Float) : ofFloat x = ofUnpacked x.toModel.unpack := by
  rw [Float.Model.unpack, ofUnpacked_unpack, isNegative_ofBitVec, toNat_sign, toNat_exponent,
    toNat_mantissa]
  rfl

theorem sign_components (s : Sign) (exponent : BitVec 11) (mantissa : BitVec 52) :
    @unpackSign Format.binary64 (packComponents Format.binary64 s exponent mantissa) =
      s.toBitVec := by
  change (s.toBitVec ++ exponent ++ mantissa).extractLsb' 63 1 = s.toBitVec
  rw [BitVec.extractLsb'_append_eq_of_le (by decide),
    BitVec.extractLsb'_append_eq_of_le (by decide)]
  exact BitVec.extractLsb'_eq_self

theorem sign_ofBitVec_toBitVec (s : Sign) : Sign.ofBitVec s.toBitVec = s := by
  cases s <;> rfl

/-- What is put into the bits of a double is taken out of them. -/
theorem ofUnpacked_components (s : Sign) (exponent : BitVec 11) (mantissa : BitVec 52) :
    ofUnpacked (unpack Format.binary64 (packComponents Format.binary64 s exponent mantissa)) =
      ofFields (isNegative s) exponent.toNat mantissa.toNat := by
  rw [ofUnpacked_unpack, sign_components, sign_ofBitVec_toBitVec, unpackExponent_packComponents,
    unpackMantissa_packComponents]

/-- A mantissa and an exponent as they stand in doubles: with all bits of the mantissa in use, or
with the least exponent. -/
structure Canonical (mantissa : Nat) (exponent : Int) : Prop where
  mantissa_lt : mantissa < 2 * leadingBit
  exponent_ge : -1074 ≤ exponent
  full : leadingBit ≤ mantissa ∨ exponent = -1074

def stored (u : UnpackedFloat) : Binary64 :=
  ofFloat (.ofModel (.pack u))

theorem stored_notANumber : stored .notANumber = .nan := by
  decide +kernel

theorem stored_infinity (s : Sign) : stored (.infinity s) = .infinite (isNegative s) := by
  cases s <;> decide +kernel

theorem stored_zero (s : Sign) : stored (.zero s) = .finite (isNegative s) 0 (-1074) := by
  cases s <;> decide +kernel

/-- A number in canonical form is kept, unless its exponent is too large. -/
theorem stored_finite {s : Sign} {m : Nat} {e : Int} (hm : 0 < m) (h : Canonical m e) :
    stored (.finite s m e hm) =
      if e ≤ 971 then .finite (isNegative s) m e else .infinite (isNegative s) := by
  obtain ⟨hlt, hge, hfull⟩ := h
  let biased := (e + 1023 + 52).toNat
  have hbiased : (biased : Int) = e + 1075 := by omega
  have hpack : pack Format.binary64 (.finite s m e hm) =
      if 2 ^ 11 ≤ biased + 1 then packComponents Format.binary64 s (-1#11) (0#52)
      else if m.log2 + 1 = 53 then
        packComponents Format.binary64 s (BitVec.ofNat 11 biased) (BitVec.ofNat 52 m)
      else packComponents Format.binary64 s 0#11 (BitVec.ofNat 52 m) := rfl
  rw [stored, ofFloat_eq]
  change ofUnpacked (unpack Format.binary64 (pack Format.binary64 (.finite s m e hm))) = _
  rw [hpack]
  by_cases hsmall : e ≤ 971
  · rw [if_pos hsmall, if_neg (by omega)]
    by_cases hmantissa : leadingBit ≤ m
    · have hlog : m.log2 = 52 := (Nat.log2_eq_iff (by omega)).2 ⟨hmantissa, hlt⟩
      have hstored : leadingBit + m % 2 ^ 52 = m := by
        rw [leadingBit] at *
        omega
      rw [if_pos (by omega), ofUnpacked_components, ofFields, BitVec.toNat_ofNat,
        BitVec.toNat_ofNat, Nat.mod_eq_of_lt (by omega), if_neg (by omega), if_neg (by omega),
        hstored, hbiased, show e + 1075 - 1075 = e by omega]
    · have hbelow : m < 2 ^ 52 := Nat.lt_of_not_ge hmantissa
      have hlog : m.log2 < 52 := (Nat.log2_lt (by omega)).2 hbelow
      rw [if_neg (by omega), ofUnpacked_components, ofFields, BitVec.toNat_ofNat,
        BitVec.toNat_ofNat, Nat.mod_eq_of_lt hbelow, hfull.resolve_left hmantissa]
      rfl
  · rw [if_neg hsmall, if_pos (by omega), ofUnpacked_components]
    rfl

/-- Finite doubles are in canonical form. -/
theorem canonical_ofFloat {x : Float} {negative : Bool} {m : Nat} {e : Int}
    (h : ofFloat x = .finite negative m e) : Canonical m e := by
  have hfraction : x.toBits.toNat % leadingBit < leadingBit := Nat.mod_lt _ (by decide)
  change ofFields _ (x.toBits.toNat / leadingBit % 2048) (x.toBits.toNat % leadingBit) = _ at h
  generalize x.toBits.toNat % leadingBit = fraction at *
  rw [ofFields] at h
  split at h
  · split at h <;> cases h
  · split at h
    · cases h
      exact ⟨by omega, by omega, Or.inr rfl⟩
    · cases h
      exact ⟨by omega, by omega, Or.inl (by omega)⟩

theorem unpack_ofFloat {x : Float} {negative : Bool} {m : Nat} {e : Int}
    (h : ofFloat x = .finite negative m e) : ∃ s, isNegative s = negative ∧
      (m = 0 ∧ x.toModel.unpack = .zero s ∨ ∃ hm, x.toModel.unpack = .finite s m e hm) := by
  rw [ofFloat_eq] at h
  revert h
  cases x.toModel.unpack with
  | notANumber => nofun
  | infinity s => nofun
  | zero s =>
    rintro ⟨⟩
    exact ⟨s, rfl, Or.inl ⟨rfl, rfl⟩⟩
  | finite s m e hm =>
    rintro ⟨⟩
    exact ⟨s, rfl, Or.inr ⟨hm, rfl⟩⟩

end QuotePress.Binary64
