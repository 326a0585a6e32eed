/-! # Binary floating-point numbers, read exactly

A double is taken apart into its sign, an integral mantissa and a power of two; rounding to whole
numbers and to decimal places is then exact integer arithmetic. -/
namespace QuotePress

/-- The number that a double stands for. -/
inductive Binary64 where
  | nan
  | infinite (negative : Bool)
  /-- `mantissa · 2 ^ exponent`, with its sign; zero keeps its sign. -/
  | finite (negative : Bool) (mantissa : Nat) (exponent : Int)
  deriving DecidableEq, Repr

def twoTo (n : Nat) : Nat := Nat.pow 2 n

def tenTo (n : Nat) : Nat := Nat.pow 10 n

/-- Which way a number halfway between two others is rounded. -/
inductive Tie where
  /-- To the one of larger magnitude. -/
  | away
  /-- To the even one. -/
  | toEven
  deriving DecidableEq, Repr

/-- `num / den` rounded to the nearest whole number. -/
def roundDiv (num den : Nat) (tie : Tie) : Nat :=
  let floor := num / den
  let twice := 2 * (num % den)
  if twice < den then floor
  else if den < twice then floor + 1
  else match tie with
    | .away => floor + 1
    | .toEven => if floor % 2 = 0 then floor else floor + 1

/-- A rounded quotient is within half a unit of the exact one. -/
theorem roundDiv_within_half (num den : Nat) (tie : Tie) (h : 0 < den) :
    2 * num ≤ 2 * (roundDiv num den tie * den) + den ∧
      2 * (roundDiv num den tie * den) ≤ 2 * num + den := by
  have hdiv := Nat.div_add_mod num den
  have hmod := Nat.mod_lt num h
  have hcomm : num / den * den = den * (num / den) := Nat.mul_comm _ _
  have hsucc : (num / den + 1) * den = den * (num / den) + den := by
    rw [Nat.add_mul, Nat.one_mul, hcomm]
  simp only [roundDiv]
  split
  · rw [hcomm]; omega
  · split
    · rw [hsucc]; omega
    · cases tie
      · rw [hsucc]; omega
      · dsimp only
        split
        · rw [hcomm]; omega
        · rw [hsucc]; omega

namespace Binary64

/-- The bit that the mantissa of a normal number has above its 52 stored bits. -/
def leadingBit : Nat := 4503599627370496

/-- The number behind the bits of a double: a sign bit, eleven bits of exponent, 52 of mantissa. -/
def ofFloat (x : Float) : Binary64 :=
  let bits : Nat := x.toBits.toNat
  let negative : Bool := bits / leadingBit / 2048 = 1
  let biased : Nat := bits / leadingBit % 2048
  let fraction : Nat := bits % leadingBit
  if biased = 2047 then
    if fraction = 0 then .infinite negative else .nan
  else if biased = 0 then .finite negative fraction (-1074)
  else .finite negative (leadingBit + fraction) (biased - 1075)

def fraction (mantissa : Nat) (exponent : Int) : Nat × Nat :=
  (mantissa * twoTo exponent.toNat, twoTo (-exponent).toNat)

def signed (negative : Bool) (magnitude : Nat) : Int :=
  if negative then -(magnitude : Int) else magnitude

def isFinite : Binary64 → Bool
  | .finite .. => true
  | _ => false

def isWhole : Binary64 → Bool
  | .finite _ m e => let (num, den) := fraction m e; num % den = 0
  | _ => false

def minInt : Int := -9223372036854775808

def maxInt : Int := 9223372036854775807

/-- The nearest number of 64 bits with a sign. -/
def clamp (n : Int) : Int :=
  max minInt (min maxInt n)

/-- A whole number of 64 bits, from `whole` of a finite magnitude; what is not a number counts as
zero. -/
def toInt64 (whole : Nat → Nat → Nat) : Binary64 → Int
  | .nan => 0
  | .infinite negative => if negative then minInt else maxInt
  | .finite negative m e => let (num, den) := fraction m e; clamp (signed negative (whole num den))

/-- The whole part, as a number of 64 bits. -/
def truncate (x : Binary64) : Int :=
  x.toInt64 fun num den => num / den

/-- The nearest whole number, as a number of 64 bits; halves go away from zero. -/
def round (x : Binary64) : Int :=
  x.toInt64 fun num den => roundDiv num den .away

end Binary64

end QuotePress
