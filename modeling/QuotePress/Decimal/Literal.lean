import QuotePress.Decimal.Shortest

/-! # Decimal literals

A literal is an optional minus sign, a whole part without superfluous zeros, an optional fraction
and an optional power of ten. -/
namespace QuotePress

namespace Decimal

def ofDigits (ds : List Char) : Nat :=
  ds.foldl (fun n d => 10 * n + (d.toNat - '0'.toNat)) 0

/-- The double nearest to `coefficient · 10 ^ exponent`. Powers beyond every double are settled
first, so that no huge power of ten is computed. -/
def toFloat (negative : Bool) (coefficient : Nat) (exponent : Int) : Float :=
  let magnitude := exponent + (Nat.toDigits 10 coefficient).length
  let unsigned : Float :=
    if coefficient = 0 || magnitude < -400 then 0
    else if magnitude > 400 then 1 / 0
    else Float.ofScientific coefficient (exponent < 0) exponent.natAbs
  if negative then -unsigned else unsigned

structure Literal where
  negative : Bool
  whole : List Char
  /-- The digits after the point; there is no point without digits after it. -/
  fraction : List Char
  power : Option Int
  deriving DecidableEq, Repr

def Literal.isWhole (l : Literal) : Bool :=
  l.fraction.isEmpty && l.power.isNone

/-- The magnitude of a literal that is written as a whole number. -/
def Literal.wholeValue (l : Literal) : Nat :=
  ofDigits l.whole

def Literal.toFloat (l : Literal) : Float :=
  Decimal.toFloat l.negative (ofDigits (l.whole ++ l.fraction))
    (l.power.getD 0 - l.fraction.length)

end Decimal

end QuotePress
