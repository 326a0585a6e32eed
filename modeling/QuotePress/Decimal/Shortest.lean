import QuotePress.Decimal.Binary64

/-! # The shortest decimal that reads back as a given double

The numbers that read back as a double form an interval around it, ends included exactly when the
mantissa is even. The shortest decimal is the point of the coarsest decimal grid that lies in the
interval; of two such points it is the one nearer to the double. -/
namespace QuotePress

/-- The positive number `coefficient · 10 ^ exponent`. -/
structure Decimal where
  coefficient : Nat
  exponent : Int
  deriving DecidableEq, Repr

namespace Decimal

/-- A double's neighbourhood in units of `2 ^ (exponent - 2)`: the double itself, the ends of the
interval that reads back as it, and whether the ends belong to it. -/
structure Neighbourhood where
  low : Nat
  middle : Nat
  high : Nat
  closed : Bool
  exponent : Int

/-- The neighbourhood of `mantissa · 2 ^ exponent`. The gap below the least mantissa of a binade is
half as wide as the gap above it. -/
def Neighbourhood.of (mantissa : Nat) (exponent : Int) : Neighbourhood where
  low :=
    if mantissa = Binary64.leadingBit ∧ exponent ≠ -1074 then 4 * mantissa - 1
    else 4 * mantissa - 2
  middle := 4 * mantissa
  high := 4 * mantissa + 2
  closed := mantissa % 2 = 0
  exponent := exponent

/-- The point of the grid `10 ^ k` in a neighbourhood that is nearest to its middle, if the grid
has a point there. -/
def Neighbourhood.gridPoint? (n : Neighbourhood) (tie : Tie) (k : Int) : Option Nat :=
  let unit := tenTo k.toNat * twoTo (2 - n.exponent).toNat
  let scale := twoTo (n.exponent - 2).toNat * tenTo (-k).toNat
  let inside (d : Nat) : Bool :=
    if n.closed then n.low * scale ≤ d * unit && d * unit ≤ n.high * scale
    else n.low * scale < d * unit && d * unit < n.high * scale
  let below := n.middle * scale / unit
  if inside below && inside (below + 1) then some (roundDiv (n.middle * scale) unit tie)
  else if inside below then some below
  else if inside (below + 1) then some (below + 1)
  else none

/-- The first grid with a point in the neighbourhood, from `10 ^ k` down over `steps` grids. -/
def Neighbourhood.search (n : Neighbourhood) (tie : Tie) : (steps : Nat) → (k : Int) → Decimal
  | 0, k => ⟨n.middle * twoTo (n.exponent - 2).toNat * tenTo (-k).toNat /
      (tenTo k.toNat * twoTo (2 - n.exponent).toNat), k⟩
  | steps + 1, k =>
    match n.gridPoint? tie k with
    | some d => ⟨d, k⟩
    | none => n.search tie steps (k - 1)

/-- The shortest decimal that reads back as `mantissa · 2 ^ exponent`, which is not zero. The
search starts above the number's first digit, and seventeen digits always read back. -/
def shortest (tie : Tie) (mantissa : Nat) (exponent : Int) : Decimal :=
  let top := (Nat.log2 mantissa + 1 + exponent) * 30103 / 100000 + 1
  (Neighbourhood.of mantissa exponent).search tie 20 top

def digits (d : Decimal) : List Char :=
  Nat.toDigits 10 d.coefficient

def magnitude (d : Decimal) : Int :=
  d.exponent + d.digits.length - 1

/-- The decimal written out in full, with no point when it is whole. -/
def positional (d : Decimal) : List Char :=
  let ds := d.digits
  let fractional := (-d.exponent).toNat
  if fractional = 0 then ds ++ List.replicate d.exponent.toNat '0'
  else if fractional < ds.length then
    ds.take (ds.length - fractional) ++ '.' :: ds.drop (ds.length - fractional)
  else '0' :: '.' :: List.replicate (fractional - ds.length) '0' ++ ds

/-- The decimal with one digit before the point and a signed power of ten. -/
def scientific (d : Decimal) : List Char :=
  let first := d.digits.take 1
  let more := d.digits.drop 1
  let power := d.magnitude
  first ++ (if more.isEmpty then [] else '.' :: more) ++ 'e' ::
    (if power < 0 then '-' else '+') :: Nat.toDigits 10 power.natAbs

end Decimal

namespace Binary64

def signText (negative : Bool) : List Char :=
  if negative then ['-'] else []

/-- A finite number in full, with the fewest digits that read back as it. -/
def shortestText (negative : Bool) (mantissa : Nat) (exponent : Int) : List Char :=
  signText negative ++
    if mantissa = 0 then ['0'] else (Decimal.shortest .away mantissa exponent).positional

/-- A finite number with exactly `places` digits after the point; an exact half goes to the even
neighbour, and a zero keeps its sign. -/
def fixedText (places : Nat) (negative : Bool) (mantissa : Nat) (exponent : Int) : List Char :=
  let (num, den) := fraction mantissa exponent
  let scaled := roundDiv (num * tenTo places) den .toEven
  let fractional := Nat.toDigits 10 (scaled % tenTo places)
  signText negative ++ Nat.toDigits 10 (scaled / tenTo places) ++
    '.' :: List.replicate (places - fractional.length) '0' ++ fractional

end Binary64

end QuotePress
