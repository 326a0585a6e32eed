import QuotePress.Decimal.Shortest

/-! # Values that a template can show

A value is a text, a number, a truth value or nothing. -/
namespace QuotePress

inductive Value where
  | text (s : String)
  | number (x : Float)
  | boolean (b : Bool)
  | null
  deriving DecidableEq

namespace Value

instance : Inhabited Value := ⟨.null⟩

/-- Every whole number up to this magnitude is a double. -/
def exactLimit : Nat := 9007199254740992

/-- The text of a number: whole numbers up to the exact limit have neither a point nor a sign of
zero, all others the fewest digits that read back, without a power of ten. -/
def numberText (x : Float) : String :=
  match Binary64.ofFloat x with
  | .nan => "NaN"
  | .infinite negative => if negative then "-Infinity" else "Infinity"
  | .finite negative m e =>
    let (num, den) := Binary64.fraction m e
    if num % den = 0 ∧ num / den ≤ exactLimit then
      toString (Binary64.signed negative (num / den))
    else String.ofList (Binary64.shortestText negative m e)

def toText : Value → String
  | .text s => s
  | .number x => numberText x
  | .boolean b => if b then "true" else "false"
  | .null => ""

def isNonzero (x : Float) : Bool :=
  match Binary64.ofFloat x with
  | .nan => false
  | .infinite _ => true
  | .finite _ m _ => m ≠ 0

def isTruthy : Value → Bool
  | .text s => !s.isEmpty
  | .number x => isNonzero x
  | .boolean b => b
  | .null => false

def isNull : Value → Bool
  | .null => true
  | _ => false

def ofText? : Option String → Value
  | some s => .text s
  | none => .null

end Value

end QuotePress
