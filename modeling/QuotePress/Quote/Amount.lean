import QuotePress.Decimal.Shortest
import QuotePress.Calendar.Date

/-! # Amounts, lengths and quantities as printed

Amounts are rounded to cents, half a cent away from zero, and kept as whole cents of 64 bits. -/
namespace QuotePress.Amount

def defaultSymbol : String := "R$"

def cents (amount : Float) : Int :=
  (Binary64.ofFloat (amount * 100)).round

/-- Digits in groups of three from the right, with commas between. -/
def groupThousands (digits : List Char) : List Char :=
  match digits with
  | [] => []
  | d :: rest =>
    if rest.length % 3 = 0 ∧ rest ≠ [] then d :: ',' :: groupThousands rest
    else d :: groupThousands rest

/-- Whole cents as printed: a sign if below zero, the symbol, a blank, grouped digits and two
decimals. -/
def centsText (symbol : String) (cents : Int) : String :=
  let magnitude := cents.natAbs
  (if cents < 0 then "-" else "") ++ symbol ++ " " ++
    String.ofList (groupThousands (Nat.toDigits 10 (magnitude / 100)) ++
      '.' :: Date.padded 2 (magnitude % 100))

def text (symbol : String) (amount : Float) : String :=
  centsText symbol (cents amount)

def twoPlaces (x : Float) : String :=
  match Binary64.ofFloat x with
  | .nan => "NaN"
  | .infinite negative => if negative then "-inf" else "inf"
  | .finite negative m e => String.ofList (Binary64.fixedText 2 negative m e)

def metresText (x : Float) : String :=
  twoPlaces x ++ " m"

def quantityText (x : Float) : String :=
  let b := Binary64.ofFloat x
  if b.isWhole then toString b.truncate else twoPlaces x

end QuotePress.Amount
