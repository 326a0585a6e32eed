import QuotePress.Context
import QuotePress.Quote.Amount
import QuotePress.Quote.Party

/-! # Priced lines of a quote -/
namespace QuotePress

inductive Pricing where
  | unit
  | squareMetre
  | linearMetre
  /-- The whole line, whatever its quantity. -/
  | fixed
  deriving DecidableEq, Repr

namespace Pricing

def label : Pricing → String
  | .unit => "Per unit"
  | .squareMetre => "Per square meter"
  | .linearMetre => "Per linear meter"
  | .fixed => "Fixed price"

/-- The label inside of a sentence. -/
def lowerLabel : Pricing → String
  | .unit => "per unit"
  | .squareMetre => "per square meter"
  | .linearMetre => "per linear meter"
  | .fixed => "fixed price"

def suffix? : Pricing → Option String
  | .unit => some "un"
  | .squareMetre => some "m²"
  | .linearMetre => some "m"
  | .fixed => none

def needsWidth : Pricing → Bool
  | .squareMetre | .linearMetre => true
  | .unit | .fixed => false

def needsHeight : Pricing → Bool
  | .squareMetre => true
  | _ => false

end Pricing

structure LineItem where
  productName : String
  pricing : Pricing
  quantity : Float
  /-- In metres; the length of a line priced by length. -/
  width : Option Float
  /-- In metres. -/
  height : Option Float
  unitPrice : Float
  showUnitPrice : Bool
  deriving DecidableEq

namespace LineItem

def blank : LineItem := ⟨"", .unit, 1, none, none, 0, false⟩

/-- What one piece measures: its area, its length, or one. -/
def measure (item : LineItem) : Float :=
  match item.pricing with
  | .squareMetre => item.width.getD 0 * item.height.getD 0
  | .linearMetre => item.width.getD 0
  | .unit | .fixed => 1

def subtotal (item : LineItem) : Float :=
  match item.pricing with
  | .fixed => item.unitPrice
  | _ => item.measure * item.quantity * item.unitPrice

def specification (item : LineItem) : String :=
  let quantity := Amount.quantityText item.quantity
  let width := Amount.metresText (item.width.getD 0)
  match item.pricing with
  | .unit => quantity ++ " un"
  | .squareMetre =>
    width ++ " x " ++ Amount.metresText (item.height.getD 0) ++
      " (" ++ Amount.twoPlaces item.measure ++ " m²) x " ++ quantity
  | .linearMetre => width ++ " x " ++ quantity
  | .fixed => ""

/-- The unit price as printed beside the specification, if it is to be printed. -/
def unitPriceNote (item : LineItem) (symbol : String) : String :=
  match item.pricing.suffix? with
  | some suffix =>
    if item.showUnitPrice then Amount.text symbol item.unitPrice ++ "/" ++ suffix else ""
  | none => ""

/-- The names that a line binds in the body of a loop. -/
def fieldNames : List String :=
  ["index", "productName", "pricingTypeLabel", "specification", "unitPriceNote", "subtotal"]

/-- What a line binds in the body of a loop; `index` counts from one. -/
def toRecord (item : LineItem) (index : Nat) (symbol : String) : Record :=
  NameMap.ofList
    [("index", .number (Float.ofNat index)),
     ("productName", .text item.productName),
     ("pricingTypeLabel", .text item.pricing.label),
     ("specification", .text item.specification),
     ("unitPriceNote", .text (item.unitPriceNote symbol)),
     ("subtotal", .text (Amount.text symbol item.subtotal))]

def isPositive (x : Float) : Bool :=
  (Binary64.ofFloat x).isFinite && 0 < x

def isNonNegative (x : Float) : Bool :=
  (Binary64.ofFloat x).isFinite && 0 ≤ x

def hasLength (x : Option Float) : Bool :=
  (x.map isPositive).getD false

def violations (item : LineItem) (path : String) : List Violation :=
  let required := "is required for " ++ item.pricing.lowerLabel ++ " pricing"
  Violation.check (!Text.isBlank item.productName) (path ++ ".productName") "is required" ++
  Violation.check (isPositive item.quantity) (path ++ ".quantity") "must be greater than zero" ++
  Violation.check (isNonNegative item.unitPrice) (path ++ ".unitPrice")
    "must not be negative" ++
  Violation.check (!item.pricing.needsWidth || hasLength item.width) (path ++ ".width")
    required ++
  Violation.check (!item.pricing.needsHeight || hasLength item.height) (path ++ ".height")
    required

end LineItem

end QuotePress
