import QuotePress.Calendar.Reader
import QuotePress.Json.Decode
import QuotePress.Quote.Document

/-! # Quotes as JSON

Each record is described once by its fields for decoding, in the order in which it is also
written. -/
namespace QuotePress

open Json (Decoder RecordField)

def requiredText {α : Type} (name : String) (set : String → α → α) : RecordField α :=
  .of name true Decoder.string set

def optionalText {α : Type} (name : String) (set : String → α → α) : RecordField α :=
  .of name false Decoder.string set

def Date.decoder : Decoder Date := fun levels reading => do
  let text ← Decoder.text "a formatted date string" levels reading
  match Date.read text with
  | .ok date => return date
  | .error fault => .error (.mismatch (.unreadable fault.message))

def Pricing.codes : List (String × Pricing) :=
  [("unit", .unit), ("square_meter", .squareMetre), ("linear_meter", .linearMetre),
   ("fixed", .fixed)]

def Pricing.code : Pricing → String
  | .unit => "unit"
  | .squareMetre => "square_meter"
  | .linearMetre => "linear_meter"
  | .fixed => "fixed"

namespace Logo

def setAddress (address : String) (_ : Logo) : Logo := .hosted address

def setMimeType (mimeType : String) : Logo → Logo
  | .embedded _ data => .embedded mimeType data
  | .hosted _ => .embedded mimeType ""

def setData (data : String) : Logo → Logo
  | .embedded mimeType _ => .embedded mimeType data
  | .hosted _ => .embedded "" data

def decoder : Decoder Logo :=
  Decoder.tagged "Logo" "kind"
    [("url", ⟨"Logo::Url", [requiredText "url" setAddress], .hosted ""⟩),
     ("embedded", ⟨"Logo::Embedded",
       [requiredText "mimeType" setMimeType, requiredText "data" setData], .embedded "" ""⟩)]

def toJson : Logo → Json
  | .hosted address => .object [("kind", .string "url"), ("url", .string address)]
  | .embedded mimeType data =>
    .object [("kind", .string "embedded"), ("mimeType", .string mimeType), ("data", .string data)]

end Logo

namespace Company

def fields : List (RecordField Company) :=
  [optionalText "name" fun s c => { c with name := s },
   optionalText "taxId" fun s c => { c with taxId := s },
   optionalText "address" fun s c => { c with address := s },
   optionalText "city" fun s c => { c with city := s },
   optionalText "state" fun s c => { c with state := s },
   optionalText "phone" fun s c => { c with phone := s },
   optionalText "email" fun s c => { c with email := s },
   optionalText "website" fun s c => { c with website := s },
   .of "logo" false (Decoder.optional Logo.decoder) fun logo c => { c with logo := logo }]

/-- A company in a data file; whatever it leaves out is empty. -/
def decoder : Decoder Company := Decoder.record "Company" fields {}

def toJson (c : Company) : Json :=
  .object
    [("name", .string c.name), ("taxId", .string c.taxId), ("address", .string c.address),
     ("city", .string c.city), ("state", .string c.state), ("phone", .string c.phone),
     ("email", .string c.email), ("website", .string c.website),
     ("logo", (c.logo.map Logo.toJson).getD .null)]

end Company

namespace Client

def fields : List (RecordField Client) :=
  [optionalText "name" fun s c => { c with name := s },
   optionalText "company" fun s c => { c with company := s },
   optionalText "phone" fun s c => { c with phone := s },
   optionalText "email" fun s c => { c with email := s },
   optionalText "city" fun s c => { c with city := s },
   optionalText "state" fun s c => { c with state := s }]

/-- A client in a data file; whatever it leaves out is empty. -/
def decoder : Decoder Client := Decoder.record "Client" fields {}

def toJson (c : Client) : Json :=
  .object
    [("name", .string c.name), ("company", .string c.company), ("phone", .string c.phone),
     ("email", .string c.email), ("city", .string c.city), ("state", .string c.state)]

end Client

namespace LineItem

def fields : List (RecordField LineItem) :=
  [requiredText "productName" fun s i => { i with productName := s },
   .of "pricingType" true (Decoder.oneOf Pricing.codes) fun p i => { i with pricing := p },
   .of "quantity" false Decoder.float fun x i => { i with quantity := x },
   .of "width" false (Decoder.optional Decoder.float) fun x i => { i with width := x },
   .of "height" false (Decoder.optional Decoder.float) fun x i => { i with height := x },
   .of "unitPrice" true Decoder.float fun x i => { i with unitPrice := x },
   .of "showUnitPrice" false Decoder.boolean fun b i => { i with showUnitPrice := b }]

def decoder : Decoder LineItem := Decoder.record "LineItem" fields blank

def lengthJson (x : Option Float) : Json :=
  (x.map Json.real).getD .null

def toJson (i : LineItem) : Json :=
  .object
    [("productName", .string i.productName), ("pricingType", .string i.pricing.code),
     ("quantity", .real i.quantity), ("width", lengthJson i.width),
     ("height", lengthJson i.height), ("unitPrice", .real i.unitPrice),
     ("showUnitPrice", .boolean i.showUnitPrice)]

end LineItem

namespace CommercialTerms

def fields : List (RecordField CommercialTerms) :=
  [optionalText "material" fun s t => { t with material := s },
   optionalText "finishing" fun s t => { t with finishing := s },
   optionalText "technicalSpecs" fun s t => { t with technicalSpecs := s },
   optionalText "paymentTerms" fun s t => { t with paymentTerms := s },
   optionalText "warranty" fun s t => { t with warranty := s },
   .of "installationIncluded" false Decoder.boolean
     fun b t => { t with installationIncluded := b },
   optionalText "installationDeadline" fun s t => { t with installationDeadline := s },
   optionalText "deliveryTime" fun s t => { t with deliveryTime := s },
   optionalText "observations" fun s t => { t with observations := s }]

/-- Terms in a data file; whatever they leave out is empty. -/
def decoder : Decoder CommercialTerms := Decoder.record "CommercialTerms" fields {}

def toJson (t : CommercialTerms) : Json :=
  .object
    [("material", .string t.material), ("finishing", .string t.finishing),
     ("technicalSpecs", .string t.technicalSpecs), ("paymentTerms", .string t.paymentTerms),
     ("warranty", .string t.warranty),
     ("installationIncluded", .boolean t.installationIncluded),
     ("installationDeadline", .string t.installationDeadline),
     ("deliveryTime", .string t.deliveryTime), ("observations", .string t.observations)]

end CommercialTerms

namespace Quote

def fields : List (RecordField Quote) :=
  [requiredText "number" fun s q => { q with number := s },
   .of "issueDate" true Date.decoder fun d q => { q with issueDate := d },
   .of "validityDays" false Decoder.word fun n q => { q with validityDays := n },
   .of "items" false (Decoder.list LineItem.decoder) fun items q => { q with items := items },
   .of "terms" false CommercialTerms.decoder fun t q => { q with terms := t }]

def decoder : Decoder Quote := Decoder.record "Quote" fields blank

def toJson (q : Quote) : Json :=
  .object
    [("number", .string q.number),
     ("issueDate", .string (String.ofList q.issueDate.isoText)),
     ("validityDays", .ofNat q.validityDays.toNat),
     ("items", .array (q.items.map LineItem.toJson)),
     ("terms", q.terms.toJson)]

end Quote

inductive DocumentFault where
  | unreadable (e : Json.DecodeError)
  | invalid (violations : List Violation)
  deriving DecidableEq

def DocumentFault.message : DocumentFault → String
  | .unreadable e => "JSON parse error: " ++ e.message
  | .invalid violations => Violation.summary violations

namespace QuoteDocument

def codecFields : List (RecordField QuoteDocument) :=
  [.of "company" true Company.decoder fun c d => { d with company := c },
   .of "client" true Client.decoder fun c d => { d with client := c },
   .of "quote" true Quote.decoder fun q d => { d with quote := q }]

def decoder : Decoder QuoteDocument :=
  Decoder.record "QuoteDocument" codecFields ⟨{}, {}, Quote.blank⟩

def toJson (d : QuoteDocument) : Json :=
  .object [("company", d.company.toJson), ("client", d.client.toJson), ("quote", d.quote.toJson)]

/-- Reads a document without asking whether it keeps the rules. -/
def read (text : String) : Except DocumentFault QuoteDocument :=
  match Json.decode decoder text with
  | .ok d => .ok d
  | .error e => .error (.unreadable e)

def validate (d : QuoteDocument) : Except DocumentFault Unit :=
  if d.violations.isEmpty then .ok () else .error (.invalid d.violations)

def readValid (text : String) : Except DocumentFault QuoteDocument := do
  let d ← read text
  d.validate
  return d

end QuoteDocument

end QuotePress
