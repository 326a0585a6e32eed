import QuotePress.Quote.LineItem
import QuotePress.Quote.Party

/-! # Quotes, and the document that templates are rendered from -/
namespace QuotePress

structure CommercialTerms where
  material : String := ""
  finishing : String := ""
  technicalSpecs : String := ""
  paymentTerms : String := ""
  warranty : String := ""
  installationIncluded : Bool := false
  installationDeadline : String := ""
  deliveryTime : String := ""
  observations : String := ""
  deriving DecidableEq, Repr

def CommercialTerms.hasTechnicalSpecs (t : CommercialTerms) : Bool :=
  !(Text.isBlank t.material && Text.isBlank t.finishing && Text.isBlank t.technicalSpecs)

def CommercialTerms.installationStatus (t : CommercialTerms) : String :=
  if t.installationIncluded then "Installation included" else "Installation not included"

structure Quote where
  /-- How the quote is called, such as `ORC-0042`. -/
  number : String
  issueDate : Date
  validityDays : UInt32
  items : List LineItem
  terms : CommercialTerms
  deriving DecidableEq

namespace Quote

def blank : Quote := ⟨"", Date.epoch, 15, [], {}⟩

/-- The sum of the lines, added up in their order. -/
def total (q : Quote) : Float :=
  q.items.foldl (fun sum item => sum + item.subtotal) 0

/-- The last day on which the quote holds, if the calendar has it. -/
def validUntil? (q : Quote) : Option Date :=
  q.issueDate.addDays? q.validityDays.toNat

end Quote

structure QuoteDocument where
  company : Company
  client : Client
  quote : Quote
  deriving DecidableEq

namespace QuoteDocument

/-- The rules that the lines of a quote break; the path of a line names its position. -/
def itemViolations : (index : Nat) → List LineItem → List Violation
  | _, [] => []
  | index, item :: rest =>
    item.violations ("quote.items[" ++ toString index ++ "]") ++ itemViolations (index + 1) rest

def violations (d : QuoteDocument) : List Violation :=
  d.company.violations ++ d.client.violations ++
    Violation.check (!Text.isBlank d.quote.number) "quote.number" "is required" ++
    itemViolations 0 d.quote.items

def itemsName : String := "items"

def fieldNames : List String :=
  ["companyName", "companyTaxId", "companyAddress", "companyCity", "companyState",
   "companyPhone", "companyEmail", "companyWebsite", "companyLogo",
   "quoteNumber", "quoteDate", "validityDays", "validUntil",
   "clientName", "clientCompany", "clientPhone", "clientEmail", "clientLocation",
   "total",
   "material", "finishing", "hasTechnicalSpecs", "technicalSpecs", "paymentTerms", "warranty",
   "installationStatus", "installationDeadline", "deliveryTime", "observations"]

def itemRecords (symbol : String) : (index : Nat) → List LineItem → List Record
  | _, [] => []
  | index, item :: rest => item.toRecord index symbol :: itemRecords symbol (index + 1) rest

def fields (d : QuoteDocument) (symbol : String) : List (String × Value) :=
  let company := d.company
  let client := d.client
  let quote := d.quote
  let terms := quote.terms
  [("companyName", .text company.name),
   ("companyTaxId", .text company.taxId),
   ("companyAddress", .text company.address),
   ("companyCity", .text company.city),
   ("companyState", .text company.state),
   ("companyPhone", .text company.phone),
   ("companyEmail", .text company.email),
   ("companyWebsite", .text company.website),
   ("companyLogo", .text company.logoSource),
   ("quoteNumber", .text quote.number),
   ("quoteDate", .text quote.issueDate.printedText),
   ("validityDays", .number (Float.ofNat quote.validityDays.toNat)),
   ("validUntil", .ofText? (quote.validUntil?.map Date.printedText)),
   ("clientName", .text client.name),
   ("clientCompany", .text client.company),
   ("clientPhone", .text client.phone),
   ("clientEmail", .text client.email),
   ("clientLocation", .text client.location),
   ("total", .text (Amount.text symbol quote.total)),
   ("material", .text terms.material),
   ("finishing", .text terms.finishing),
   ("hasTechnicalSpecs", .boolean terms.hasTechnicalSpecs),
   ("technicalSpecs", .text terms.technicalSpecs),
   ("paymentTerms", .text terms.paymentTerms),
   ("warranty", .text terms.warranty),
   ("installationStatus", .text terms.installationStatus),
   ("installationDeadline", .text terms.installationDeadline),
   ("deliveryTime", .text terms.deliveryTime),
   ("observations", .text terms.observations)]

def toContext (d : QuoteDocument) (symbol : String) : Context :=
  let scalars := Context.bindAll (d.fields symbol) NameMap.empty
  scalars.bindList itemsName (itemRecords symbol 1 d.quote.items)

theorem map_fst_fields (d : QuoteDocument) (symbol : String) :
    (d.fields symbol).map Prod.fst = fieldNames := rfl

end QuoteDocument

end QuotePress
