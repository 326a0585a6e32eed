import QuotePress.Text.Base64
import QuotePress.Text.Blank

/-! # Who issues a quote and who receives it

A broken rule is told as the path of a field and what is wrong with it. -/
namespace QuotePress

structure Violation where
  /-- The path of the field, such as `quote.items[2].width`. -/
  field : String
  message : String
  deriving DecidableEq, Repr

namespace Violation

def text (v : Violation) : String :=
  v.field ++ ": " ++ v.message

def summary (violations : List Violation) : String :=
  "Invalid quote: " ++ String.intercalate "; " (violations.map text)

def check (kept : Bool) (field message : String) : List Violation :=
  if kept then [] else [⟨field, message⟩]

end Violation

inductive Logo where
  | hosted (address : String)
  /-- Image data in base64. -/
  | embedded (mimeType data : String)
  deriving DecidableEq, Repr

namespace Logo

def ofBytes (mimeType : String) (bytes : List UInt8) : Logo :=
  .embedded mimeType (String.ofList (Text.Base64.encode bytes))

def source : Logo → String
  | .hosted address => address
  | .embedded mimeType data => "data:" ++ mimeType ++ ";base64," ++ data

def violations : Logo → List Violation
  | .hosted address =>
    Violation.check (!Text.isBlank address) "company.logo.url" "must not be empty"
  | .embedded mimeType data =>
    Violation.check ("image/".toList.isPrefixOf mimeType.toList) "company.logo.mimeType"
      ("'" ++ mimeType ++ "' is not an image type") ++
    Violation.check (Text.Base64.decode? data.toList).isSome "company.logo.data"
      "is not valid base64"

end Logo

structure Company where
  name : String := ""
  taxId : String := ""
  address : String := ""
  city : String := ""
  state : String := ""
  phone : String := ""
  email : String := ""
  website : String := ""
  logo : Option Logo := none
  deriving DecidableEq, Repr

def Company.violations (c : Company) : List Violation :=
  Violation.check (!Text.isBlank c.name) "company.name" "is required" ++
    (c.logo.map Logo.violations).getD []

/-- The address of the company's logo; without a logo it is empty. -/
def Company.logoSource (c : Company) : String :=
  (c.logo.map Logo.source).getD ""

structure Client where
  name : String := ""
  company : String := ""
  phone : String := ""
  email : String := ""
  city : String := ""
  state : String := ""
  deriving DecidableEq, Repr

/-- City and state with a hyphen between, or whichever is given. -/
def Client.location (c : Client) : String :=
  let city := Text.trim c.city
  let state := Text.trim c.state
  if city.isEmpty then state
  else if state.isEmpty then city
  else city ++ " - " ++ state

def Client.violations (c : Client) : List Violation :=
  Violation.check (!Text.isBlank c.name) "client.name" "is required"

end QuotePress
