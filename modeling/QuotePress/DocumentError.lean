import QuotePress.Files.FileSystem
import QuotePress.Quote.Codec

/-! # What can go wrong with quote documents -/
namespace QuotePress

inductive Occasion where
  | exporting
  | previewing
  deriving DecidableEq, Repr

inductive DocumentError where
  | noTemplate
  | invalidQuote (fault : DocumentFault)
  | render (reason : String)
  | invalidTenant (tenant : String)
  | file (fault : FileFault)
  | stored (e : Json.DecodeError)
  deriving DecidableEq

namespace DocumentError

/-- One line about an error, in the words of the system where it refuses a file. -/
def message (words : FileFault → String) : DocumentError → String
  | .noTemplate => "No quote template configured"
  | .invalidQuote fault => fault.message
  | .render reason => "Render error: " ++ reason
  | .invalidTenant tenant => "Invalid tenant id: " ++ tenant
  | .file fault => "IO error: " ++ words fault
  | .stored e => "Serialization error: " ++ e.message

def userMessage : DocumentError → Occasion → String
  | .noTemplate, .exporting =>
    "No quote template is configured. Set one up under Settings before exporting."
  | .noTemplate, .previewing => "The template is empty. Enter a template to see a preview."
  | .invalidQuote fault, _ => "The quote is incomplete: " ++ fault.message
  | .render _, .exporting => "The quote document could not be generated. Please try again."
  | .render _, .previewing => "The preview could not be displayed."
  | .invalidTenant _, _ => "Unknown company account."
  | .file _, .exporting | .stored _, .exporting => "The quote document could not be saved."
  | .file _, .previewing | .stored _, .previewing =>
    "The template settings could not be read or saved."

/-- The result of an operation on files, as the result of one on documents. -/
def liftFile {α : Type} : Except FileFault α → Except DocumentError α
  | .ok a => .ok a
  | .error fault => .error (.file fault)

/-- The result of reading or validating a quote, as the result of an operation on documents. -/
def liftQuote {α : Type} : Except DocumentFault α → Except DocumentError α
  | .ok a => .ok a
  | .error fault => .error (.invalidQuote fault)

/-- The result of decoding stored text, as the result of an operation on documents. -/
def liftStored {α : Type} : Json.Decoded α → Except DocumentError α
  | .ok a => .ok a
  | .error e => .error (.stored e)

end DocumentError

end QuotePress
