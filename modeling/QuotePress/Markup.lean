import QuotePress.Text.Alphanumeric
import QuotePress.Text.Blank

/-! # Markup on its way out

Markup leaves in a file, which is called after the number of the quote, or in a frame that shows it.
In the name of the file, whatever could be more than a part of a name is replaced. The frame always
has a sandbox attribute, so script in the markup does not run unless a token of the attribute lets
it. -/
namespace QuotePress

/-- Markup to be made into a document, and the name suggested for it. -/
structure ExportRequest where
  fileName : String
  html : String
  deriving DecidableEq, Repr

namespace ExportRequest

/-- Whether a character may stand in the stem of a file name. -/
def isStemChar (c : Char) : Bool :=
  Text.isAlphanumeric c || c = '-' || c = '_'

def stem (number : String) : List Char :=
  let cs := (Text.trimChars number.toList).map fun c => if isStemChar c then c else '_'
  if cs.isEmpty then "untitled".toList else cs

/-- The name of the file for a quote number, with the given ending. -/
def nameFor (number ending : String) : String :=
  "quote-" ++ String.ofList (stem number) ++ ending

def of (number html : String) : ExportRequest :=
  ⟨nameFor number ".pdf", html⟩

end ExportRequest

namespace Markup

/-- A character inside of an attribute; the characters of markup become references. -/
def escapeChar (c : Char) : List Char :=
  if c = '&' then "&amp;".toList
  else if c = '"' then "&quot;".toList
  else if c = '<' then "&lt;".toList
  else if c = '>' then "&gt;".toList
  else [c]

def escape (s : String) : String :=
  String.ofList (s.toList.flatMap escapeChar)

end Markup

/-- Markup to be shown in a frame, with the sandbox tokens of the frame. -/
structure PreviewFrame where
  html : String
  sandbox : List String
  deriving DecidableEq, Repr

def PreviewFrame.element (f : PreviewFrame) : String :=
  "<iframe sandbox=\"" ++ Markup.escape (String.intercalate " " f.sandbox) ++
    "\" srcdoc=\"" ++ Markup.escape f.html ++ "\" title=\"Quote preview\"></iframe>"

end QuotePress
