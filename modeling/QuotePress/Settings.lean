import QuotePress.Json.Decode
import QuotePress.Quote.Amount
import QuotePress.Template.Shipped
import QuotePress.Text.Blank

/-! # Settings for quote documents -/
namespace QuotePress

open Json (Decoder RecordField)

/-- Which shipped template stands in where there is no custom one. -/
inductive Fallback where
  | latest
  /-- The one of a version, which need not have been shipped. -/
  | pinned (version : UInt32)
  | disabled
  deriving DecidableEq

namespace Fallback

def template? : Fallback → Option ShippedTemplate
  | .latest => some ShippedTemplate.latest
  | .pinned version => ShippedTemplate.ofVersion? version
  | .disabled => none

def decoder : Decoder Fallback :=
  Decoder.tagged "DefaultTemplateSetting" "mode"
    [("latest", ⟨"", [], .latest⟩),
     ("pinned", ⟨"DefaultTemplateSetting::Pinned",
       [.of "version" true Decoder.word fun version _ => .pinned version], .latest⟩),
     ("disabled", ⟨"", [], .disabled⟩)]

def toJson : Fallback → Json
  | .latest => .object [("mode", .string "latest")]
  | .pinned version => .object [("mode", .string "pinned"), ("version", .ofNat version.toNat)]
  | .disabled => .object [("mode", .string "disabled")]

end Fallback

structure Settings where
  fallback : Fallback
  currencySymbol : String
  previewSandbox : List String
  deriving DecidableEq

namespace Settings

def default : Settings := ⟨.latest, Amount.defaultSymbol, []⟩

instance : Inhabited Settings := ⟨default⟩

def scriptToken : String := "allow-scripts"

/-- Whether a token is the one that would let script run, in whatever case. -/
def allowsScript (token : String) : Bool :=
  token.toList.map Char.toLower = scriptToken.toList

/-- The tokens that are applied: trimmed, and neither empty nor letting script run. -/
def sandboxTokens (s : Settings) : List String :=
  (s.previewSandbox.map Text.trim).filter fun token => !token.isEmpty && !allowsScript token

def fields : List (RecordField Settings) :=
  [.of "default_template" false Fallback.decoder fun f s => { s with fallback := f },
   .of "currency_symbol" false Decoder.string fun symbol s => { s with currencySymbol := symbol },
   .of "preview_sandbox" false (Decoder.list Decoder.string)
     fun tokens s => { s with previewSandbox := tokens }]

/-- Settings in a file; whatever they leave out is as by default. -/
def decoder : Decoder Settings := Decoder.record "DocumentSettings" fields default

def toJson (s : Settings) : Json :=
  .object
    [("default_template", s.fallback.toJson), ("currency_symbol", .string s.currencySymbol),
     ("preview_sandbox", .ofTexts s.previewSandbox)]

def read (text : String) : Json.Decoded Settings :=
  Json.decode decoder text

/-- Reads settings, with the defaults in place of a text that holds none. -/
def readOrDefault (text : String) : Settings :=
  match read text with
  | .ok s => s
  | .error _ => default

end Settings

end QuotePress
