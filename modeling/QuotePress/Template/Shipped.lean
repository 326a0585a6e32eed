import QuotePress.Template.Shipped.First
import QuotePress.Template.Shipped.Second

/-! # Templates that come with the program -/
namespace QuotePress

structure ShippedTemplate where
  version : UInt32
  source : String
  deriving DecidableEq

namespace ShippedTemplate

def joinLines (lines : List String) : String :=
  String.intercalate "\n" lines

def first : ShippedTemplate := ⟨1, joinLines firstLines⟩

def second : ShippedTemplate := ⟨2, joinLines secondLines⟩

def all : List ShippedTemplate := [first, second]

def latest : ShippedTemplate := second

def ofVersion? (version : UInt32) : Option ShippedTemplate :=
  all.find? (·.version = version)

def versions : List UInt32 := all.map version

end ShippedTemplate

end QuotePress
