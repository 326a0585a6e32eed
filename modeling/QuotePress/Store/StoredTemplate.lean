import QuotePress.Calendar.Timestamp
import QuotePress.DocumentError
import QuotePress.NameMap

/-! # Custom templates of tenants

A tenant is a company that has an account. Stores keep the text of its custom template and never
look into it. -/
namespace QuotePress

open Json (Decoder RecordField)

structure StoredTemplate where
  source : String
  updatedAt : Timestamp
  deriving DecidableEq

namespace StoredTemplate

def timeDecoder : Decoder Timestamp := fun levels reading => do
  let text ← Decoder.text "an RFC 3339 formatted date and time string" levels reading
  match Timestamp.read text with
  | .ok time => return time
  | .error fault => .error (.mismatch (.unreadable fault.message))

def fields : List (RecordField StoredTemplate) :=
  [requiredText "source" fun s t => { t with source := s },
   .of "updated_at" true timeDecoder fun time t => { t with updatedAt := time }]

def decoder : Decoder StoredTemplate := Decoder.record "StoredTemplate" fields ⟨"", default⟩

def toJson (t : StoredTemplate) : Json :=
  .object [("source", .string t.source), ("updated_at", .string t.updatedAt.text)]

end StoredTemplate

/-- Operations on the custom templates of tenants, on a store of type `σ` and in a monad. -/
class TemplateStore (σ : Type) (m : Type → Type) where
  get : σ → (tenant : String) → m (Except DocumentError (Option StoredTemplate))
  put : σ → (now : Timestamp) → (tenant source : String) →
    m (Except DocumentError StoredTemplate × σ)
  /-- Removes the template of a tenant, and tells whether there was one. -/
  remove : σ → (tenant : String) → m (Except DocumentError Bool × σ)

/-- Templates held in memory. -/
abbrev MemoryStore := NameMap StoredTemplate

instance {m : Type → Type} [Monad m] : TemplateStore MemoryStore m where
  get store tenant := return .ok (store.get? tenant)
  put store now tenant source :=
    return (.ok ⟨source, now⟩, store.insert tenant ⟨source, now⟩)
  remove store tenant := return (.ok (store.contains tenant), store.erase tenant)

end QuotePress
