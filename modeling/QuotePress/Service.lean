import QuotePress.Markup
import QuotePress.Settings
import QuotePress.Store.StoredTemplate
import QuotePress.Template.Render

/-! # Documents from quotes

Export and preview find the template in the same way and render it in the same way, so a preview
shows what an export makes. -/
namespace QuotePress

inductive Origin where
  | custom
  | shipped (version : UInt32)
  deriving DecidableEq

structure ChosenTemplate where
  origin : Origin
  source : String
  deriving DecidableEq

structure ExportReceipt where
  origin : Origin
  path : Path
  deriving DecidableEq

structure TemplateReport where
  variableNames : List String
  sectionNames : List String
  /-- The names that no quote binds. -/
  unknown : List String
  diagnostics : List Diagnostic
  deriving DecidableEq

/-- What makes a request into a document, and tells where the document is. -/
abbrev Renderer (m : Type → Type) := ExportRequest → m (Except DocumentError Path)

def htmlRenderer {m : Type → Type} [Monad m] [FileSystem m] (directory : Path) : Renderer m :=
  fun request => do
    match ← FileSystem.makeDirectories directory with
    | .error f => return .error (.file f)
    | .ok () =>
      let path := directory.join ((Path.mk request.fileName).withEnding ".html").text
      let written ← FileSystem.writeText path request.html
      return (DocumentError.liftFile written).map fun () => path

structure Service (σ : Type) where
  store : σ
  settings : Settings

namespace Service

variable {σ : Type} {m : Type → Type} [Monad m] [TemplateStore σ m]

def fallback (settings : Settings) : Except DocumentError ChosenTemplate :=
  match settings.fallback.template? with
  | some t => .ok ⟨.shipped t.version, t.source⟩
  | none => .error .noTemplate

/-- The template of a tenant: a custom one that is not blank, else the one that the settings
choose. -/
def resolve (service : Service σ) (tenant : String) :
    m (Except DocumentError ChosenTemplate) := do
  match ← TemplateStore.get service.store tenant with
  | .error e => return .error e
  | .ok (some stored) =>
    if Text.isBlank stored.source then return fallback service.settings
    else return .ok ⟨.custom, stored.source⟩
  | .ok none => return fallback service.settings

def render (settings : Settings) (template : String) (document : QuoteDocument) :
    Except DocumentError String := do
  DocumentError.liftQuote document.validate
  return Template.compile template (document.toContext settings.currencySymbol)

/-- Renders a document with the template of a tenant and hands it to a renderer. -/
def exportQuote (service : Service σ) (renderer : Renderer m) (tenant : String)
    (document : QuoteDocument) : m (Except DocumentError ExportReceipt) := do
  match ← service.resolve tenant with
  | .error e => return .error e
  | .ok template =>
    match render service.settings template.source document with
    | .error e => return .error e
    | .ok html =>
      let made ← renderer (ExportRequest.of document.quote.number html)
      return made.map fun path => ⟨template.origin, path⟩

def frame (settings : Settings) (template : String) (document : QuoteDocument) :
    Except DocumentError PreviewFrame := do
  return ⟨← render settings template document, settings.sandboxTokens⟩

/-- The frame that shows a document in the template of a tenant. -/
def preview (service : Service σ) (tenant : String) (document : QuoteDocument) :
    m (Except DocumentError PreviewFrame) := do
  match ← service.resolve tenant with
  | .error e => return .error e
  | .ok template => return frame service.settings template.source document

/-- The frame that shows a document in a template that is not saved. -/
def previewTemplate (service : Service σ) (source : String) (document : QuoteDocument) :
    Except DocumentError PreviewFrame :=
  if Text.isBlank source then .error .noTemplate
  else frame service.settings source document

/-- Saves a custom template for a tenant; a blank one is removed. -/
def saveTemplate (service : Service σ) (now : Timestamp) (tenant source : String) :
    m (Except DocumentError Unit × Service σ) := do
  if Text.isBlank source then
    let (result, store) ← TemplateStore.remove service.store tenant
    return (result.map fun _ => (), { service with store := store })
  else
    let (result, store) ← TemplateStore.put service.store now tenant source
    return (result.map fun _ => (), { service with store := store })

/-- Whether some quote binds a name that a template substitutes or asks for. -/
def isKnownField (name : String) : Bool :=
  QuoteDocument.fieldNames.contains name || LineItem.fieldNames.contains name

end Service

/-- What a template refers to, and which of it no quote binds: values first, then lists. -/
def TemplateReport.of (source : String) : TemplateReport :=
  let t := Template.parse source
  { variableNames := t.variableNames
    sectionNames := t.sectionNames
    unknown := t.variableNames.filter (fun name => !Service.isKnownField name) ++
      t.sectionNames.filter (· ≠ QuoteDocument.itemsName)
    diagnostics := t.diagnostics }

end QuotePress
