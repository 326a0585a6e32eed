import QuotePress.CommandLine.Arguments
import QuotePress.Service
import QuotePress.Settings.Manager
import QuotePress.Store.FileStore

/-! # Commands on a data directory -/
namespace QuotePress

structure Config where
  dataDirectory : Path
  tenant : String
  deriving DecidableEq, Repr

namespace Config

def orDefault (value : Option String) (default : String) : String :=
  match value with
  | some s => if Text.isBlank s then default else s
  | none => default

def ofEnvironment (dataDirectory tenant : Option String) : Config :=
  ⟨⟨orDefault dataDirectory "data"⟩, orDefault tenant "default"⟩

def templates (c : Config) : Path := c.dataDirectory.join "templates"

def exports (c : Config) : Path := c.dataDirectory.join "exports"

end Config

structure Program where
  config : Config
  settings : SettingsManager
  service : Service FileStore

inductive CommandFault where
  | unreadableQuote (path : Path)
  | unreadableTemplate (path : Path)
  | document (e : DocumentError) (occasion : Occasion)
  | notAChoice (choice : String)
  | notShipped (version : UInt32)
  deriving DecidableEq

def CommandFault.message : CommandFault → String
  | .unreadableQuote path => "Failed to read quote file " ++ path.text
  | .unreadableTemplate path => "Failed to read template file " ++ path.text
  | .document e occasion => e.userMessage occasion
  | .notAChoice choice => "Expected 'latest', 'disabled' or a version, got '" ++ choice ++ "'"
  | .notShipped version => "No default template version " ++ toString version

/-- An unsigned number of 32 bits: an optional plus sign and at least one digit. -/
def readWord? (s : String) : Option UInt32 :=
  let digits := match s.toList with
    | '+' :: rest => rest
    | cs => cs
  if digits.isEmpty ∨ !digits.all Char.isDigit then none
  else
    let n := digits.foldl (fun n d => 10 * n + (d.toNat - '0'.toNat)) 0
    if n < UInt32.size then some (UInt32.ofNat n) else none

/-- The shipped template that a choice asks for; blanks around it do not count. -/
def Fallback.ofChoice (choice : String) : Except CommandFault Fallback :=
  if choice = "latest" then .ok .latest
  else if choice = "disabled" ∨ choice = "none" then .ok .disabled
  else match readWord? choice with
    | none => .error (.notAChoice choice)
    | some version =>
      if (Fallback.pinned version).template?.isSome then .ok (.pinned version)
      else .error (.notShipped version)

def Diagnostic.Kind.code : Diagnostic.Kind → String
  | .unmatchedClose => "unmatched_close"
  | .unclosed => "unclosed"
  | .depthExceeded => "depth_exceeded"

def Diagnostic.toJson (d : Diagnostic) : Json :=
  .object [("kind", .string d.kind.code), ("offset", .ofNat d.offset), ("token", .string d.token)]

def TemplateReport.toJson (r : TemplateReport) : Json :=
  .object
    [("variables", .ofTexts r.variableNames), ("sections", .ofTexts r.sectionNames),
     ("unknown", .ofTexts r.unknown),
     ("diagnostics", .array (r.diagnostics.map Diagnostic.toJson))]

def Origin.description : Origin → String
  | .custom => "custom template"
  | .shipped version => "default template v" ++ toString version

def TemplateReport.warnings (r : TemplateReport) : List String :=
  (r.unknown.map fun name =>
    "warning: '" ++ name ++ "' is not a quote field and will render empty") ++
  r.diagnostics.map fun d => "warning: " ++ d.message

namespace Program

variable {m : Type → Type} [Monad m] [FileSystem m]

/-- Starts on a data directory. Settings that cannot be loaded are as by default. -/
def load (config : Config) : m Program := do
  let (_, settings) ← (SettingsManager.new config.dataDirectory).load
  return ⟨config, settings, ⟨⟨config.templates⟩, settings.current⟩⟩

/-- Turns the error of an operation on documents into that of a command. -/
def onOccasion {α : Type} (occasion : Occasion) :
    Except DocumentError α → Except CommandFault α
  | .ok a => .ok a
  | .error e => .error (.document e occasion)

def readQuote (path : Path) (occasion : Occasion) : m (Except CommandFault QuoteDocument) := do
  match ← FileSystem.readText path with
  | .error _ => return .error (.unreadableQuote path)
  | .ok text => return onOccasion occasion (DocumentError.liftQuote (QuoteDocument.readValid text))

def readTemplate (path : Path) : m (Except CommandFault String) := do
  match ← FileSystem.readText path with
  | .error _ => return .error (.unreadableTemplate path)
  | .ok text => return .ok text

def exportQuote (p : Program) (quote : Path) (directory : Option Path) :
    m (Except CommandFault String) := do
  match ← readQuote quote .exporting with
  | .error e => return .error e
  | .ok document =>
    let renderer := htmlRenderer (directory.getD p.config.exports)
    let receipt ← p.service.exportQuote renderer p.config.tenant document
    return (onOccasion .exporting receipt).map fun receipt =>
      "Exported " ++ receipt.path.text ++ " using " ++ receipt.origin.description

def preview (p : Program) (quote : Path) (template : Option Path) :
    m (Except CommandFault String) := do
  match ← readQuote quote .previewing with
  | .error e => return .error e
  | .ok document =>
    match template with
    | some path =>
      match ← readTemplate path with
      | .error e => return .error e
      | .ok source =>
        let frame := p.service.previewTemplate source document
        return (onOccasion .previewing frame).map PreviewFrame.element
    | none =>
      let frame ← p.service.preview p.config.tenant document
      return (onOccasion .previewing frame).map PreviewFrame.element

def clearedLine (tenant : String) : String :=
  "Cleared custom template for '" ++ tenant ++ "'"

/-- Saves the template in a file, and warns of what is wrong with it. -/
def setTemplate (p : Program) (now : Timestamp) (template : Path) :
    m (Except CommandFault String × Program) := do
  match ← readTemplate template with
  | .error e => return (.error e, p)
  | .ok source =>
    let tenant := p.config.tenant
    let (result, service) ← p.service.saveTemplate now tenant source
    let first :=
      if Text.isBlank source then clearedLine tenant
      else "Saved custom template for '" ++ tenant ++ "'"
    let lines := first :: (TemplateReport.of source).warnings
    return ((onOccasion .previewing result).map fun () => String.intercalate "\n" lines,
      { p with service := service })

def clearTemplate (p : Program) (now : Timestamp) :
    m (Except CommandFault String × Program) := do
  let (result, service) ← p.service.saveTemplate now p.config.tenant ""
  return ((onOccasion .previewing result).map fun () => clearedLine p.config.tenant,
    { p with service := service })

def placeholders (p : Program) (template : Option Path) : m (Except CommandFault String) := do
  let source ← match template with
    | some path => readTemplate path
    | none => do
      let chosen ← p.service.resolve p.config.tenant
      pure ((onOccasion .previewing chosen).map ChosenTemplate.source)
  return source.map fun source => (TemplateReport.of source).toJson.pretty

/-- Chooses the shipped template that stands in, in the file and in use. -/
def setDefault (p : Program) (choice : String) :
    m (Except CommandFault String × Program) := do
  let choice := Text.trim choice
  match Fallback.ofChoice choice with
  | .error e => return (.error e, p)
  | .ok fallback =>
    let settings := { p.settings.current with fallback := fallback }
    let (result, manager) ← p.settings.update settings
    match result with
    | .error e => return (.error (.document e .previewing), { p with settings := manager })
    | .ok () =>
      return (.ok ("Default template set to " ++ choice),
        { p with settings := manager, service := { p.service with settings := settings } })

def run (p : Program) (now : Timestamp) : Command → m (Except CommandFault String × Program)
  | .exportQuote quote directory => return (← p.exportQuote quote directory, p)
  | .preview quote template => return (← p.preview quote template, p)
  | .setTemplate template => p.setTemplate now template
  | .clearTemplate => p.clearTemplate now
  | .placeholders template => return (← p.placeholders template, p)
  | .setDefault choice => p.setDefault choice

end Program

end QuotePress
