import QuotePress.DocumentError
import QuotePress.Settings

/-! # Settings kept in a file

A manager holds the settings that were last loaded or set, beside the file they are stored in. -/
namespace QuotePress

structure SettingsManager where
  directory : Path
  current : Settings
  deriving DecidableEq

namespace SettingsManager

variable {m : Type → Type} [Monad m] [FileSystem m]

def new (directory : Path) : SettingsManager := ⟨directory, Settings.default⟩

def file (manager : SettingsManager) : Path :=
  manager.directory.join "document_settings.json"

/-- Loads the settings from their file; without the file they are the defaults, and so they are
when the file holds no settings. A file that cannot be read leaves the manager as it is. -/
def load (manager : SettingsManager) : m (Except DocumentError Unit × SettingsManager) := do
  match ← FileSystem.probe manager.file with
  | .error f => return (.error (.file f), manager)
  | .ok false => return (.ok (), { manager with current := Settings.default })
  | .ok true =>
    match ← FileSystem.readText manager.file with
    | .error f => return (.error (.file f), manager)
    | .ok text => return (.ok (), { manager with current := Settings.readOrDefault text })

def save (manager : SettingsManager) : m (Except DocumentError Unit) := do
  match ← FileSystem.makeDirectories manager.file.parent with
  | .error f => return .error (.file f)
  | .ok () =>
    return DocumentError.liftFile
      (← FileSystem.writeText manager.file manager.current.toJson.pretty)

def update (manager : SettingsManager) (settings : Settings) :
    m (Except DocumentError Unit × SettingsManager) := do
  let manager := { manager with current := settings }
  return (← manager.save, manager)

end SettingsManager

end QuotePress
