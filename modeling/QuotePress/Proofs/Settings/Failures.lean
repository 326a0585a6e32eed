import QuotePress.Proofs.Files.Actions
import QuotePress.Settings.Manager

/-! # Calls of a settings manager that fail

Files can fail at any point and in any way. A `load` or `save` that fails leaves the settings as they
were; an `update` has replaced them by then. -/
namespace QuotePress

inductive SettingsCall where
  | load
  | save
  | update (settings : Settings)
  deriving DecidableEq

namespace SettingsCall

structure Outcome where
  call : SettingsCall
  before : Settings
  result : Except DocumentError Unit
  after : Settings

def leaves (current : Settings) : SettingsCall → Settings
  | .load | .save => current
  | .update settings => settings

theorem leaves_eq_iff {call : SettingsCall} {current : Settings} :
    call.leaves current = current ↔ ∀ settings, call = .update settings → settings = current := by
  cases call with
  | load => exact iff_of_true rfl nofun
  | save => exact iff_of_true rfl nofun
  | update settings =>
    constructor
    · rintro h _ ⟨⟩
      exact h
    · intro h
      exact h settings rfl

-- Any world whose file operations answer, fail and change it as they like.
variable {World : Type} [FileSystem (StateM World)]

def run (manager : SettingsManager) :
    SettingsCall → StateM World (Except DocumentError Unit × SettingsManager)
  | .load => manager.load
  | .save => do return (← manager.save, manager)
  | .update settings => manager.update settings

def outcomes (manager : SettingsManager) (world : World) : List SettingsCall → List Outcome
  | [] => []
  | call :: rest =>
    let ((result, next), world) := call.run manager world
    ⟨call, manager.current, result, next.current⟩ :: outcomes next world rest

/-- The settings are replaced behind the last point at which a load can fail. -/
theorem load_failed {manager : SettingsManager} {world : World} {e : DocumentError}
    (h : ((manager.load : StateM World _) world).1.1 = .error e) :
    ((manager.load : StateM World _) world).1.2 = manager := by
  revert h
  rw [SettingsManager.load, run_bind]
  cases ((FileSystem.probe manager.file : StateM World _) world).1 with
  | error f => exact fun _ => rfl
  | ok there =>
    cases there with
    | false => nofun
    | true =>
      dsimp only
      rw [run_bind]
      cases ((FileSystem.readText manager.file : StateM World _) _).1 with
      | error f => exact fun _ => rfl
      | ok text => nofun

theorem run_failed {manager : SettingsManager} {world : World} {call : SettingsCall}
    {e : DocumentError} (h : (call.run manager world).1.1 = .error e) :
    (call.run manager world).1.2.current = call.leaves manager.current := by
  cases call with
  | load => exact congrArg SettingsManager.current (load_failed h)
  | save => rfl
  | update settings => rfl

/-- Of any calls on any files, one that fails leaves the settings as they were before it, unless it is
an update with other settings; then these are held, though they are not saved. -/
theorem failed_keeps_iff (calls : List SettingsCall) (manager : SettingsManager) (world : World)
    {o : Outcome} (ho : o ∈ outcomes manager world calls) {e : DocumentError}
    (hfailed : o.result = .error e) :
    (o.after = o.before ↔ ∀ settings, o.call = .update settings → settings = o.before) ∧
      ∀ settings, o.call = .update settings → o.after = settings := by
  have hleaves : o.after = o.call.leaves o.before := by
    induction calls generalizing manager world with
    | nil => cases ho
    | cons call rest ih =>
      rcases List.mem_cons.1 ho with rfl | ho
      · exact run_failed hfailed
      · exact ih _ _ ho
  rw [hleaves]
  refine ⟨leaves_eq_iff, ?_⟩
  intro settings hcall
  rw [hcall]
  rfl

def blockedFiles : FileTree :=
  ⟨[("data", .directory [("document_settings.json", .directory [])])]⟩

def dollars : Settings := { Settings.default with currencySymbol := "US$" }

/-- The settings cannot be loaded, and are not touched. -/
theorem failed_keeps_iff_load :
    ∃ o ∈ outcomes (.new ⟨"data"⟩) blockedFiles [.save, .load],
      o.result = .error (.file .isADirectory) ∧ o.call = .load ∧ o.after = o.before := by
  let o : Outcome := ⟨.load, .default, .error (.file .isADirectory), .default⟩
  have ho : o ∈ outcomes (.new ⟨"data"⟩) blockedFiles [.save, .load] := .tail _ (.head _)
  exact ⟨o, ho, rfl, rfl, (failed_keeps_iff _ _ _ ho rfl).1.2 nofun⟩

/-- Settings that cannot be saved are held nevertheless. -/
theorem unsaved_settings_held :
    outcomes (.new ⟨"data"⟩) blockedFiles [.update dollars] =
        [⟨.update dollars, .default, .error (.file .isADirectory), dollars⟩] ∧
      dollars ≠ .default :=
  ⟨rfl, by decide +kernel⟩

end SettingsCall

end QuotePress
