import Mathlib.Logic.Function.Basic
import QuotePress.Proofs.Settings.Failures
import QuotePress.Proofs.Settings.Keeping

/-! # Managers that share a directory

Several managers of one directory hold settings of their own, and have one file. As long as calls
succeed, a load by any of them gives the settings that were most recently written by any of them. -/
namespace QuotePress

open SettingsCall (Outcome)

namespace SettingsManager

variable {manager next : SettingsManager} {t u : FileTree} {settings : Settings}

theorem load_pretty (manager : SettingsManager)
    (h : t.readText manager.file = .ok settings.toJson.pretty) :
    (manager.load : StateM FileTree _) t = ((.ok (), ⟨manager.directory, settings⟩), t) := by
  rcases manager.load_cases t with hload | ⟨f, hunread, -⟩
  · rw [hload, Settings.inFile_pretty h]
  · rw [hunread] at h
    cases h

/-- A text that holds no settings stands for the defaults. -/
theorem load_invalid (manager : SettingsManager) {text : String} {e : Json.DecodeError}
    (htext : t.readText manager.file = .ok text) (hinvalid : Settings.read text = .error e) :
    (manager.load : StateM FileTree _) t = ((.ok (), ⟨manager.directory, .default⟩), t) := by
  rcases manager.load_cases t with hload | ⟨f, hunread, -⟩
  · rw [hload, Settings.inFile, htext]
    dsimp only
    rw [Settings.readOrDefault, hinvalid]
  · rw [hunread] at htext
    cases htext

theorem load_ok (h : (manager.load : StateM FileTree _) t = ((.ok (), next), u)) :
    next.current = Settings.inFile manager.file t ∧ u = t := by
  rcases manager.load_cases t with hload | ⟨f, -, hload⟩
  · cases hload.symm.trans h
    exact ⟨rfl, rfl⟩
  · cases hload.symm.trans h

theorem save_ok (h : (manager.save : StateM FileTree _) t = (.ok (), u)) :
    u.readText manager.file = .ok manager.current.toJson.pretty := by
  rcases manager.save_run t with ⟨saved, hsave, htext, -⟩ | ⟨f, saved, hsave⟩
  · cases hsave.symm.trans h
    exact htext
  · cases hsave.symm.trans h

theorem update_ok (h : (manager.update settings : StateM FileTree _) t = ((.ok (), next), u)) :
    u.readText manager.file = .ok settings.toJson.pretty := by
  rw [update_eq_save] at h
  cases hsave : (({ manager with current := settings } : SettingsManager).save :
      StateM FileTree _) t with
  | mk result saved =>
    rw [hsave] at h
    cases h
    exact save_ok hsave

end SettingsManager

namespace SettingsCall

def Outcome.written? (o : Outcome) : Option Settings :=
  match o.call with
  | .load => none
  | .save => some o.before
  | .update settings => some settings

def mostRecent? (history : List Outcome) : Option Settings :=
  (history.filterMap Outcome.written?).getLast?

theorem mostRecent?_concat (history : List Outcome) (o : Outcome) :
    mostRecent? (history ++ [o]) = o.written?.or (mostRecent? history) := by
  rw [mostRecent?, List.filterMap_append]
  cases ho : o.written? with
  | none => simp [mostRecent?, ho]
  | some settings => simp [ho]

/-- How a history leaves the file: with the text of the settings most recently written; without any,
no file is touched. -/
def Leaves (file : Path) (start : FileTree) (history : List Outcome) (t : FileTree) : Prop :=
  match mostRecent? history with
  | some settings => t.readText file = .ok settings.toJson.pretty
  | none => t = start

variable {directory : Path} {start t : FileTree} {history : List Outcome}

theorem Leaves.inFile {file : Path} (h : Leaves file start history t) :
    Settings.inFile file t = (mostRecent? history).getD (Settings.inFile file start) := by
  rw [Leaves] at h
  cases hrecent : mostRecent? history with
  | none =>
    rw [hrecent] at h
    rw [show t = start from h]
    rfl
  | some settings =>
    rw [hrecent] at h
    exact Settings.inFile_pretty h

theorem Leaves.step {manager next : SettingsManager} {call : SettingsCall} {u : FileTree}
    (h : Leaves manager.file start history t)
    (hrun : (call.run manager : StateM FileTree _) t = ((.ok (), next), u)) :
    Leaves manager.file start (history ++ [⟨call, manager.current, .ok (), next.current⟩]) u ∧
      (call = .load → next.current =
        (mostRecent? history).getD (Settings.inFile manager.file start)) := by
  rw [Leaves, mostRecent?_concat]
  cases call with
  | load =>
    obtain ⟨hcurrent, rfl⟩ := SettingsManager.load_ok hrun
    exact ⟨h, fun _ => hcurrent.trans h.inFile⟩
  | save =>
    rw [run, run_bind] at hrun
    cases hsave : (manager.save : StateM FileTree _) t with
    | mk result saved =>
      rw [hsave] at hrun
      cases hrun
      exact ⟨SettingsManager.save_ok hsave, nofun⟩
  | update settings => exact ⟨SettingsManager.update_ok hrun, nofun⟩

variable {ι : Type} [DecidableEq ι]

/-- What comes of calls of several managers of a directory, one after the other; with what they hold
in the end, and the files. -/
def shared (directory : Path) (held : ι → Settings) (t : FileTree) :
    List (ι × SettingsCall) → List Outcome × (ι → Settings) × FileTree
  | [] => ([], held, t)
  | (i, call) :: rest =>
    let ((result, next), t) := (call.run ⟨directory, held i⟩ : StateM FileTree _) t
    let (outcomes, held', t) := shared directory (Function.update held i next.current) t rest
    (⟨call, held i, result, next.current⟩ :: outcomes, held', t)

theorem shared_cons {held : ι → Settings} {i : ι} {call : SettingsCall} {next : SettingsManager}
    {result : Except DocumentError Unit} {u : FileTree} (rest : List (ι × SettingsCall))
    (hrun : (call.run ⟨directory, held i⟩ : StateM FileTree _) t = ((result, next), u)) :
    shared directory held t ((i, call) :: rest) =
      let (outcomes, held', v) := shared directory (Function.update held i next.current) u rest
      (⟨call, held i, result, next.current⟩ :: outcomes, held', v) := by
  rw [shared, hrun]

/-- Calls that succeed leave the file to the most recent of them that writes, and load from it. -/
theorem shared_leaves {held : ι → Settings} {calls : List (ι × SettingsCall)}
    (h : Leaves (SettingsManager.new directory).file start history t)
    (hsucceed : ∀ o ∈ (shared directory held t calls).1, o.result = .ok ()) :
    Leaves (SettingsManager.new directory).file start
        (history ++ (shared directory held t calls).1) (shared directory held t calls).2.2 ∧
      ∀ before o after, (shared directory held t calls).1 = before ++ o :: after → o.call = .load →
        o.after = (mostRecent? (history ++ before)).getD
          (Settings.inFile (SettingsManager.new directory).file start) := by
  induction calls generalizing held t history with
  | nil =>
    refine ⟨?_, ?_⟩
    · rw [shared, List.append_nil]
      exact h
    · intro before o after hsplit
      exact absurd hsplit.symm (by simp [shared])
  | cons first rest ih =>
    obtain ⟨i, call⟩ := first
    rcases hrun : (call.run ⟨directory, held i⟩ : StateM FileTree _) t with ⟨⟨result, next⟩, u⟩
    rw [shared_cons rest hrun] at hsucceed ⊢
    dsimp only at hsucceed ⊢
    obtain rfl : result = .ok () := hsucceed _ List.mem_cons_self
    have hheld : Leaves (SettingsManager.mk directory (held i)).file start history t := h
    obtain ⟨hstep, hload⟩ := hheld.step hrun
    obtain ⟨hleaves, hloads⟩ := ih hstep fun o ho => hsucceed o (List.mem_cons_of_mem _ ho)
    rw [List.append_assoc] at hleaves
    refine ⟨hleaves, ?_⟩
    intro before o after hsplit hcall
    cases before with
    | nil =>
      obtain ⟨rfl, -⟩ := List.cons.inj hsplit
      rw [List.append_nil]
      exact hload hcall
    | cons head before =>
      obtain ⟨rfl, hrest⟩ := List.cons.inj hsplit
      have hafter := hloads before o after hrest hcall
      rwa [List.append_assoc] at hafter

/-- Of calls by any managers of a directory that all succeed, every load gives the settings that were
most recently written by any of them, and those in the file at first before any are written. Afterwards
every manager of the directory loads the settings most recently written; so does a new manager after
any update. A text that holds no settings is loaded as the defaults. -/
theorem load_mostRecent (directory : Path) (held : ι → Settings) (t : FileTree)
    (calls : List (ι × SettingsCall))
    (hsucceed : ∀ o ∈ (shared directory held t calls).1, o.result = .ok ()) :
    let file := (SettingsManager.new directory).file
    let history := (shared directory held t calls).1
    let u := (shared directory held t calls).2.2
    (∀ before o after, history = before ++ o :: after → o.call = .load →
      o.after = (mostRecent? before).getD (Settings.inFile file t)) ∧
    (∀ settings, mostRecent? history = some settings → ∀ current,
      ((SettingsManager.mk directory current).load : StateM FileTree _) u =
        ((.ok (), ⟨directory, settings⟩), u)) ∧
    (mostRecent? history = none → u = t) ∧
    (∀ current settings manager before after,
      ((SettingsManager.mk directory current).update settings : StateM FileTree _) before =
          ((.ok (), manager), after) →
        ((SettingsManager.new directory).load : StateM FileTree _) after =
          ((.ok (), ⟨directory, settings⟩), after)) ∧
    ∀ current files text e, files.readText file = .ok text → Settings.read text = .error e →
      ((SettingsManager.mk directory current).load : StateM FileTree _) files =
        ((.ok (), ⟨directory, .default⟩), files) := by
  intro file history u
  have hstart : Leaves file t [] t := rfl
  obtain ⟨hleaves, hloads⟩ := shared_leaves hstart hsucceed
  rw [List.nil_append] at hleaves
  refine ⟨hloads, ?_, ?_, ?_, ?_⟩
  · intro settings hrecent current
    rw [Leaves, hrecent] at hleaves
    exact SettingsManager.load_pretty ⟨directory, current⟩ hleaves
  · intro hrecent
    rw [Leaves, hrecent] at hleaves
    exact hleaves
  · intro current settings manager before after hupdate
    exact SettingsManager.load_pretty _ (SettingsManager.update_ok hupdate)
  · intro current files text e htext hinvalid
    exact SettingsManager.load_invalid ⟨directory, current⟩ htext hinvalid

def unshipped : Settings := ⟨.pinned 9, "€\t\"", ["allow-forms", ""]⟩

/-- A manager saves what it set before another one did. -/
theorem load_mostRecent_saved :
    let calls := [(true, .update unshipped), (false, .update dollars), (true, .save)]
    let ended := shared ⟨"data"⟩ (fun _ => .default) .empty calls
    (∀ o ∈ ended.1, o.result = .ok ()) ∧
      ((SettingsManager.new ⟨"data"⟩).load : StateM FileTree _) ended.2.2 =
        ((.ok (), ⟨⟨"data"⟩, unshipped⟩), ended.2.2) := by
  intro calls ended
  have hsucceed : ∀ o ∈ ended.1, o.result = .ok () := by decide +kernel
  have hrecent : mostRecent? ended.1 = some unshipped := by decide +kernel
  have hload := (load_mostRecent ⟨"data"⟩ (fun _ => .default) .empty calls hsucceed).2.1
  exact ⟨hsucceed, hload unshipped hrecent .default⟩

end SettingsCall

end QuotePress
