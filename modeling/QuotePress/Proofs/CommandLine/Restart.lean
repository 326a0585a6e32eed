import QuotePress.Proofs.Documents.Exports
import QuotePress.Proofs.Settings.Keeping
import QuotePress.Proofs.Store.Calls

/-! # Restarts are not seen

A program holds nothing that is not in its files, except for settings, and these are as in their
file: only one command writes that file, and it changes the settings held along with it. So a
program that is loaded anew goes on like one that was not. -/
namespace QuotePress

namespace Spares

variable {directory : Path} {name : String} {service : Service FileStore}

theorem htmlRenderer (number html : String) :
    Spares directory name
      (QuotePress.htmlRenderer (directory.join "exports") (ExportRequest.of number html)) := by
  rw [ExportRequest.htmlRenderer_of]
  exact deposit ⟨by decide, by decide, by decide, by decide⟩
    (ExportRequest.isName_exportedName number) html _

theorem put (now : Timestamp) (tenant source : String) :
    Spares directory name
      ((⟨directory.join "templates"⟩ : FileStore).put now tenant source : StateM FileTree _) := by
  cases htenant : FileStore.isTenant tenant with
  | false =>
    rw [FileStore.put, FileStore.file_invalid htenant]
    exact of_reads (Reads.pure _)
  | true =>
    rw [FileStore.put_valid _ htenant]
    exact deposit ⟨by decide, by decide, by decide, by decide⟩ (FileStore.isName_file htenant) _ _

theorem remove (tenant : String) :
    Spares directory name
      ((⟨directory.join "templates"⟩ : FileStore).remove tenant : StateM FileTree _) := by
  cases htenant : FileStore.isTenant tenant with
  | false =>
    rw [FileStore.remove, FileStore.file_invalid htenant]
    exact of_reads (Reads.pure _)
  | true =>
    rw [FileStore.remove, FileStore.file_valid htenant]
    refine (of_reads (Reads.isThere _)).bind fun there => ?_
    cases there with
    | false => exact of_reads (Reads.pure _)
    | true =>
      refine (removeFile ⟨by decide, by decide, by decide, by decide⟩
        (FileStore.isName_file htenant)).bind fun result => ?_
      exact of_reads (Reads.pure _)

theorem saveTemplate (hstore : service.store = ⟨directory.join "templates"⟩) (now : Timestamp)
    (tenant source : String) :
    Spares directory name (service.saveTemplate now tenant source : StateM FileTree _) := by
  rw [Service.saveTemplate, hstore]
  split
  · refine bind ?_ fun _ => of_reads (Reads.pure _)
    exact (remove tenant).bind fun _ => of_reads (Reads.pure _)
  · refine bind ?_ fun _ => of_reads (Reads.pure _)
    exact (put now tenant source).bind fun _ => of_reads (Reads.pure _)

end Spares

namespace Program

variable {config : Config} {settings : Settings} {t : FileTree} {above : List String}

def settingsFile (config : Config) : Path :=
  (SettingsManager.new config.dataDirectory).file

def holding (config : Config) (settings : Settings) : Program :=
  ⟨config, ⟨config.dataDirectory, settings⟩, ⟨⟨config.templates⟩, settings⟩⟩

theorem load_run (config : Config) (t : FileTree) : (load config : StateM FileTree _) t =
    (holding config (Settings.inFile (settingsFile config) t), t) := by
  obtain ⟨result, hload⟩ := SettingsManager.load_run config.dataDirectory t
  rw [load, run_bind, hload]
  rfl

/-- The settings of a data directory are known only where its path leads. -/
theorem inFile_spared {α : Type} {action : StateM FileTree α}
    (h : Spares config.dataDirectory "document_settings.json" action)
    (habove : t.resolve config.dataDirectory.parts [] = .ok above) :
    Settings.inFile (settingsFile config) (action t).2 =
        Settings.inFile (settingsFile config) t ∧
      (action t).2.resolve config.dataDirectory.parts [] = .ok above :=
  ⟨Settings.inFile_congr fun bytes => h.fileAt_iff ⟨by decide, by decide, by decide, by decide⟩
      habove bytes,
    FileTree.resolve_kept (h t above habove).directories habove⟩

theorem reads_readTemplate (path : Path) : Reads (readTemplate path) := by
  refine (Reads.readText path).bind fun text => ?_
  cases text <;> exact Reads.pure _

theorem reads_preview (p : Program) (quote : Path) (template : Option Path) :
    Reads (p.preview quote template) := by
  refine (reads_readQuote quote .previewing).bind fun document => ?_
  cases document with
  | error e => exact Reads.pure _
  | ok document =>
    cases template with
    | some path =>
      refine (reads_readTemplate path).bind fun source => ?_
      cases source <;> exact Reads.pure _
    | none =>
      refine Reads.bind ?_ fun _ => Reads.pure _
      refine (Reads.resolve p.service p.config.tenant).bind fun chosen => ?_
      cases chosen <;> exact Reads.pure _

theorem reads_placeholders (p : Program) (template : Option Path) :
    Reads (p.placeholders template) := by
  cases template with
  | some path => exact (reads_readTemplate path).bind fun _ => Reads.pure _
  | none => exact (Reads.resolve p.service p.config.tenant).bind fun _ => Reads.pure _

theorem spares_exportQuote (config : Config) (settings : Settings) (quote : Path) (name : String) :
    Spares config.dataDirectory name ((holding config settings).exportQuote quote none) := by
  have hrenderer (number html : String) : Spares config.dataDirectory name
      (htmlRenderer (Option.getD none (holding config settings).config.exports)
        (ExportRequest.of number html)) := Spares.htmlRenderer number html
  exact exportQuote_harmless (fun _ _ => Spares.of_reads) (fun _ _ _ _ => Spares.bind) hrenderer
    quote

theorem spares_setTemplate (config : Config) (settings : Settings) (now : Timestamp)
    (template : Path) (name : String) :
    Spares config.dataDirectory name ((holding config settings).setTemplate now template) := by
  refine (Spares.of_reads (reads_readTemplate template)).bind fun source => ?_
  cases source with
  | error e => exact Spares.of_reads (Reads.pure _)
  | ok source =>
    exact (Spares.saveTemplate rfl now _ source).bind fun _ => Spares.of_reads (Reads.pure _)

theorem spares_clearTemplate (config : Config) (settings : Settings) (now : Timestamp)
    (name : String) :
    Spares config.dataDirectory name ((holding config settings).clearTemplate now) :=
  (Spares.saveTemplate rfl now _ "").bind fun _ => Spares.of_reads (Reads.pure _)

theorem saveTemplate_service (service : Service FileStore) (now : Timestamp)
    (tenant source : String) (t : FileTree) :
    ((service.saveTemplate now tenant source : StateM FileTree _) t).1.2 = service := by
  rw [Service.saveTemplate]
  split <;> rfl

theorem setTemplate_program (p : Program) (now : Timestamp) (template : Path) (t : FileTree) :
    ((p.setTemplate now template : StateM FileTree _) t).1.2 = p := by
  rw [setTemplate, run_bind]
  cases ((readTemplate template : StateM FileTree _) t).1 with
  | error e => rfl
  | ok source =>
    dsimp only
    rw [run_bind]
    change { p with service := ((p.service.saveTemplate now p.config.tenant source :
      StateM FileTree _) _).1.2 } = p
    rw [saveTemplate_service]

theorem clearTemplate_program (p : Program) (now : Timestamp) (t : FileTree) :
    ((p.clearTemplate now : StateM FileTree _) t).1.2 = p := by
  change { p with service := ((p.service.saveTemplate now p.config.tenant "" :
    StateM FileTree _) t).1.2 } = p
  rw [saveTemplate_service]

/-- What a restart would not notice: the program holds the settings that are in the file. The path
of the data directory leads somewhere. -/
structure Current (config : Config) (above : List String) (p : Program) (t : FileTree) : Prop where
  leads : t.resolve config.dataDirectory.parts [] = .ok above
  holds : p = holding config (Settings.inFile (settingsFile config) t)

section

variable {choice : String} {fallback : Fallback} {saved : FileTree}

theorem setDefault_refused {e : DocumentError}
    (hchoice : Fallback.ofChoice (Text.trim choice) = .ok fallback)
    (hupdate : ((SettingsManager.mk config.dataDirectory settings).update
        { settings with fallback := fallback } : StateM FileTree _) t =
      ((.error e, ⟨config.dataDirectory, { settings with fallback := fallback }⟩), saved)) :
    (((holding config settings).setDefault choice : StateM FileTree _) t).1.1 =
      .error (.document e .previewing) := by
  rw [setDefault]
  dsimp only [holding]
  rw [hchoice]
  dsimp only
  rw [run_bind, hupdate]
  rfl

theorem setDefault_saved (hchoice : Fallback.ofChoice (Text.trim choice) = .ok fallback)
    (hupdate : ((SettingsManager.mk config.dataDirectory settings).update
        { settings with fallback := fallback } : StateM FileTree _) t =
      ((.ok (), ⟨config.dataDirectory, { settings with fallback := fallback }⟩), saved)) :
    ((holding config settings).setDefault choice : StateM FileTree _) t =
      ((.ok ("Default template set to " ++ Text.trim choice),
        holding config { settings with fallback := fallback }), saved) := by
  rw [setDefault]
  dsimp only [holding]
  rw [hchoice]
  dsimp only
  rw [run_bind, hupdate]
  rfl

end

/-- Choosing a shipped template changes the settings in the file and in the program alike. -/
theorem setDefault_current (choice : String)
    (h : Current config above (holding config settings) t)
    (hsucceed : ∀ f occasion, (((holding config settings).setDefault choice :
      StateM FileTree _) t).1.1 ≠ .error (.document (.file f) occasion)) :
    Current config above
      (((holding config settings).setDefault choice : StateM FileTree _) t).1.2
      (((holding config settings).setDefault choice : StateM FileTree _) t).2 := by
  cases hchoice : Fallback.ofChoice (Text.trim choice) with
  | error e =>
    have hrun : ((holding config settings).setDefault choice : StateM FileTree _) t =
        ((.error e, holding config settings), t) := by
      rw [setDefault, hchoice]
      rfl
    rw [hrun]
    exact h
  | ok fallback =>
    obtain ⟨result, saved, hupdate, hresult⟩ := SettingsManager.update_run config.dataDirectory
      settings { settings with fallback := fallback } t
    rcases hresult with ⟨f, rfl⟩ | ⟨rfl, hfile, hkeeps⟩
    · exact absurd (setDefault_refused hchoice hupdate) (hsucceed f .previewing)
    · rw [setDefault_saved hchoice hupdate]
      exact ⟨FileTree.resolve_kept hkeeps h.leads, congrArg (holding config) hfile.symm⟩

theorem Current.spared {p : Program} {α : Type} {action : StateM FileTree α}
    (h : Current config above p t)
    (hspares : Spares config.dataDirectory "document_settings.json" action) :
    Current config above p (action t).2 := by
  obtain ⟨hfile, hleads⟩ := inFile_spared hspares h.leads
  exact ⟨hleads, by rw [hfile]; exact h.holds⟩

/-- Every command keeps the program current, unless a file is refused. -/
theorem run_current {p : Program} (now : Timestamp) (command : Command)
    (h : Current config above p t)
    (hplace : ∀ quote directory, command = .exportQuote quote directory → directory = none)
    (hsucceed : ∀ f occasion,
      ((p.run now command : StateM FileTree _) t).1.1 ≠ .error (.document (.file f) occasion)) :
    Current config above ((p.run now command : StateM FileTree _) t).1.2
      ((p.run now command : StateM FileTree _) t).2 := by
  have hsame := h
  obtain ⟨-, rfl⟩ := h
  cases command with
  | exportQuote quote directory =>
    cases hplace quote directory rfl
    exact hsame.spared (spares_exportQuote config _ quote _)
  | preview quote template => exact hsame.spared (Spares.of_reads (reads_preview _ quote template))
  | placeholders template => exact hsame.spared (Spares.of_reads (reads_placeholders _ template))
  | setDefault choice =>
    rw [run] at hsucceed ⊢
    exact setDefault_current choice hsame hsucceed
  | setTemplate template =>
    change Current config above ((setTemplate _ now template : StateM FileTree _) t).1.2 _
    rw [setTemplate_program]
    exact hsame.spared (spares_setTemplate config _ now template _)
  | clearTemplate =>
    change Current config above ((clearTemplate _ now : StateM FileTree _) t).1.2 _
    rw [clearTemplate_program]
    exact hsame.spared (spares_clearTemplate config _ now _)

end Program

inductive SessionStep where
  | command (now : Timestamp) (command : Command)
  | restart
  deriving DecidableEq

namespace Program

def session {m : Type → Type} [Monad m] [FileSystem m] (config : Config) :
    List SessionStep → Program → m (List (Except CommandFault String) × Program)
  | [], p => return ([], p)
  | .restart :: rest, _ => do session config rest (← load config)
  | .command now command :: rest, p => do
    let (outcome, p) ← p.run now command
    let (outcomes, p) ← session config rest p
    return (outcome :: outcomes, p)

variable {config : Config} {t : FileTree} {above : List String}

theorem load_current (hleads : t.resolve config.dataDirectory.parts [] = .ok above) :
    Current config above ((load config : StateM FileTree _) t).1 t := by
  rw [load_run]
  exact ⟨hleads, rfl⟩

/-- A program that is current is what a restart would load. -/
theorem Current.load {p : Program} (h : Current config above p t) :
    (Program.load config : StateM FileTree _) t = (p, t) := by
  rw [load_run, h.holds]

theorem session_command (p : Program) (now : Timestamp) (command : Command)
    (rest : List SessionStep) (t : FileTree) :
    (session config (.command now command :: rest) p : StateM FileTree _) t =
      let ((outcome, q), u) := (p.run now command : StateM FileTree _) t
      let ((outcomes, r), v) := (session config rest q : StateM FileTree _) u
      ((outcome :: outcomes, r), v) := rfl

theorem session_restart {p : Program} (h : Current config above p t) (rest : List SessionStep) :
    (session config (.restart :: rest) p : StateM FileTree _) t =
      (session config rest p : StateM FileTree _) t := by
  rw [session, run_bind, h.load]

theorem session_append (xs ys : List SessionStep) (p : Program) (t : FileTree) :
    (session config (xs ++ ys) p : StateM FileTree _) t =
      let ((first, q), u) := (session config xs p : StateM FileTree _) t
      let ((second, r), v) := (session config ys q : StateM FileTree _) u
      ((first ++ second, r), v) := by
  induction xs generalizing p t with
  | nil => rfl
  | cons step xs ih =>
    cases step with
    | restart =>
      rw [List.cons_append, session, run_bind, ih, session, run_bind]
    | command now command =>
      rw [List.cons_append, session_command, session_command]
      rcases (p.run now command : StateM FileTree _) t with ⟨⟨outcome, q⟩, u⟩
      dsimp only
      rw [ih]
      rfl

def Unrefused (outcomes : List (Except CommandFault String)) : Prop :=
  ∀ outcome ∈ outcomes, ∀ f occasion, outcome ≠ .error (.document (.file f) occasion)

def commands (steps : List SessionStep) : List SessionStep :=
  steps.filter (· ≠ .restart)

/-- Without a refused file, a current program stays current, and restarts change nothing. -/
theorem Current.session {p : Program} {steps : List SessionStep} (h : Current config above p t)
    (hplace : ∀ now quote directory,
      SessionStep.command now (.exportQuote quote directory) ∈ steps → directory = none)
    (hsucceed : Unrefused ((Program.session config (commands steps) p : StateM FileTree _) t).1.1) :
    (Program.session config steps p : StateM FileTree _) t =
        (Program.session config (commands steps) p : StateM FileTree _) t ∧
      Current config above ((Program.session config steps p : StateM FileTree _) t).1.2
        ((Program.session config steps p : StateM FileTree _) t).2 := by
  induction steps generalizing p t with
  | nil => exact ⟨rfl, h⟩
  | cons step steps ih =>
    have hplace' now quote directory
        (hmem : SessionStep.command now (.exportQuote quote directory) ∈ steps) :
        directory = none :=
      hplace now quote directory (List.mem_cons_of_mem _ hmem)
    cases step with
    | restart =>
      have hcommands : commands (.restart :: steps) = commands steps := rfl
      rw [hcommands] at hsucceed ⊢
      rw [session_restart h]
      exact ih h hplace' hsucceed
    | command now command =>
      have hcommands : commands (.command now command :: steps) =
          .command now command :: commands steps := rfl
      rw [hcommands] at hsucceed ⊢
      rw [session_command] at hsucceed
      have hcurrent := run_current now command h
        (fun quote directory hexport => hplace now quote directory (by rw [hexport]; simp))
        (fun f occasion => hsucceed _ List.mem_cons_self f occasion)
      obtain ⟨hsame, hlast⟩ := ih hcurrent hplace'
        fun outcome houtcome => hsucceed outcome (List.mem_cons_of_mem _ houtcome)
      refine ⟨?_, hlast⟩
      rcases hrun : (p.run now command : StateM FileTree _) t with ⟨⟨outcome, q⟩, u⟩
      rw [hrun] at hsame
      dsimp only at hsame
      rw [session_command, session_command, hrun]
      dsimp only
      rw [hsame]

/-- Loading a program anew is not noticed: a session gives the outcomes, the program and the files
that it gives without the restarts. After every step the settings held are those in the file. The
path of the data directory goes back up only from directories that are there: one made later would
bring another file of settings into sight. -/
theorem restarts_unseen (config : Config) (steps : List SessionStep) (t : FileTree)
    {above : List String} (hleads : t.resolve config.dataDirectory.parts [] = .ok above)
    (hplace : ∀ now quote directory,
      SessionStep.command now (.exportQuote quote directory) ∈ steps → directory = none)
    (hsucceed : Unrefused ((session config (commands steps)
      ((load config : StateM FileTree _) t).1 : StateM FileTree _) t).1.1) :
    (session config steps ((load config : StateM FileTree _) t).1 : StateM FileTree _) t =
        (session config (commands steps) ((load config : StateM FileTree _) t).1 :
          StateM FileTree _) t ∧
      ∀ before outcomes p u, before <+: steps →
        (session config before ((load config : StateM FileTree _) t).1 : StateM FileTree _) t =
            ((outcomes, p), u) →
          p.settings.current = Settings.inFile (settingsFile config) u ∧
            p.service.settings = Settings.inFile (settingsFile config) u := by
  have hstart := load_current hleads
  refine ⟨(hstart.session hplace hsucceed).1, ?_⟩
  rintro before outcomes p u ⟨after, rfl⟩ hrun
  have hbefore : Unrefused ((session config (commands before)
      ((load config : StateM FileTree _) t).1 : StateM FileTree _) t).1.1 := by
    rw [commands, List.filter_append, session_append] at hsucceed
    exact fun outcome houtcome => hsucceed outcome (List.mem_append_left _ houtcome)
  have hcurrent := (hstart.session (fun now quote directory hmem =>
    hplace now quote directory (List.mem_append_left _ hmem)) hbefore).2
  rw [hrun] at hcurrent
  have hholds : p = holding config (Settings.inFile (settingsFile config) u) := hcurrent.holds
  rw [hholds]
  exact ⟨rfl, rfl⟩

/-- A template is chosen, the program is loaded anew, and the choice is still there. -/
theorem restarts_unseen_disabled :
    let config : Config := ⟨⟨"data"⟩, "acme"⟩
    let steps : List SessionStep :=
      [.command default (.setDefault " none"), .restart, .command default (.placeholders none)]
    let start := ((load config : StateM FileTree _) .empty).1
    (session config steps start : StateM FileTree _) .empty =
        (session config (commands steps) start : StateM FileTree _) .empty ∧
      ((session config steps start : StateM FileTree _) .empty).1.1 =
        [.ok "Default template set to none",
          .error (.document .noTemplate .previewing)] := by
  intro config steps start
  have hrun : ((session config (commands steps) start : StateM FileTree _) .empty).1.1 =
      [.ok "Default template set to none",
        .error (.document .noTemplate .previewing)] := by
    decide +kernel
  have hleads : FileTree.empty.resolve config.dataDirectory.parts [] = _ :=
    FileTree.resolve_descending (by decide +kernel) _
  have hsame := (restarts_unseen config steps .empty hleads (by simp [steps])
    (by simp [Unrefused, hrun, start])).1
  exact ⟨hsame, by rw [hsame, hrun]⟩

/-- The data directory lies beyond one that is not there yet. Saving a template makes it, and then
the settings that were there before are in sight for a program that is loaded anew. -/
theorem restart_seen_beyond_missing_directory :
    let config : Config := ⟨⟨"a/../b"⟩, "default"⟩
    let document := "\x7b\"company\": \x7b\"name\": \"Acme\"\x7d, " ++
      "\"client\": \x7b\"name\": \"Maria\"\x7d, " ++
      "\"quote\": \x7b\"number\": \"ORC-1\", \"issueDate\": \"2024-01-31\"\x7d\x7d"
    let settings := "\x7b\"preview_sandbox\": [\"allow-forms\"]\x7d"
    let t : FileTree := ⟨[("q.json", .file document.toUTF8), ("t.html", .file "x".toUTF8),
      ("b", .directory [("document_settings.json", .file settings.toUTF8)])]⟩
    let start := ((load config : StateM FileTree _) t).1
    let save := SessionStep.command default (.setTemplate ⟨"t.html"⟩)
    let preview := SessionStep.command default (.preview ⟨"q.json"⟩ none)
    let outcomes (sandbox : String) : List (Except CommandFault String) :=
      [.ok "Saved custom template for 'default'",
        .ok ("<iframe sandbox=\"" ++ sandbox ++
          "\" srcdoc=\"x\" title=\"Quote preview\"></iframe>")]
    ((session config [save, preview] start : StateM FileTree _) t).1.1 = outcomes "" ∧
      ((session config [save, .restart, preview] start : StateM FileTree _) t).1.1 =
        outcomes "allow-forms" := by
  decide +kernel

end Program

end QuotePress
