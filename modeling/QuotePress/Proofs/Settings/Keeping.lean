import QuotePress.Proofs.Files.Actions
import QuotePress.Proofs.Json.Records
import QuotePress.Settings.Manager

/-! # Settings are kept in their file

Settings that are written to a file are read from it again, and what is read depends on the file
alone: whatever leaves the file leaves the settings. -/
namespace QuotePress

open Json (Decodes Decoder Legible)

theorem Fallback.decodes {levels : Nat} (f : Fallback) :
    Decodes decoder (levels + 1) f.toJson f := by
  cases f with
  | latest => rfl
  | disabled => rfl
  | pinned version =>
    have hword : Decodes Decoder.word levels (.ofNat version.toNat) version :=
      Decoder.decodes_word version
    have hsafe : (Json.Reading.ofJson (.ofNat version.toNat)).valueFault levels = none := rfl
    exact Decoder.tagged_fills "DefaultTemplateSetting" "mode" rfl (by simp [hsafe]) (by decide)
      (.cons (hword.map_set _ _ _ _) (.nil _))

theorem Fallback.legible (f : Fallback) : Legible f.toJson := by
  cases f with
  | latest | disabled => simp [toJson, Legible, Json.LegibleMembers]
  | pinned version =>
    have hsize : ((version.toNat : Nat) : Int) < UInt64.size :=
      Int.ofNat_lt.2 (Nat.lt_trans version.toNat_lt (by decide))
    exact ⟨trivial, ⟨Int.natCast_nonneg _, hsize⟩, trivial⟩

namespace Settings

theorem decodes {levels : Nat} (s : Settings) : Decodes decoder (levels + 2) s.toJson s := by
  have hsandbox : Decodes (Decoder.list Decoder.string) (levels + 1) (.ofTexts s.previewSandbox)
      s.previewSandbox :=
    Decoder.decodes_list Json.string s.previewSandbox fun _ _ => rfl
  exact Decoder.record_fills "DocumentSettings" (by decide) <|
    .cons (s.fallback.decodes.map_set _ _ _ _) <| .cons rfl <|
    .cons (hsandbox.map_set _ _ _ _) <| .nil _

theorem legible (s : Settings) : Legible s.toJson := by
  have hsandbox : Json.LegibleItems (s.previewSandbox.map Json.string) := by
    rw [Json.legibleItems_iff]
    intro j hj
    obtain ⟨token, -, rfl⟩ := List.mem_map.1 hj
    trivial
  exact ⟨s.fallback.legible, trivial, hsandbox, trivial⟩

theorem read_pretty (s : Settings) : read s.toJson.pretty = .ok s := by
  have hdecodes : Decodes decoder Json.maxLevels s.toJson s := s.decodes
  rw [read, Json.pretty, Json.decode_render hdecodes s.legible]

theorem readOrDefault_pretty (s : Settings) : readOrDefault s.toJson.pretty = s := by
  rw [readOrDefault, read_pretty]

/-- The settings in a file; the defaults, if it cannot be read or holds no settings. -/
def inFile (p : Path) (t : FileTree) : Settings :=
  match t.readText p with
  | .ok text => readOrDefault text
  | .error _ => default

theorem inFile_pretty {p : Path} {t : FileTree} {s : Settings}
    (h : t.readText p = .ok s.toJson.pretty) : inFile p t = s := by
  rw [inFile, h]
  exact s.readOrDefault_pretty

theorem inFile_congr {p : Path} {t u : FileTree}
    (h : ∀ bytes, u.FileAt p bytes ↔ t.FileAt p bytes) : inFile p u = inFile p t := by
  by_cases hfile : ∃ bytes, t.FileAt p bytes
  · obtain ⟨bytes, hfile⟩ := hfile
    rw [inFile, inFile, FileTree.readText_fileAt hfile,
      FileTree.readText_fileAt ((h bytes).2 hfile)]
  · have hnone {v : FileTree} (hv : ∀ bytes, ¬ v.FileAt p bytes) : inFile p v = default := by
      rw [inFile]
      cases htext : v.readText p with
      | error f => rfl
      | ok text =>
        obtain ⟨bytes, hbytes, -⟩ := FileTree.readText_eq_ok_iff.1 htext
        exact absurd hbytes (hv bytes)
    rw [hnone fun bytes hbytes => hfile ⟨bytes, (h bytes).1 hbytes⟩,
      hnone fun bytes hbytes => hfile ⟨bytes, hbytes⟩]

end Settings

namespace SettingsManager

/-- Loading looks at the file only, and gives what is in it. A file that cannot be read leaves the
settings as they were. -/
theorem load_cases (manager : SettingsManager) (t : FileTree) :
    (manager.load : StateM FileTree _) t =
        ((.ok (), ⟨manager.directory, Settings.inFile manager.file t⟩), t) ∨
      ∃ f, t.readText manager.file = .error f ∧
        (manager.load : StateM FileTree _) t = ((.error (.file f), manager), t) := by
  have hprobe : (FileSystem.probe manager.file : StateM FileTree _) t =
      (t.probe manager.file, t) := rfl
  have htext : (FileSystem.readText manager.file : StateM FileTree _) t =
      (t.readText manager.file, t) := rfl
  have hmissing {f : FileFault} (h : t.at? manager.file = .error f) :
      t.readText manager.file = .error f := by
    rw [FileTree.readText, h]
    rfl
  rw [load, run_bind, hprobe, FileTree.probe]
  cases hat : t.at? manager.file with
  | error f =>
    rw [Settings.inFile, hmissing hat]
    cases f with
    | notFound => exact Or.inl rfl
    | _ => exact Or.inr ⟨_, rfl, rfl⟩
  | ok entry =>
    dsimp only
    rw [run_bind, htext, Settings.inFile]
    cases t.readText manager.file with
    | error f => exact Or.inr ⟨f, rfl, rfl⟩
    | ok text => exact Or.inl rfl

/-- A new manager holds the defaults, which stand for a file that cannot be read. -/
theorem load_run (directory : Path) (t : FileTree) : ∃ result,
    ((new directory).load : StateM FileTree _) t =
      ((result, ⟨directory, Settings.inFile (new directory).file t⟩), t) := by
  rcases (new directory).load_cases t with hload | ⟨f, htext, hload⟩
  · exact ⟨_, hload⟩
  · rw [Settings.inFile, htext]
    exact ⟨_, hload⟩

theorem save_eq_deposit (manager : SettingsManager) : (manager.save : StateM FileTree _) =
    deposit manager.file.parent manager.file manager.current.toJson.pretty () := by
  rw [save, deposit]
  refine bind_congr fun answer => ?_
  cases answer with
  | error f => rfl
  | ok _ =>
    refine bind_congr fun written => ?_
    cases written <;> rfl

/-- Settings are saved, and the file holds their text then, unless a file is refused. No directory
is lost. -/
theorem save_run (manager : SettingsManager) (t : FileTree) :
    (∃ saved, (manager.save : StateM FileTree _) t = (.ok (), saved) ∧
      saved.readText manager.file = .ok manager.current.toJson.pretty ∧
      ∀ names, FileTree.IsDirectory names t.entries → FileTree.IsDirectory names saved.entries) ∨
    ∃ f saved, (manager.save : StateM FileTree _) t = (.error (.file f), saved) := by
  rw [save_eq_deposit]
  rcases deposit_run manager.file.parent manager.file manager.current.toJson.pretty () t
    with ⟨made, written, hmake, hwrite, hrun⟩ | ⟨f, hrun⟩
  · have hmade := FileTree.keeps_makeDirectories t manager.file.parent
    obtain ⟨names, -, hkeeps⟩ := FileTree.keeps_writeBytes hwrite
    rw [hmake] at hmade
    exact Or.inl ⟨written, hrun, FileTree.readText_writeBytes hwrite, fun names hdir =>
      hkeeps.directories names (hmade.directories names hdir)⟩
  · exact Or.inr ⟨f, _, hrun⟩

theorem save_taken {manager : SettingsManager} {t : FileTree} (h : t.Takes manager.file) :
    ∃ saved, (manager.save : StateM FileTree _) t = (.ok (), saved) ∧
      saved.readText manager.file = .ok manager.current.toJson.pretty := by
  obtain ⟨made, saved, hmake, hwrite⟩ := h manager.current.toJson.pretty
  refine ⟨saved, ?_, FileTree.readText_writeBytes hwrite⟩
  rw [save_eq_deposit, deposit_taken () hmake hwrite]

theorem update_eq_save (manager : SettingsManager) (settings : Settings) (t : FileTree) :
    (manager.update settings : StateM FileTree _) t =
      let (result, saved) := (({ manager with current := settings } : SettingsManager).save :
        StateM FileTree _) t
      ((result, { manager with current := settings }), saved) := rfl

/-- Settings are saved, and are in the file then, unless a file is refused. No directory is lost. -/
theorem update_run (directory : Path) (current settings : Settings) (t : FileTree) :
    ∃ result saved, ((mk directory current).update settings : StateM FileTree _) t =
        ((result, ⟨directory, settings⟩), saved) ∧
      ((∃ f, result = .error (.file f)) ∨
        result = .ok () ∧ Settings.inFile (new directory).file saved = settings ∧
          ∀ names, FileTree.IsDirectory names t.entries →
            FileTree.IsDirectory names saved.entries) := by
  rw [update_eq_save]
  rcases (mk directory settings).save_run t with ⟨saved, hsave, htext, hkeeps⟩ | ⟨f, saved, hsave⟩
  · rw [hsave]
    exact ⟨_, saved, rfl, Or.inr ⟨rfl, Settings.inFile_pretty htext, hkeeps⟩⟩
  · rw [hsave]
    exact ⟨_, saved, rfl, Or.inl ⟨f, rfl⟩⟩

end SettingsManager

end QuotePress
