import QuotePress.Proofs.Documents.Agreement
import QuotePress.Proofs.Markup.FileNames
import QuotePress.Proofs.Quote.Rules

/-! # An export stays in its directory

An export asks for two things: for its directory, and for one file in it that is called after the
number of the quote. Every other file is as before, so neither a stored template nor the settings
are ever lost to an export. -/
namespace QuotePress

variable {α β : Type}

def Preserves (p : Path) (action : StateM FileTree α) : Prop :=
  ∀ t bytes, t.FileAt p bytes → (action t).2.FileAt p bytes

namespace Preserves

variable {p : Path}

theorem of_reads {action : StateM FileTree α} (h : Reads action) : Preserves p action := by
  intro t bytes hfile
  rw [h t]
  exact hfile

theorem bind {action : StateM FileTree α} {next : α → StateM FileTree β} (h : Preserves p action)
    (hnext : ∀ a, Preserves p (next a)) : Preserves p (action >>= next) :=
  fun t bytes hfile => hnext _ _ bytes (h t bytes hfile)

end Preserves

namespace ExportRequest

/-- How an export of markup for a quote number ends. Either the markup is in one file of the
directory, or making the directory or writing the file is refused; and all other files, wherever
they are, have the bytes that they had. -/
inductive Delivered (directory : Path) (number html : String) (t : FileTree) :
    Except DocumentError Path × FileTree → Prop where
  | written {above : List String} {changed : FileTree}
      (hplace : changed.resolve directory.parts [] = .ok above)
      (hread : changed.readText (directory.join (exportedName number)) = .ok html)
      (hkeeps : FileTree.Keeps (· ≠ above ++ [exportedName number]) t.entries changed.entries) :
      Delivered directory number html t (.ok (directory.join (exportedName number)), changed)
  | refused {f : FileFault} {left : FileTree}
      (hreason : ∀ made changed, t.makeDirectories directory = (.ok (), made) →
        made.writeBytes (directory.join (exportedName number)) html.toUTF8 ≠ .ok ((), changed))
      (hkeeps : FileTree.Keeps (fun _ => True) t.entries left.entries) :
      Delivered directory number html t (.error (.file f), left)

theorem htmlRenderer_of {m : Type → Type} [Monad m] [FileSystem m] (directory : Path)
    (number html : String) :
    (htmlRenderer directory (of number html) : m _) = (do
      match ← FileSystem.makeDirectories directory with
      | .error f => return .error (.file f)
      | .ok () =>
        let written ← FileSystem.writeText (directory.join (exportedName number)) html
        return (DocumentError.liftFile written).map fun () =>
          directory.join (exportedName number)) := by
  rw [htmlRenderer, withEnding_of]
  rfl

theorem delivered (directory : Path) (number html : String) (t : FileTree) :
    Delivered directory number html t
      ((htmlRenderer directory (of number html) : StateM FileTree _) t) := by
  rw [htmlRenderer_of]
  let path := directory.join (exportedName number)
  have hmade := FileTree.keeps_makeDirectories t directory
  change Delivered directory number html t (deposit directory path html path t)
  rcases deposit_run directory path html path t with
    ⟨made, changed, hmake, hwrite, hrun⟩ | ⟨f, hrun⟩
  · rw [hmake] at hmade
    rw [hrun]
    obtain ⟨names, hnames, hkeeps⟩ := FileTree.keeps_writeBytes hwrite
    obtain ⟨-, above, habove, rfl⟩ :=
      (FileTree.names_join_iff (isName_exportedName number)).1 hnames
    exact .written (FileTree.resolve_kept hkeeps.directories habove)
      (FileTree.readText_writeBytes hwrite) ((hmade.mono fun _ _ => trivial).trans hkeeps)
  · rw [hrun]
    refine .refused (fun made changed hmake hwrite => ?_) hmade
    cases hrun.symm.trans (deposit_taken path hmake hwrite)

/-- A file of another name is left as it is, in whatever directory it is. -/
theorem preserves_htmlRenderer {file : String} (hfile : Path.IsName file) {number : String}
    (hother : file ≠ exportedName number) (elsewhere directory : Path) (html : String) :
    Preserves (elsewhere.join file) (htmlRenderer directory (of number html)) := by
  intro t bytes hbytes
  have hdelivered := delivered directory number html t
  generalize (htmlRenderer directory (of number html) : StateM FileTree _) t = outcome
    at hdelivered ⊢
  cases hdelivered with
  | refused _ hkeeps => exact hbytes.kept hkeeps
  | written _ _ hkeeps =>
    obtain ⟨-, names, hnames, -⟩ := FileTree.fileAt_iff.1 hbytes
    refine (hkeeps.fileAt_iff hnames ?_).2 hbytes
    obtain ⟨-, above, -, rfl⟩ := (FileTree.names_join_iff hfile).1 hnames
    intro hsame
    exact hother (List.append_singleton_inj.1 hsame).2

theorem json_ne_exportedName (front number : String) : front ++ ".json" ≠ exportedName number := by
  intro h
  have hlist := congrArg String.toList h
  rw [String.toList_append, toList_exportedName, ← List.append_assoc] at hlist
  exact absurd (List.append_inj' hlist (by simp)).2 (by simp)

structure IsPlain (number : String) : Prop where
  nonempty : number ≠ ""
  stemChars : ∀ c ∈ number.toList, isStemChar c = true

theorem IsPlain.exportedName_ne {number other : String} (h : IsPlain number)
    (hother : IsPlain other) (hne : number ≠ other) : exportedName number ≠ exportedName other := by
  intro hname
  have hstem := stem_of_exportedName hname
  rw [stem_of_stemChars h.nonempty h.stemChars,
    stem_of_stemChars hother.nonempty hother.stemChars] at hstem
  exact hne (String.toList_injective hstem)

/-- Files of different names are different, by their paths and wherever these lead. -/
theorem join_apart {first second : String} (hfirst : Path.IsName first)
    (hsecond : Path.IsName second) (hne : first ≠ second) (directory elsewhere : Path) :
    directory.join first ≠ elsewhere.join second ∧ ∀ (t : FileTree) names,
      t.names (directory.join first) = .ok names → t.names (elsewhere.join second) ≠ .ok names := by
  constructor
  · intro hpath
    have hparts := congrArg Path.parts hpath
    rw [Path.parts_join directory hfirst, Path.parts_join elsewhere hsecond] at hparts
    exact hne (List.append_singleton_inj.1 hparts).2
  · intro t names hnames hsame
    obtain ⟨-, above, -, rfl⟩ := (FileTree.names_join_iff hfirst).1 hnames
    obtain ⟨-, others, -, hnames⟩ := (FileTree.names_join_iff hsecond).1 hsame
    exact hne (List.append_singleton_inj.1 hnames).2

theorem not_blank_of_valid {d : QuoteDocument} (h : d.validate = .ok ()) :
    Text.isBlank d.quote.number = false := by
  have hnone : d.violations = [] := by
    rw [QuoteDocument.validate] at h
    split at h
    · exact List.isEmpty_iff.1 ‹_›
    · cases h
  exact QuoteDocument.violations_eq_nil_iff.1 hnone .number

end ExportRequest

namespace Program

theorem reads_readQuote (quote : Path) (occasion : Occasion) :
    Reads (readQuote quote occasion) := by
  intro t
  rw [readQuote_run]

/-- Before an export hands its request to the renderer, it only reads. So it is as harmless as the
renderer is, in any sense that reading is harmless in and that a succession of actions inherits. -/
theorem exportQuote_harmless {Harmless : (α : Type) → StateM FileTree α → Prop}
    (hreads : ∀ (α : Type) (action : StateM FileTree α), Reads action → Harmless α action)
    (hbind : ∀ (α β : Type) (action : StateM FileTree α) (next : α → StateM FileTree β),
      Harmless α action → (∀ a, Harmless β (next a)) → Harmless β (action >>= next))
    {program : Program} {directory : Option Path}
    (hrenderer : ∀ number html, Harmless _
      (htmlRenderer (directory.getD program.config.exports) (ExportRequest.of number html)))
    (quote : Path) : Harmless _ (program.exportQuote quote directory) := by
  have hpure (α : Type) (a : α) : Harmless α (pure a) := hreads _ _ (Reads.pure a)
  refine hbind _ _ _ _ (hreads _ _ (reads_readQuote quote .exporting)) fun document => ?_
  cases document with
  | error e => exact hpure _ _
  | ok document =>
    refine hbind _ _ _ _ ?_ fun _ => hpure _ _
    refine hbind _ _ _ _ (hreads _ _ (Reads.resolve _ _)) fun chosen => ?_
    cases chosen with
    | error e => exact hpure _ _
    | ok template =>
      dsimp only
      split
      · exact hpure _ _
      · exact hbind _ _ _ _ (hrenderer document.quote.number _) fun _ => hpure _ _

end Program

/-- A file that the program keeps for itself: the settings, or the template of a tenant. -/
inductive OwnFile : Path → Prop where
  | settings (manager : SettingsManager) : OwnFile manager.file
  | template {store : FileStore} {tenant : String} {path : Path}
      (h : store.file tenant = .ok path) : OwnFile path

theorem OwnFile.name {file : Path} (h : OwnFile file) : ∃ (directory : Path) (front : String),
    file = directory.join (front ++ ".json") ∧ Path.IsName (front ++ ".json") := by
  cases h with
  | settings manager =>
    exact ⟨manager.directory, "document_settings", rfl, by decide, by decide, by decide, by decide⟩
  | @template store tenant _ h =>
    rw [FileStore.file] at h
    split at h
    · rename_i htenant
      cases h
      exact ⟨store.directory, tenant, rfl, FileStore.isName_file htenant⟩
    · cases h

theorem OwnFile.preserved {file : Path} (h : OwnFile file) (directory : Path)
    (number html : String) :
    Preserves file (htmlRenderer directory (ExportRequest.of number html)) := by
  obtain ⟨place, front, rfl, hname⟩ := h.name
  exact ExportRequest.preserves_htmlRenderer hname (ExportRequest.json_ne_exportedName front number)
    place directory html

namespace ExportRequest

/-- An export stays in its directory, whatever the number of the quote is. The file is one name
below the directory; the name is made of the number character by character, so that different
numbers that need no change have different files; no other file is touched, and none of the program
itself. -/
theorem export_confined :
    (∀ number, stem number ≠ [] ∧ (∀ c ∈ ['/', '\\', '.', '\x00'], c ∉ stem number) ∧
      Path.IsName ("quote-" ++ String.ofList (stem number) ++ ".html") ∧
      (Text.isBlank number = false → stem number = (Text.trim number).toList.map stemChar)) ∧
    (∀ d : QuoteDocument, d.validate = .ok () → Text.isBlank d.quote.number = false) ∧
    (∀ number other, IsPlain number → IsPlain other → number ≠ other →
      ∀ directory elsewhere : Path,
        directory.join (exportedName number) ≠ elsewhere.join (exportedName other) ∧
        ∀ (t : FileTree) names, t.names (directory.join (exportedName number)) = .ok names →
          t.names (elsewhere.join (exportedName other)) ≠ .ok names) ∧
    (∀ (directory : Path) (number html : String),
      (∀ (m : Type → Type) [Monad m] [FileSystem m],
        (htmlRenderer directory (of number html) : m _) = (do
          match ← FileSystem.makeDirectories directory with
          | .error f => return .error (.file f)
          | .ok () =>
            let written ← FileSystem.writeText (directory.join (exportedName number)) html
            return (DocumentError.liftFile written).map fun () =>
              directory.join (exportedName number))) ∧
      ∀ t : FileTree, Delivered directory number html t
        ((htmlRenderer directory (of number html) : StateM FileTree _) t)) ∧
    ∀ file, OwnFile file →
      (∀ directory number html, Preserves file (htmlRenderer directory (of number html))) ∧
      ∀ (program : Program) (quote : Path) (directory : Option Path),
        Preserves file (program.exportQuote quote directory) := by
  refine ⟨fun number => ?_, fun d => not_blank_of_valid, fun number other h hother hne => ?_,
    fun directory number html => ?_, fun file hfile => ?_⟩
  · exact ⟨stem_ne_nil number, fun c => not_mem_stem, isName_exportedName number, stem_of_not_blank⟩
  · exact join_apart (isName_exportedName number) (isName_exportedName other)
      (h.exportedName_ne hother hne)
  · exact ⟨fun m _ _ => htmlRenderer_of directory number html, delivered directory number html⟩
  · exact ⟨hfile.preserved, fun program quote directory =>
      Program.exportQuote_harmless (fun _ _ => Preserves.of_reads) (fun _ _ _ _ => Preserves.bind)
        (hfile.preserved _) quote⟩

theorem export_confined_escaping :
    let number := " ../t.json"
    let d : QuoteDocument :=
      ⟨{ name := "A" }, { name := "B" }, { Quote.blank with number := number }⟩
    let t : FileTree :=
      ⟨[("t.json", .file "T".toUTF8), ("document_settings.json", .file "S".toUTF8)]⟩
    let outcome := (htmlRenderer ⟨""⟩ (of number "<b>") : StateM FileTree _) t
    d.validate = .ok () ∧ stem number = "___t_json".toList ∧
    outcome.1 = .ok ⟨"quote-___t_json.html"⟩ ∧ Delivered ⟨""⟩ number "<b>" t outcome ∧
    outcome.2.FileAt ⟨"t.json"⟩ "T".toUTF8 ∧
    outcome.2.FileAt ⟨"document_settings.json"⟩ "S".toUTF8 ∧
    Path.join ⟨"out"⟩ (exportedName "7-a") ≠ Path.join ⟨"out"⟩ (exportedName "7_a") := by
  intro number d t outcome
  obtain ⟨hstem, hvalid, hapart, hdelivered, hkept⟩ := export_confined
  have hd : d.validate = .ok () := ok_of_toOption (by decide +kernel)
  have hsettings := (hkept _ (.settings (.new ⟨""⟩))).1 ⟨""⟩ number "<b>"
  have htemplate := (hkept _ (@OwnFile.template ⟨⟨""⟩⟩ "t" ⟨"t.json"⟩ rfl)).1 ⟨""⟩ number "<b>"
  refine ⟨hd, ?_, ok_of_toOption (by decide +kernel), (hdelivered ⟨""⟩ number "<b>").2 t,
    htemplate t _ rfl, hsettings t _ rfl, ?_⟩
  · rw [(hstem number).2.2.2 (hvalid d hd)]
    decide +kernel
  · have hchars : "7-a".toList.all isStemChar = true := by decide +kernel
    have hothers : "7_a".toList.all isStemChar = true := by decide +kernel
    exact (hapart "7-a" "7_a" ⟨by decide, List.all_eq_true.1 hchars⟩
      ⟨by decide, List.all_eq_true.1 hothers⟩ (by decide) ⟨"out"⟩ ⟨"out"⟩).1

end ExportRequest

end QuotePress
