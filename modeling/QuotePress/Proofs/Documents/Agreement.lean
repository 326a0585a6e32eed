import QuotePress.CommandLine.Program
import QuotePress.Proofs.Markup.Reading
import QuotePress.Proofs.Store.Reading

/-! # Export and preview agree

Both commands first make a draft: they read the quote, find the template and render. Only then one
writes a file and the other frames the markup. -/
namespace QuotePress

namespace Reads

theorem resolve (service : Service FileStore) (tenant : String) :
    Reads (service.resolve tenant) := by
  refine (get service.store tenant).bind fun stored => ?_
  cases stored with
  | error e => exact pure _
  | ok found =>
    cases found with
    | none => exact pure _
    | some template =>
      dsimp only
      split
      · exact pure _
      · exact pure _

end Reads

namespace Program

variable {m : Type → Type} [Monad m] [FileSystem m]

/-- What export and preview have in common: where the template is from, and the markup. -/
def draft (p : Program) (quote : Path) (occasion : Occasion) :
    m (Except CommandFault (Origin × ExportRequest)) := do
  match ← readQuote quote occasion with
  | .error e => return .error e
  | .ok document =>
    match ← p.service.resolve p.config.tenant with
    | .error e => return .error (.document e occasion)
    | .ok chosen =>
      let html := Service.render p.service.settings chosen.source document
      return (onOccasion occasion html).map fun html =>
        (chosen.origin, ExportRequest.of document.quote.number html)

theorem exportQuote_eq_draft [LawfulMonad m] (p : Program) (quote : Path)
    (directory : Option Path) :
    p.exportQuote quote directory = (do
      match ← p.draft quote .exporting with
      | .error e => return .error e
      | .ok (origin, request) =>
        let made ← htmlRenderer (directory.getD p.config.exports) request
        return (onOccasion .exporting made).map fun path =>
          "Exported " ++ path.text ++ " using " ++ origin.description : m _) := by
  simp only [exportQuote, draft, Service.exportQuote, bind_assoc]
  refine bind_congr fun document => ?_
  cases document with
  | error e => simp only [pure_bind]
  | ok document =>
    simp only [bind_assoc]
    refine bind_congr fun chosen => ?_
    cases chosen with
    | error e => simp only [pure_bind, onOccasion, Except.map]
    | ok template =>
      cases hrender : Service.render p.service.settings template.source document with
      | error e => simp only [hrender, pure_bind, onOccasion, Except.map]
      | ok html =>
        simp only [hrender, pure_bind, bind_assoc, onOccasion, Except.map]
        refine bind_congr fun made => ?_
        cases made with
        | error e => rfl
        | ok path => rfl

theorem preview_eq_draft [LawfulMonad m] (p : Program) (quote : Path) :
    p.preview quote none = (do
      return (← p.draft quote .previewing).map fun (_, request) =>
        PreviewFrame.element ⟨request.html, p.service.settings.sandboxTokens⟩ : m _) := by
  simp only [preview, draft, Service.preview, bind_assoc]
  refine bind_congr fun document => ?_
  cases document with
  | error e => simp only [pure_bind, Except.map]
  | ok document =>
    simp only [bind_assoc]
    refine bind_congr fun chosen => ?_
    cases chosen with
    | error e => simp only [pure_bind, onOccasion, Except.map]
    | ok template =>
      cases hrender : Service.render p.service.settings template.source document with
      | error e =>
        simp only [hrender, Service.frame, pure_bind]
        rfl
      | ok html =>
        simp only [hrender, Service.frame, pure_bind]
        rfl

/-- What keeps a quote from being drafted, with the error of a command on an occasion. -/
inductive Hindrance (p : Program) (quote : Path) (t : FileTree) :
    (Occasion → CommandFault) → Prop where
  | unreadable {f : FileFault} (h : t.readText quote = .error f) :
      Hindrance p quote t fun _ => .unreadableQuote quote
  | invalid {text : String} {fault : DocumentFault} (htext : t.readText quote = .ok text)
      (h : QuoteDocument.readValid text = .error fault) :
      Hindrance p quote t (.document (.invalidQuote fault))
  | unresolved {text : String} {document : QuoteDocument} {e : DocumentError}
      (htext : t.readText quote = .ok text) (hvalid : QuoteDocument.readValid text = .ok document)
      (h : ((p.service.resolve p.config.tenant : StateM FileTree _) t).1 = .error e) :
      Hindrance p quote t (.document e)

variable {p : Program} {quote : Path} {t : FileTree}

theorem readQuote_run (quote : Path) (occasion : Occasion) (t : FileTree) :
    (readQuote quote occasion : StateM FileTree _) t =
      (match t.readText quote with
      | .error _ => .error (.unreadableQuote quote)
      | .ok text =>
        onOccasion occasion (DocumentError.liftQuote (QuoteDocument.readValid text)), t) := by
  have hread : (FileSystem.readText quote : StateM FileTree _) t = (t.readText quote, t) := rfl
  rw [readQuote, run_bind, hread]
  cases t.readText quote with
  | error f => rfl
  | ok text => rfl

theorem resolve_run (service : Service FileStore) (tenant : String) (t : FileTree) :
    (service.resolve tenant : StateM FileTree _) t =
      (((service.resolve tenant : StateM FileTree _) t).1, t) :=
  Prod.ext rfl (Reads.resolve service tenant t)

theorem render_valid {text : String} {document : QuoteDocument}
    (h : QuoteDocument.readValid text = .ok document) (settings : Settings) (source : String) :
    Service.render settings source document =
      .ok (Template.compile source (document.toContext settings.currencySymbol)) := by
  obtain ⟨d, -, h⟩ := bind_eq_ok_iff.1 h
  obtain ⟨_, hvalid, hd⟩ := bind_eq_ok_iff.1 h
  cases hd
  rw [Service.render, hvalid]
  rfl

theorem Hindrance.draft {fault : Occasion → CommandFault} (h : Hindrance p quote t fault)
    (occasion : Occasion) :
    (p.draft quote occasion : StateM FileTree _) t = (.error (fault occasion), t) := by
  rw [Program.draft, run_bind, readQuote_run]
  cases h with
  | unreadable h => rw [h]; rfl
  | invalid htext h => rw [htext]; dsimp only; rw [h]; rfl
  | unresolved htext hvalid h =>
    rw [htext]
    dsimp only
    rw [hvalid]
    simp only [DocumentError.liftQuote, onOccasion]
    rw [run_bind, resolve_run, h]
    rfl

/-- Without a hindrance the drafts for both occasions are the same. -/
theorem hindered_or_drafted (p : Program) (quote : Path) (t : FileTree) :
    (∃ fault, Hindrance p quote t fault) ∨
      ∃ origin request, ∀ occasion,
        (p.draft quote occasion : StateM FileTree _) t = (.ok (origin, request), t) := by
  cases htext : t.readText quote with
  | error f => exact Or.inl ⟨_, .unreadable htext⟩
  | ok text =>
    cases hvalid : QuoteDocument.readValid text with
    | error fault => exact Or.inl ⟨_, .invalid htext hvalid⟩
    | ok document =>
      cases hresolve : ((p.service.resolve p.config.tenant : StateM FileTree _) t).1 with
      | error e => exact Or.inl ⟨_, .unresolved htext hvalid hresolve⟩
      | ok chosen =>
        right
        refine ⟨chosen.origin, ExportRequest.of document.quote.number
          (Template.compile chosen.source (document.toContext p.service.settings.currencySymbol)),
          fun occasion => ?_⟩
        rw [Program.draft, run_bind, readQuote_run, htext]
        dsimp only
        rw [hvalid]
        simp only [DocumentError.liftQuote, onOccasion]
        rw [run_bind, resolve_run, hresolve]
        simp only [render_valid hvalid]
        rfl

/-- Where a document is made, it reads as its markup; only files can be in the way. -/
theorem htmlRenderer_run (out : Path) (request : ExportRequest) (t : FileTree) :
    (∃ path made, (htmlRenderer out request : StateM FileTree _) t = (.ok path, made) ∧
      made.readText path = .ok request.html) ∨
    ∃ fault left,
      (htmlRenderer out request : StateM FileTree _) t = (.error (.file fault), left) := by
  let path := out.join ((Path.mk request.fileName).withEnding ".html").text
  rcases deposit_run out path request.html path t with
    ⟨made, written, -, hwrite, hrun⟩ | ⟨fault, hrun⟩
  · exact Or.inl ⟨path, written, hrun, FileTree.readText_writeBytes hwrite⟩
  · exact Or.inr ⟨fault, _, hrun⟩

/-- What hinders the draft hinders both commands, before anything is written. -/
theorem Hindrance.both {fault : Occasion → CommandFault} (h : Hindrance p quote t fault)
    (directory : Option Path) :
    (p.exportQuote quote directory : StateM FileTree _) t = (.error (fault .exporting), t) ∧
      (p.preview quote none : StateM FileTree _) t = (.error (fault .previewing), t) := by
  constructor
  · rw [exportQuote_eq_draft, run_bind, h.draft]
    rfl
  · rw [preview_eq_draft, run_bind, h.draft]
    rfl

theorem exportQuote_drafted {origin : Origin} {request : ExportRequest}
    (h : (p.draft quote .exporting : StateM FileTree _) t = (.ok (origin, request), t))
    (directory : Option Path) :
    (p.exportQuote quote directory : StateM FileTree _) t =
      let (made, left) :=
        (htmlRenderer (directory.getD p.config.exports) request : StateM FileTree _) t
      ((onOccasion .exporting made).map fun path =>
        "Exported " ++ path.text ++ " using " ++ origin.description, left) := by
  rw [exportQuote_eq_draft, run_bind, h]
  rfl

theorem preview_drafted {origin : Origin} {request : ExportRequest}
    (h : (p.draft quote .previewing : StateM FileTree _) t = (.ok (origin, request), t)) :
    (p.preview quote none : StateM FileTree _) t =
      (.ok (PreviewFrame.element ⟨request.html, p.service.settings.sandboxTokens⟩), t) := by
  rw [preview_eq_draft, run_bind, h]
  rfl

/-- An export shows what a preview shows. If the export succeeds, the frame holds the markup that is
in the file; if the preview succeeds, only the file system can hinder the export; and whatever else
hinders one of them hinders both, before anything is written. -/
theorem exportQuote_agrees (p : Program) (quote : Path) (directory : Option Path) (t : FileTree) :
    let out := directory.getD p.config.exports
    let exported := (p.exportQuote quote directory : StateM FileTree _) t
    let previewed := (p.preview quote none : StateM FileTree _) t
    (∀ line, exported.1 = .ok line → ∃ origin request path frame,
      (htmlRenderer out request : StateM FileTree _) t = (.ok path, exported.2) ∧
      line = "Exported " ++ path.text ++ " using " ++ Origin.description origin ∧
      exported.2.readText path = .ok request.html ∧
      previewed = (.ok frame, t) ∧ Markup.attribute? "srcdoc" frame = some request.html) ∧
    (∀ frame, previewed.1 = .ok frame → (∃ line, exported.1 = .ok line) ∨
      ∃ request fault,
        ((htmlRenderer out request : StateM FileTree _) t).1 = .error (.file fault) ∧
        exported.1 = .error (.document (.file fault) .exporting)) ∧
    (∀ fault, Hindrance p quote t fault →
      exported = (.error (fault .exporting), t) ∧ previewed = (.error (fault .previewing), t)) ∧
    ((∃ fault, Hindrance p quote t fault) ∨ ∃ frame, previewed = (.ok frame, t)) := by
  intro out exported previewed
  have hboth : ∀ fault, Hindrance p quote t fault →
      exported = (.error (fault .exporting), t) ∧ previewed = (.error (fault .previewing), t) :=
    fun fault h => h.both directory
  rcases hindered_or_drafted p quote t with ⟨fault, h⟩ | ⟨origin, request, hdraft⟩
  · obtain ⟨hexported, hpreviewed⟩ := hboth fault h
    refine ⟨?_, ?_, hboth, Or.inl ⟨fault, h⟩⟩
    · intro line hline
      rw [hexported] at hline
      cases hline
    · intro frame hframe
      rw [hpreviewed] at hframe
      cases hframe
  · have hexported := exportQuote_drafted (hdraft .exporting) directory
    have hpreviewed := preview_drafted (hdraft .previewing)
    refine ⟨?_, ?_, hboth, Or.inr ⟨_, hpreviewed⟩⟩
    · intro line hline
      rcases htmlRenderer_run out request t with ⟨path, made, hrun, hread⟩ | ⟨fault, left, hrun⟩
      · rw [hrun] at hexported
        have hmade : exported.2 = made := congrArg Prod.snd hexported
        refine ⟨origin, request, path, _, hmade ▸ hrun, ?_, hmade ▸ hread, hpreviewed,
          Markup.srcdoc_frame _⟩
        cases hline.symm.trans (congrArg Prod.fst hexported)
        rfl
      · rw [hrun] at hexported
        cases hline.symm.trans (congrArg Prod.fst hexported)
    · intro _ _
      rcases htmlRenderer_run out request t with ⟨path, made, hrun, -⟩ | ⟨fault, left, hrun⟩
      · rw [hrun] at hexported
        exact Or.inl ⟨_, congrArg Prod.fst hexported⟩
      · rw [hrun] at hexported
        exact Or.inr ⟨request, fault, congrArg Prod.fst hrun, congrArg Prod.fst hexported⟩

theorem exportQuote_agrees_custom :
    let quote := "\x7b\"company\":\x7b\"name\":\"A\"\x7d,\"client\":\x7b\"name\":\"B\"\x7d," ++
      "\"quote\":\x7b\"number\":\"7\",\"issueDate\":\"2024-01-01\"\x7d\x7d"
    let stored := "\x7b\"source\":\"<b>\x7b\x7bclientName\x7d\x7d</b>\"," ++
      "\"updated_at\":\"2024-01-01T00:00:00Z\"\x7d"
    let t : FileTree := ⟨[("q.json", .file quote.toUTF8), ("t.json", .file stored.toUTF8)]⟩
    let p : Program := ⟨⟨⟨""⟩, "t"⟩, .new ⟨""⟩, ⟨⟨⟨""⟩⟩, .default⟩⟩
    let exported := (p.exportQuote ⟨"q.json"⟩ none : StateM FileTree _) t
    let previewed := (p.preview ⟨"q.json"⟩ none : StateM FileTree _) t
    let missed := (p.exportQuote ⟨"r.json"⟩ none : StateM FileTree _) t
    exported.1 = .ok "Exported exports/quote-7.html using custom template" ∧
    (∃ path frame html, exported.2.readText path = .ok html ∧ previewed = (.ok frame, t) ∧
      Markup.attribute? "srcdoc" frame = some html) ∧
    Hindrance p ⟨"r.json"⟩ t (fun _ => .unreadableQuote ⟨"r.json"⟩) ∧
    missed = (.error (.unreadableQuote ⟨"r.json"⟩), t) := by
  intro quote stored t p exported previewed missed
  have hexported : exported.1.toOption =
      some "Exported exports/quote-7.html using custom template" := by decide +kernel
  have hhindered : Hindrance p ⟨"r.json"⟩ t (fun _ => .unreadableQuote ⟨"r.json"⟩) :=
    .unreadable (f := .notFound) rfl
  obtain ⟨hshown, -⟩ := exportQuote_agrees p ⟨"q.json"⟩ none t
  obtain ⟨-, -, hmissed, -⟩ := exportQuote_agrees p ⟨"r.json"⟩ none t
  obtain ⟨origin, request, path, frame, -, -, hread, hframe, hsrcdoc⟩ :=
    hshown _ (ok_of_toOption hexported)
  exact ⟨ok_of_toOption hexported, ⟨path, frame, request.html, hread, hframe, hsrcdoc⟩, hhindered,
    (hmissed _ hhindered).1⟩

end Program

end QuotePress
