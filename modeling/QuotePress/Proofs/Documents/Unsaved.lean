import QuotePress.Proofs.Documents.Agreement
import QuotePress.Proofs.Documents.History
import QuotePress.Proofs.Store.Calls

/-! # Templates that are not saved

A template that is not saved is previewed as if it were: whatever a tenant had before, saving the
template and then previewing a document shows the same. Saving a blank one leaves nothing behind. -/
namespace QuotePress.Service

def chosen (settings : Settings) : Option String → Except DocumentError ChosenTemplate
  | some source => if Text.isBlank source then fallback settings else .ok ⟨.custom, source⟩
  | none => fallback settings

def shown (settings : Settings) (document : QuoteDocument) (kept : Option String) :
    Except DocumentError PreviewFrame :=
  (chosen settings kept).bind fun template => frame settings template.source document

section

variable {σ : Type} {m : Type → Type} [Monad m] [TemplateStore σ m]

theorem resolve_eq_chosen (service : Service σ) (tenant : String) :
    (service.resolve tenant : m _) = (do
      return (← TemplateStore.get service.store tenant).bind fun found =>
        chosen service.settings (found.map StoredTemplate.source)) := by
  refine bind_congr fun stored => ?_
  cases stored with
  | error e => rfl
  | ok found =>
    cases found with
    | none => rfl
    | some template =>
      dsimp only [Except.bind, Option.map_some, chosen]
      split <;> rfl

/-- A preview depends on the store through what is kept for the tenant, and on the settings. -/
theorem preview_eq_shown [LawfulMonad m] (service : Service σ) (tenant : String)
    (document : QuoteDocument) :
    (service.preview tenant document : m _) = (do
      return (← TemplateStore.get service.store tenant).bind fun found =>
        shown service.settings document (found.map StoredTemplate.source)) := by
  rw [preview, resolve_eq_chosen, bind_assoc]
  refine bind_congr fun stored => ?_
  rw [pure_bind]
  cases stored with
  | error e => rfl
  | ok found =>
    dsimp only [Except.bind, shown]
    cases chosen service.settings (found.map StoredTemplate.source) <;> rfl

end

theorem shown_text {source : String} (h : Text.isBlank source = false) (settings : Settings)
    (document : QuoteDocument) :
    shown settings document (some source) = frame settings source document := by
  rw [shown, chosen, h]
  rfl

theorem previewTemplate_text {σ : Type} {source : String} (h : Text.isBlank source = false)
    (service : Service σ) (document : QuoteDocument) :
    service.previewTemplate source document = shown service.settings document (some source) := by
  rw [shown_text h, previewTemplate, h]
  rfl

theorem preview_memory (service : Service MemoryStore) (tenant : String)
    (document : QuoteDocument) : Id.run (service.preview tenant document) =
      shown service.settings document (ServiceChange.kept? service tenant) := by
  rw [preview_eq_shown]
  rfl

theorem preview_saved_memory (service : Service MemoryStore) (now : Timestamp)
    (tenant source : String) (document : QuoteDocument) :
    let saved := Id.run (service.saveTemplate now tenant source)
    saved.1 = .ok () ∧ Id.run (saved.2.preview tenant document) =
      shown service.settings document (if Text.isBlank source then none else some source) := by
  intro saved
  have hkept : ServiceChange.kept? saved.2 tenant =
      if Text.isBlank source then none else some source :=
    (ServiceChange.kept?_apply service (.save now tenant source) tenant).trans (if_pos rfl)
  have hsettings : saved.2.settings = service.settings :=
    ServiceChange.settings_apply service (.save now tenant source)
  constructor
  · change (Id.run (service.saveTemplate now tenant source)).1 = _
    rw [saveTemplate]
    split <;> rfl
  · rw [preview_memory, hsettings, hkept]

section Files

variable {service : Service FileStore} {tenant source : String} {now : Timestamp}
  {t u : FileTree}

/-- A preview reads the file of the tenant and changes no file. -/
theorem preview_files (service : Service FileStore) (tenant : String) (document : QuoteDocument)
    (t : FileTree) : (service.preview tenant document : StateM FileTree _) t =
      ((FileStore.read service.store.directory tenant t).bind fun found =>
        shown service.settings document (found.map StoredTemplate.source), t) := by
  have hget : (TemplateStore.get service.store tenant : StateM FileTree _) t =
      (FileStore.read service.store.directory tenant t, t) :=
    Prod.ext rfl (Reads.get service.store tenant t)
  rw [preview_eq_shown, run_bind, hget]
  rfl

theorem preview_read {found : Option StoredTemplate}
    (h : FileStore.read service.store.directory tenant u = .ok found) (document : QuoteDocument) :
    (service.preview tenant document : StateM FileTree _) u =
      (shown service.settings document (found.map StoredTemplate.source), u) := by
  rw [preview_files, h]
  rfl

def saveCall (tenant source : String) : StoreCall :=
  if Text.isBlank source then .remove tenant else .put tenant source

theorem saveTemplate_files (service : Service FileStore) (now : Timestamp)
    (tenant source : String) (t : FileTree) :
    (service.saveTemplate now tenant source : StateM FileTree _) t =
      (((FileStore.step service.store.directory now (saveCall tenant source) t).1.map fun _ => (),
        service), (FileStore.step service.store.directory now (saveCall tenant source) t).2) := by
  have hforget {α β : Type} (result : Except DocumentError α) (f : α → β) :
      (result.map f).map (fun _ => ()) = result.map fun _ => () := by
    cases result <;> rfl
  rw [saveTemplate, saveCall]
  split
  · exact Prod.ext (Prod.ext (hforget _ StoreAnswer.removed).symm rfl) rfl
  · let savedAnswer := fun stored : StoredTemplate => StoreAnswer.saved stored.source
    exact Prod.ext (Prod.ext (hforget _ savedAnswer).symm rfl) rfl

theorem saveTemplate_text (hblank : Text.isBlank source = false)
    (htenant : FileStore.isTenant tenant = true) (hnow : now.Legal)
    (hsucceed : ∀ f,
      ((service.saveTemplate now tenant source : StateM FileTree _) t).1.1 ≠ .error (.file f)) :
    ∃ u, (service.saveTemplate now tenant source : StateM FileTree _) t = ((.ok (), service), u) ∧
      FileStore.read service.store.directory tenant u = .ok (some ⟨source, now⟩) := by
  rw [saveTemplate_files, saveCall, hblank, if_neg Bool.false_ne_true] at hsucceed ⊢
  obtain ⟨made, written, -, hwrite, hstep⟩ := FileStore.put_succeeds htenant fun f hfault =>
    hsucceed f (by rw [hfault]; rfl)
  have hfile : written.FileAt (FileStore.path service.store.directory tenant) _ :=
    FileTree.at?_writeBytes hwrite
  rw [hstep]
  refine ⟨written, rfl, ?_⟩
  rw [FileStore.read_fileAt htenant hfile, FileTree.fromUTF8?_toUTF8]
  dsimp only
  rw [StoredTemplate.decode_pretty ⟨source, now⟩ hnow]
  rfl

theorem saveTemplate_blank (hblank : Text.isBlank source = true)
    (htenant : FileStore.isTenant tenant = true)
    (hsucceed : ∀ f,
      ((service.saveTemplate now tenant source : StateM FileTree _) t).1.1 ≠ .error (.file f)) :
    ∃ u, (service.saveTemplate now tenant source : StateM FileTree _) t = ((.ok (), service), u) ∧
      FileStore.read service.store.directory tenant u = .ok none ∧
      ∀ bytes, ¬ u.FileAt (FileStore.path service.store.directory tenant) bytes := by
  rw [saveTemplate_files, saveCall, hblank, if_pos rfl,
    FileStore.step_remove_valid _ htenant] at hsucceed ⊢
  split
  · rename_i hprobe
    rw [hprobe] at hsucceed
    cases hremove : t.removeFile (FileStore.path service.store.directory tenant) with
    | error f =>
      rw [hremove] at hsucceed
      exact absurd rfl (hsucceed f)
    | ok result =>
      refine ⟨result.2, rfl, FileStore.read_absent htenant ?_⟩
      rw [FileTree.probe, FileTree.at?_removeFile hremove]
      intro hthere
      cases hthere
  · rename_i hprobe
    exact ⟨t, rfl, FileStore.read_absent htenant hprobe⟩

end Files

/-- Previewing a template that is not saved shows what saving it and previewing would show, or fails
with the same error. After a blank one is saved, a preview is as without any custom template. All
this holds in memory and in files, if no file is refused. -/
theorem previewTemplate_as_saved (now : Timestamp) (tenant source : String)
    (document : QuoteDocument) :
    (∀ service : Service MemoryStore,
      let saved := Id.run (service.saveTemplate now tenant source)
      let previewed := Id.run (saved.2.preview tenant document)
      saved.1 = .ok () ∧
      (Text.isBlank source = false → previewed = service.previewTemplate source document) ∧
      (Text.isBlank source = true →
        let never : Service MemoryStore := ⟨NameMap.empty, service.settings⟩
        previewed = Id.run (never.preview tenant document))) ∧
    ∀ (service : Service FileStore) (t : FileTree), now.Legal →
      FileStore.isTenant tenant = true →
      let saved := (service.saveTemplate now tenant source : StateM FileTree _) t
      let previewed := (saved.1.2.preview tenant document : StateM FileTree _) saved.2
      (∀ f, saved.1.1 ≠ .error (.file f)) →
      saved.1.1 = .ok () ∧ previewed.2 = saved.2 ∧
      (Text.isBlank source = false → previewed.1 = service.previewTemplate source document) ∧
      (Text.isBlank source = true →
        (∀ bytes, ¬ saved.2.FileAt (FileStore.path service.store.directory tenant) bytes) ∧
        ∀ never : FileTree,
          (∀ bytes, ¬ never.FileAt (FileStore.path service.store.directory tenant) bytes) →
          let shown := ((service.preview tenant document : StateM FileTree _) never).1
          (∀ f, shown ≠ .error (.file f)) → previewed.1 = shown) := by
  constructor
  · intro service saved previewed
    obtain ⟨hsaved, hpreviewed⟩ := preview_saved_memory service now tenant source document
    change previewed = _ at hpreviewed
    refine ⟨hsaved, fun hblank => ?_, fun hblank => ?_⟩
    · rw [hpreviewed, hblank, previewTemplate_text hblank]
      rfl
    · intro never
      rw [hpreviewed, hblank, preview_memory]
      rfl
  · intro service t hnow htenant saved previewed hsucceed
    cases hblank : Text.isBlank source with
    | false =>
      obtain ⟨u, hsaved, hread⟩ := saveTemplate_text hblank htenant hnow hsucceed
      change saved = _ at hsaved
      dsimp only [previewed]
      rw [hsaved, preview_read hread]
      refine ⟨rfl, rfl, fun _ => ?_, fun h => absurd h Bool.false_ne_true⟩
      exact (previewTemplate_text hblank service document).symm
    | true =>
      obtain ⟨u, hsaved, hread, hnone⟩ := saveTemplate_blank hblank htenant hsucceed
      change saved = _ at hsaved
      dsimp only [previewed]
      rw [hsaved, preview_read hread]
      refine ⟨rfl, rfl, fun h => absurd h.symm Bool.false_ne_true, fun _ => ⟨hnone, ?_⟩⟩
      intro never hnever hfine
      rw [preview_files] at hfine ⊢
      rw [FileStore.read_none htenant hnever fun f hfault => hfine f (by rw [hfault]; rfl)]
      rfl

/-- A first template is saved in a file, and cleared again where the settings choose none. -/
theorem previewTemplate_as_saved_cleared :
    let source := "<b>\x7b\x7bclientName\x7d\x7d</b>"
    let quote := { Quote.blank with number := "7" }
    let document : QuoteDocument := ⟨{ name := "A" }, { name := "B" }, quote⟩
    let settings := { Settings.default with fallback := .disabled }
    let service : Service FileStore := ⟨⟨⟨"templates"⟩⟩, settings⟩
    let saved := (service.saveTemplate default "acme" source : StateM FileTree _) FileTree.empty
    let cleared := (service.saveTemplate default "acme" " \n" : StateM FileTree _) saved.2
    let previewed := fun (service : Service FileStore) t =>
      ((service.preview "acme" document : StateM FileTree _) t).1
    previewed saved.1.2 saved.2 = service.previewTemplate source document ∧
      previewed cleared.1.2 cleared.2 = previewed service FileTree.empty ∧
      previewed service FileTree.empty = .error .noTemplate := by
  intro source quote document settings service saved cleared previewed
  have hlegal : (default : Timestamp).Legal := ⟨by decide, by decide, by decide⟩
  have hsaved := ok_of_toOption (show saved.1.1.toOption = some () by decide +kernel)
  have hcleared := ok_of_toOption (show cleared.1.1.toOption = some () by decide +kernel)
  have hprobe := ok_of_toOption (show (FileTree.empty.probe
    (FileStore.path service.store.directory "acme")).toOption = some false by decide +kernel)
  have htenant : FileStore.isTenant "acme" = true := by decide
  have hfine {α : Type} {x : Except DocumentError α} {a : α} (h : x = .ok a) (f : FileFault) :
      x ≠ .error (.file f) := by
    rw [h]
    exact nofun
  obtain ⟨hread, hnone⟩ := FileStore.read_absent htenant (by rw [hprobe]; exact nofun)
  have hempty : previewed service FileTree.empty = .error .noTemplate := by
    dsimp only [previewed]
    rw [preview_files, hread]
    rfl
  have hrefused (f : FileFault) : previewed service FileTree.empty ≠ .error (.file f) := by
    rw [hempty]
    exact nofun
  obtain ⟨-, hfirst⟩ := previewTemplate_as_saved default "acme" source document
  obtain ⟨-, -, hshown, -⟩ := hfirst service FileTree.empty hlegal htenant (hfine hsaved)
  obtain ⟨-, hsecond⟩ := previewTemplate_as_saved default "acme" " \n" document
  obtain ⟨-, -, -, hgone⟩ := hsecond service saved.2 hlegal htenant (hfine hcleared)
  have hsame := (hgone (by decide)).2 FileTree.empty hnone hrefused
  exact ⟨hshown (by decide), hsame, hempty⟩

end QuotePress.Service
