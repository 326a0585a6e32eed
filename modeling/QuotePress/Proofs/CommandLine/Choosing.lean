import QuotePress.Proofs.CommandLine.Restart
import QuotePress.Proofs.Documents.Unsaved

/-! # Choosing a shipped template

A choice is a word or the numeral of a shipped version. A choice that is taken is in the file, in the
manager and in the service, and all other settings stay; one that is not taken changes nothing. -/
namespace QuotePress

/-- The numerals of a number: its digits, behind any zeros and maybe a plus sign. -/
def IsNumeral (n : Nat) (text : String) : Prop :=
  ∃ sign zeros, (sign = [] ∨ sign = ['+']) ∧
    text.toList = sign ++ (List.replicate zeros '0' ++ Nat.toDigits 10 n)

namespace IsNumeral

def unsigned : List Char → List Char
  | '+' :: rest => rest
  | cs => cs

theorem unsigned_digits {ds : List Char} (hdigits : ∀ d ∈ ds, d.isDigit = true) :
    unsigned ds = ds := by
  rw [unsigned.eq_def]
  split
  · exact absurd (hdigits '+' List.mem_cons_self) (by decide)
  · rfl

theorem exists_sign (cs : List Char) :
    ∃ sign, (sign = [] ∨ sign = ['+']) ∧ cs = sign ++ unsigned cs := by
  rw [unsigned.eq_def]
  split
  · exact ⟨['+'], Or.inr rfl, rfl⟩
  · exact ⟨[], Or.inl rfl, rfl⟩

theorem iff_digits {n : Nat} {text : String} : IsNumeral n text ↔
    unsigned text.toList ≠ [] ∧ (∀ d ∈ unsigned text.toList, d.isDigit = true) ∧
      Decimal.ofDigits (unsigned text.toList) = n := by
  constructor
  · rintro ⟨sign, zeros, hsign, htext⟩
    have hdigits := Decimal.isDigit_zeros zeros n
    have hunsigned : unsigned text.toList = List.replicate zeros '0' ++ Nat.toDigits 10 n := by
      rw [htext]
      rcases hsign with rfl | rfl
      · exact unsigned_digits hdigits
      · rfl
    rw [hunsigned]
    refine ⟨?_, hdigits, Decimal.ofDigits_zeros zeros n⟩
    exact List.append_ne_nil_of_right_ne_nil _ Nat.toDigits_ne_nil
  · rintro ⟨hne, hdigits, rfl⟩
    obtain ⟨sign, hsign, htext⟩ := exists_sign text.toList
    obtain ⟨zeros, hzeros⟩ := Decimal.exists_zeros hne hdigits
    exact ⟨sign, zeros, hsign, hzeros ▸ htext⟩

end IsNumeral

theorem readWord?_eq (text : String) : readWord? text =
    let ds := IsNumeral.unsigned text.toList
    if ds.isEmpty ∨ !ds.all Char.isDigit then none
    else if Decimal.ofDigits ds < UInt32.size then some (UInt32.ofNat (Decimal.ofDigits ds))
    else none := rfl

/-- Words are read from their numerals and from nothing else. -/
theorem readWord?_eq_some_iff {text : String} {word : UInt32} :
    readWord? text = some word ↔ IsNumeral word.toNat text := by
  rw [IsNumeral.iff_digits, readWord?_eq]
  dsimp only
  by_cases hdigits : (IsNumeral.unsigned text.toList).isEmpty ∨
      !(IsNumeral.unsigned text.toList).all Char.isDigit
  · rw [if_pos hdigits]
    refine iff_of_false nofun ?_
    rintro ⟨hne, hall, -⟩
    rcases hdigits with hempty | hnone
    · exact hne (List.isEmpty_iff.1 hempty)
    · rw [List.all_eq_true.2 hall] at hnone
      exact absurd hnone (by decide)
  · rw [if_neg hdigits]
    rw [not_or, List.isEmpty_iff, Bool.not_eq_true', Bool.not_eq_false, List.all_eq_true] at hdigits
    obtain ⟨hne, hall⟩ := hdigits
    split
    · rename_i hsize
      constructor
      · intro hword
        cases hword
        exact ⟨hne, hall, (UInt32.toNat_ofNat_of_lt' hsize).symm⟩
      · rintro ⟨-, -, hvalue⟩
        rw [hvalue, UInt32.ofNat_toNat]
    · rename_i hsize
      refine iff_of_false nofun ?_
      rintro ⟨-, -, hvalue⟩
      exact hsize (hvalue ▸ word.toNat_lt)

theorem IsNumeral.ne_of_unread {text word : String} {n : UInt32} (h : IsNumeral n.toNat text)
    (hword : readWord? word = none) : text ≠ word := by
  rintro rfl
  rw [readWord?_eq_some_iff.2 h] at hword
  cases hword

namespace Fallback

/-- The texts that name a choice: words, and the numerals of the versions that are shipped. -/
inductive Named : String → Fallback → Prop where
  | latest : Named "latest" .latest
  | disabled : Named "disabled" .disabled
  | none : Named "none" .disabled
  | version {text : String} {version : UInt32} (hnumeral : IsNumeral version.toNat text)
      (hshipped : version ∈ ShippedTemplate.versions) : Named text (.pinned version)

theorem isSome_pinned_iff {version : UInt32} :
    (pinned version).template?.isSome = true ↔ version ∈ ShippedTemplate.versions := by
  rw [Option.isSome_iff_ne_none, ne_eq, ServiceChange.template?_eq_none_iff]
  simp

/-- Choices are taken by their names and by nothing else. -/
theorem ofChoice_eq_ok_iff {text : String} {f : Fallback} :
    ofChoice text = .ok f ↔ Named text f := by
  constructor
  · intro h
    unfold ofChoice at h
    split at h
    · subst text
      cases h
      exact .latest
    split at h
    · rename_i hword
      cases h
      rcases hword with rfl | rfl
      · exact .disabled
      · exact .none
    split at h
    · cases h
    · rename_i version hread
      split at h
      · rename_i hshipped
        cases h
        exact .version (readWord?_eq_some_iff.1 hread) (isSome_pinned_iff.1 hshipped)
      · cases h
  · rintro (_ | _ | _ | ⟨hnumeral, hshipped⟩)
    · rfl
    · rfl
    · rfl
    · have hlatest : text ≠ "latest" := hnumeral.ne_of_unread (by decide)
      have hnone : ¬ (text = "disabled" ∨ text = "none") :=
        not_or.2 ⟨hnumeral.ne_of_unread (by decide), hnumeral.ne_of_unread (by decide)⟩
      rw [ofChoice, if_neg hlatest, if_neg hnone, readWord?_eq_some_iff.2 hnumeral]
      dsimp only
      rw [if_pos (isSome_pinned_iff.2 hshipped)]

theorem Named.template?_eq_none_iff {text : String} {f : Fallback} (h : Named text f) :
    f.template? = Option.none ↔ text = "disabled" ∨ text = "none" := by
  cases h with
  | latest => exact iff_of_false nofun (by decide)
  | disabled => exact iff_of_true rfl (Or.inl rfl)
  | none => exact iff_of_true rfl (Or.inr rfl)
  | version hnumeral hshipped =>
    refine iff_of_false ?_ (not_or.2 ⟨?_, ?_⟩)
    · exact Option.isSome_iff_ne_none.1 (isSome_pinned_iff.2 hshipped)
    · exact hnumeral.ne_of_unread (by decide)
    · exact hnumeral.ne_of_unread (by decide)

end Fallback

namespace FileStore

theorem read_ne_noTemplate (directory : Path) (tenant : String) (t : FileTree) :
    read directory tenant t ≠ .error .noTemplate := by
  cases htenant : isTenant tenant with
  | false =>
    rw [read_invalid htenant]
    nofun
  | true =>
    rw [read_valid htenant]
    split
    · split
      · nofun
      · rename_i text _
        cases Json.decode StoredTemplate.decoder text <;> nofun
    · nofun

end FileStore

namespace Service

/-- A tenant is looked up, and has no template of its own but maybe a blank one. -/
def Bare (service : Service FileStore) (tenant : String) (t : FileTree) : Prop :=
  ∃ found, FileStore.read service.store.directory tenant t = .ok found ∧
    ∀ template, found = some template → Text.isBlank template.source = true

theorem resolve_answer (service : Service FileStore) (tenant : String) (t : FileTree) :
    ((service.resolve tenant : StateM FileTree _) t).1 =
      (FileStore.read service.store.directory tenant t).bind fun found =>
        chosen service.settings (found.map StoredTemplate.source) := by
  rw [resolve_eq_chosen, run_bind]
  rfl

theorem fallback_eq_noTemplate_iff {settings : Settings} :
    fallback settings = .error .noTemplate ↔ settings.fallback.template? = none := by
  rw [fallback]
  cases settings.fallback.template? with
  | none => exact iff_of_true rfl rfl
  | some template =>
    constructor
    · intro h
      cases h
    · intro h
      cases h

theorem chosen_eq_noTemplate_iff {settings : Settings} {kept : Option String} :
    chosen settings kept = .error .noTemplate ↔
      (∀ source, kept = some source → Text.isBlank source = true) ∧
        settings.fallback.template? = none := by
  rw [← fallback_eq_noTemplate_iff]
  cases kept with
  | none =>
    refine (and_iff_right ?_).symm
    intro source h
    cases h
  | some source =>
    rw [chosen]
    by_cases hblank : Text.isBlank source = true
    · rw [if_pos hblank]
      refine (and_iff_right ?_).symm
      rintro _ ⟨⟩
      exact hblank
    · rw [if_neg hblank]
      constructor
      · intro h
        cases h
      · rintro ⟨hbare, -⟩
        exact absurd (hbare source rfl) hblank

theorem resolve_noTemplate_iff {service : Service FileStore} {tenant : String} {t : FileTree} :
    ((service.resolve tenant : StateM FileTree _) t).1 = .error .noTemplate ↔
      service.Bare tenant t ∧ service.settings.fallback.template? = none := by
  rw [resolve_answer, Bare]
  cases hread : FileStore.read service.store.directory tenant t with
  | error e =>
    constructor
    · rintro ⟨⟩
      exact (FileStore.read_ne_noTemplate _ _ _ hread).elim
    · rintro ⟨⟨_, ⟨⟩, -⟩, -⟩
  | ok found =>
    refine chosen_eq_noTemplate_iff.trans (and_congr_left fun _ => ?_)
    constructor
    · intro hbare
      refine ⟨found, rfl, ?_⟩
      rintro template rfl
      exact hbare template.source rfl
    · rintro ⟨_, ⟨⟩, hbare⟩ source hsource
      obtain ⟨template, hfound, rfl⟩ := Option.map_eq_some_iff.1 hsource
      exact hbare template hfound

end Service

namespace Program

variable {config : Config} {settings : Settings} {t : FileTree} {choice : String}

theorem setDefault_taken {f : Fallback} (htakes : t.Takes (settingsFile config))
    (hnamed : Fallback.Named (Text.trim choice) f) : ∃ u,
      ((holding config settings).setDefault choice : StateM FileTree _) t =
        ((.ok ("Default template set to " ++ Text.trim choice),
          holding config { settings with fallback := f }), u) ∧
      u.readText (settingsFile config) =
        .ok (Settings.toJson { settings with fallback := f }).pretty := by
  have hfile : t.Takes
      (SettingsManager.mk config.dataDirectory { settings with fallback := f }).file := htakes
  obtain ⟨u, hsave, htext⟩ := SettingsManager.save_taken hfile
  refine ⟨u, setDefault_saved (Fallback.ofChoice_eq_ok_iff.2 hnamed) ?_, htext⟩
  rw [SettingsManager.update_eq_save, hsave]

theorem setDefault_rejected (hnone : ∀ f, ¬ Fallback.Named (Text.trim choice) f) (p : Program) :
    ∃ fault, (p.setDefault choice : StateM FileTree _) t = ((.error fault, p), t) := by
  cases hchoice : Fallback.ofChoice (Text.trim choice) with
  | ok f => exact absurd (Fallback.ofChoice_eq_ok_iff.1 hchoice) (hnone f)
  | error fault =>
    refine ⟨fault, ?_⟩
    rw [setDefault, hchoice]
    rfl

/-- Where the file of the settings can be written, a choice is taken if and only if it is the name of
one. Then the settings that were loaded, with this choice, are in the file, in the manager and in the
service, and so are they after a restart; a tenant without a template of its own is left without any
only if the choice is to have none. A choice that is not taken leaves the program and the files as
they are. -/
theorem setDefault_chosen (config : Config) (choice : String) (t : FileTree)
    (htakes : t.Takes (settingsFile config)) :
    let p := ((load config : StateM FileTree _) t).1
    let asked := Text.trim choice
    ((∃ line, ((p.setDefault choice : StateM FileTree _) t).1.1 = .ok line) ↔
      ∃ f, Fallback.Named asked f) ∧
    (∀ f, Fallback.Named asked f → ∃ q u text,
      let settings := { p.settings.current with fallback := f }
      (p.setDefault choice : StateM FileTree _) t =
          ((.ok ("Default template set to " ++ asked), q), u) ∧
        u.readText (settingsFile config) = .ok text ∧ Settings.read text = .ok settings ∧
        q.settings.current = settings ∧ q.service.settings = settings ∧
        (load config : StateM FileTree _) u = (q, u) ∧
        ∀ tenant, ((q.service.resolve tenant : StateM FileTree _) u).1 = .error .noTemplate ↔
          q.service.Bare tenant u ∧ (asked = "disabled" ∨ asked = "none")) ∧
    ((∀ f, ¬ Fallback.Named asked f) →
      ∃ fault, (p.setDefault choice : StateM FileTree _) t = ((.error fault, p), t)) := by
  intro p asked
  have hp : p = holding config (Settings.inFile (settingsFile config) t) :=
    congrArg Prod.fst (load_run config t)
  refine ⟨⟨?_, ?_⟩, ?_, fun hnone => setDefault_rejected hnone p⟩
  · rintro ⟨line, hline⟩
    by_contra hnone
    obtain ⟨fault, hrejected⟩ := setDefault_rejected (not_exists.1 hnone) p
    rw [hrejected] at hline
    cases hline
  · rintro ⟨f, hnamed⟩
    obtain ⟨u, hrun, -⟩ := setDefault_taken htakes hnamed
    rw [hp, hrun]
    exact ⟨_, rfl⟩
  · intro f hnamed
    obtain ⟨u, hrun, htext⟩ := setDefault_taken htakes hnamed
    rw [hp]
    refine ⟨_, u, _, hrun, htext, Settings.read_pretty _, rfl, rfl, ?_, fun tenant => ?_⟩
    · rw [load_run, Settings.inFile_pretty htext]
    · rw [Service.resolve_noTemplate_iff]
      exact and_congr_right fun _ => hnamed.template?_eq_none_iff

/-- A shipped version is chosen by a numeral with a sign and zeros, and the currency stays. -/
theorem setDefault_chosen_numeral :
    let config : Config := ⟨⟨"data"⟩, "acme"⟩
    let t : FileTree := ⟨[("data", .directory
      [("document_settings.json", .file "\x7b\"currency_symbol\": \"US$\"\x7d".toUTF8)])]⟩
    let p := ((load config : StateM FileTree _) t).1
    t.Takes (settingsFile config) ∧ ∃ q u,
      (p.setDefault " +002\n" : StateM FileTree _) t =
        ((.ok "Default template set to +002", q), u) ∧
      (load config : StateM FileTree _) u = (q, u) ∧
      q.settings.current = ⟨.pinned 2, "US$", []⟩ := by
  intro config t p
  have htakes : t.Takes (settingsFile config) := by decide +kernel
  have hloaded : p.settings.current = ⟨.latest, "US$", []⟩ := by decide +kernel
  have hnamed : Fallback.Named (Text.trim " +002\n") (.pinned 2) :=
    .version ⟨['+'], 2, Or.inr rfl, by decide⟩ (by decide)
  obtain ⟨q, u, -, hrun, -, -, hheld, -, hload, -⟩ :=
    (setDefault_chosen config " +002\n" t htakes).2.1 _ hnamed
  refine ⟨htakes, q, u, hrun, hload, ?_⟩
  rw [hheld, hloaded]

end Program

end QuotePress
