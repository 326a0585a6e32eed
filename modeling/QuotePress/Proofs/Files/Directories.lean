import QuotePress.Proofs.Files.Frames

/-! # Making directories

Making directories adds empty directories and nothing else. Once a directory is made it is there, as
long as no directory is taken away, and making it again changes nothing. -/
namespace QuotePress

theorem Entry.put_same {name : String} {entry : Entry} {entries : List (String × Entry)}
    (h : find? name entries = some entry) : put name entry entries = entries := by
  induction entries with
  | nil => cases h
  | cons first rest ih =>
    obtain ⟨other, old⟩ := first
    rw [find?] at h
    rw [put]
    split
    · rename_i hsame
      rw [if_pos hsame] at h
      cases h
      rw [hsame]
    · rename_i hother
      rw [if_neg hother] at h
      rw [ih h]

namespace FileTree

variable {t made changed : FileTree} {above : List String} {name : String}
  {spared : List String → Prop}

theorem modifyAt_same {α : Type}
    {change : List (String × Entry) → Except FileFault (α × List (String × Entry))}
    {place : List String} {entries inner : List (String × Entry)} {a : α}
    (hplace : lookup place (.directory entries) = .ok (.directory inner))
    (hchange : change inner = .ok (a, inner)) :
    modifyAt change place entries = .ok (a, entries) := by
  induction place generalizing entries with
  | nil =>
    cases hplace
    exact hchange
  | cons first place ih =>
    obtain ⟨hfirst, found, hfind, hdir⟩ := isDirectory_cons_iff.1 ⟨inner, hplace⟩
    obtain ⟨-, entry, hentry, hlookup⟩ := lookup_cons_iff.1 hplace
    cases hfind.symm.trans hentry
    exact modifyAt_cons_iff.2 ⟨hfirst, found, found, hfind, ih hlookup, (Entry.put_same hfind).symm⟩

theorem isDirectory_concat_iff {names : List String} {entries : List (String × Entry)} :
    IsDirectory (names ++ [name]) entries ↔ ∃ inner,
      lookup names (.directory entries) = .ok (.directory inner) ∧ isFileName name = true ∧
        ∃ found, Entry.find? name inner = some (.directory found) := by
  constructor
  · rintro ⟨found, h⟩
    rw [lookup_append] at h
    obtain ⟨entry, hlookup, h⟩ := bind_eq_ok_iff.1 h
    cases entry with
    | file bytes => cases h
    | directory inner =>
      obtain ⟨hname, entry, hfind, h⟩ := lookup_cons_iff.1 h
      cases h
      exact ⟨inner, hlookup, hname, found, hfind⟩
  · rintro ⟨inner, hlookup, hname, found, hfind⟩
    refine ⟨found, ?_⟩
    rw [lookup_append]
    exact bind_eq_ok_iff.2 ⟨_, hlookup, lookup_cons_iff.2 ⟨hname, _, hfind, rfl⟩⟩

theorem addDirectory_ok {entries next : List (String × Entry)} {a : Unit}
    (h : addDirectory name entries = .ok (a, next)) :
    next = entries ∧ (name = "." ∨ name = ".." ∨
        isFileName name = true ∧ ∃ found, Entry.find? name entries = some (.directory found)) ∨
      isFileName name = true ∧ Entry.find? name entries = none ∧
        next = Entry.put name (.directory []) entries := by
  rw [addDirectory] at h
  split at h
  · rename_i hpoint
    cases h
    exact Or.inl ⟨rfl, hpoint.elim Or.inl fun h => Or.inr (Or.inl h)⟩
  · split at h
    · rename_i hname
      split at h
      · rename_i found hfind
        cases h
        exact Or.inl ⟨rfl, Or.inr (Or.inr ⟨hname, found, hfind⟩)⟩
      · cases h
      · rename_i hfind
        cases h
        exact Or.inr ⟨hname, hfind, rfl⟩
    · cases h

theorem keeps_addDirectory {entries next : List (String × Entry)} {a : Unit}
    (h : addDirectory name entries = .ok (a, next)) : Keeps (fun _ => True) entries next := by
  rcases addDirectory_ok h with ⟨rfl, -⟩ | ⟨-, hfind, rfl⟩
  · exact Keeps.refl _
  · have hsame : Entry.find? name (Entry.put name (.directory []) entries) =
        some (.directory []) := by
      rw [Entry.find?_put, if_pos rfl]
    have hkeeps : Keeps (· ≠ [name]) entries (Entry.put name (.directory []) entries) := by
      refine keeps_of_find? (fun other hother => ?_) (fun inner hinner => ?_)
        (fun inner hinner => ?_)
      · rw [Entry.find?_put, if_neg hother]
      · cases hinner.symm.trans hfind
      · cases hinner.symm.trans hsame
        rfl
    refine ⟨hkeeps.directories, fun names _ bytes => ?_⟩
    by_cases hcase : names = [name]
    · subst hcase
      rw [lookup_cons_iff, lookup_cons_iff, hsame, hfind]
      exact iff_of_false (by simp [lookup]) (by simp)
    · exact hkeeps.files names hcase bytes

theorem makeDirectory_ok_iff : t.makeDirectory above name = .ok made ↔ ∃ names entries,
    t.resolve above [] = .ok names ∧
      modifyAt (addDirectory name) names t.entries = .ok ((), entries) ∧ made = ⟨entries⟩ := by
  constructor
  · intro h
    obtain ⟨names, hnames, h⟩ := bind_eq_ok_iff.1 h
    obtain ⟨⟨_, entries⟩, hentries, h⟩ := bind_eq_ok_iff.1 h
    cases h
    exact ⟨names, entries, hnames, hentries, rfl⟩
  · rintro ⟨names, entries, hnames, hentries, rfl⟩
    exact bind_eq_ok_iff.2 ⟨names, hnames, bind_eq_ok_iff.2 ⟨_, hentries, rfl⟩⟩

theorem keeps_makeDirectory (h : t.makeDirectory above name = .ok made) :
    Keeps (fun _ => True) t.entries made.entries := by
  obtain ⟨names, entries, -, hentries, rfl⟩ := makeDirectory_ok_iff.1 h
  have hkeeps := keeps_modifyAt hentries fun _ _ hadd => keeps_addDirectory hadd
  exact ⟨hkeeps.directories, fun names _ => hkeeps.files names fun _ _ => trivial⟩

def IsThere (t : FileTree) (above : List String) (name : String) : Prop :=
  ∃ names, t.resolve above [] = .ok names ∧ IsDirectory names t.entries ∧
    (name = "." ∨ name = ".." ∨ IsDirectory (names ++ [name]) t.entries)

theorem IsThere.kept (h : IsThere t above name) (hkeeps : Keeps spared t.entries changed.entries) :
    IsThere changed above name := by
  obtain ⟨names, hnames, hdir, hname⟩ := h
  exact ⟨names, resolve_kept hkeeps.directories hnames, hkeeps.directories _ hdir,
    hname.imp_right (Or.imp_right (hkeeps.directories _))⟩

theorem isThere_makeDirectory (h : t.makeDirectory above name = .ok made) :
    IsThere made above name := by
  have hkeeps := keeps_makeDirectory h
  obtain ⟨names, entries, hnames, hentries, rfl⟩ := makeDirectory_ok_iff.1 h
  obtain ⟨inner, next, hadd, -, hlookup⟩ := lookup_modifyAt hentries
  refine ⟨names, resolve_kept hkeeps.directories hnames, ⟨next, hlookup⟩, ?_⟩
  rcases addDirectory_ok hadd with ⟨rfl, hpoint | hpoints | ⟨hname, found, hfind⟩⟩ |
    ⟨hname, -, rfl⟩
  · exact Or.inl hpoint
  · exact Or.inr (Or.inl hpoints)
  · exact Or.inr (Or.inr (isDirectory_concat_iff.2 ⟨_, hlookup, hname, found, hfind⟩))
  · refine Or.inr (Or.inr (isDirectory_concat_iff.2 ⟨_, hlookup, hname, [], ?_⟩))
    rw [Entry.find?_put, if_pos rfl]

theorem IsThere.makeDirectory (h : IsThere t above name) : t.makeDirectory above name = .ok t := by
  obtain ⟨names, hnames, ⟨inner, hlookup⟩, hname⟩ := h
  have hadd : addDirectory name inner = .ok ((), inner) := by
    rw [addDirectory]
    rcases hname with hpoint | hpoints | hdir
    · rw [if_pos (Or.inl hpoint)]
    · rw [if_pos (Or.inr hpoints)]
    · obtain ⟨place, hplace, hname, found, hfind⟩ := isDirectory_concat_iff.1 hdir
      cases hlookup.symm.trans hplace
      split
      · rfl
      · rw [hfind]
  exact makeDirectory_ok_iff.2 ⟨names, t.entries, hnames, modifyAt_same hlookup hadd, rfl⟩

variable {makeAbove : FileTree → Except FileFault Unit × FileTree} {p : Path}

theorem keeps_ensureDirectory
    (hAbove : ∀ t : FileTree, Keeps (fun _ => True) t.entries (makeAbove t).2.entries) :
    Keeps (fun _ => True) t.entries (ensureDirectory above name makeAbove t).2.entries := by
  rw [ensureDirectory]
  split
  · rename_i made hmade
    exact keeps_makeDirectory hmade
  · have hkeeps := hAbove t
    split
    · rename_i f left hleft
      rw [hleft] at hkeeps
      exact hkeeps
    · rename_i left hleft
      rw [hleft] at hkeeps
      split
      · rename_i made hmade
        exact hkeeps.trans (keeps_makeDirectory hmade)
      · exact hkeeps
  · exact Keeps.refl _

theorem isThere_ensureDirectory (h : ensureDirectory above name makeAbove t = (.ok (), made)) :
    IsThere made above name := by
  rw [ensureDirectory] at h
  split at h
  · rename_i hmade
    cases h
    exact isThere_makeDirectory hmade
  · split at h
    · cases h
    · split at h
      · rename_i hmade
        cases h
        exact isThere_makeDirectory hmade
      · cases h
  · cases h

theorem IsThere.ensureDirectory (h : IsThere t above name) :
    FileTree.ensureDirectory above name makeAbove t = (.ok (), t) := by
  rw [FileTree.ensureDirectory, h.makeDirectory]

theorem keeps_ensureAll (back : List String) (t : FileTree) :
    Keeps (fun _ => True) t.entries (ensureAll back t).2.entries := by
  induction back generalizing t with
  | nil => exact Keeps.refl _
  | cons name above ih => exact keeps_ensureDirectory ih

/-- Whether or not a directory can be made, no file is made or lost. -/
theorem keeps_makeDirectories (t : FileTree) (p : Path) :
    Keeps (fun _ => True) t.entries (t.makeDirectories p).2.entries := by
  rw [makeDirectories]
  split
  · exact Keeps.refl _
  · split
    · exact Keeps.refl _
    · split
      · exact keeps_ensureDirectory (keeps_ensureAll _)
      · exact keeps_ensureAll _ t

/-- A directory that was made is not made again, as long as all directories are kept. -/
theorem makeDirectories_again (h : t.makeDirectories p = (.ok (), made))
    (hkeeps : Keeps spared made.entries changed.entries) :
    changed.makeDirectories p = (.ok (), changed) := by
  rw [makeDirectories] at h ⊢
  split at h
  · cases h
  · rw [if_neg ‹_›]
    split at h
    · cases h
    · rw [if_neg ‹_›]
      split at h
      · rw [if_pos ‹_›]
        exact ((isThere_ensureDirectory h).kept hkeeps).ensureDirectory
      · rw [if_neg ‹_›]
        cases hparts : p.parts.reverse with
        | nil => rfl
        | cons name above =>
          rw [hparts] at h
          exact ((isThere_ensureDirectory h).kept hkeeps).ensureDirectory

end FileTree

end QuotePress
