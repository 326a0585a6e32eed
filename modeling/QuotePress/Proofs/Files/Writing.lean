import QuotePress.Files.FileTree

/-! # What is written is read back

A write changes one file and no directory, so the path of the file leads to the same place before
and after it. -/
namespace QuotePress

theorem bind_eq_ok_iff {ε α β : Type} {x : Except ε α} {f : α → Except ε β} {b : β} :
    x >>= f = .ok b ↔ ∃ a, x = .ok a ∧ f a = .ok b := by
  cases x with
  | error e => simp [bind, Except.bind]
  | ok a => simp [bind, Except.bind]

theorem ok_of_toOption {ε α : Type} {x : Except ε α} {a : α} (h : x.toOption = some a) :
    x = .ok a := by
  cases x with
  | error e => cases h
  | ok b =>
    cases h
    rfl

namespace Entry

@[simp]
theorem find?_put (name other : String) (entry : Entry) (entries : List (String × Entry)) :
    find? other (put name entry entries) =
      if other = name then some entry else find? other entries := by
  induction entries with
  | nil => simp [put, find?]
  | cons first rest ih => grind [put, find?]

end Entry

namespace FileTree

variable {α : Type} {change : List (String × Entry) → Except FileFault (α × List (String × Entry))}

theorem lookup_append (names more : List String) (entry : Entry) :
    lookup (names ++ more) entry = lookup names entry >>= lookup more := by
  induction names generalizing entry with
  | nil => rfl
  | cons name names ih =>
    cases entry with
    | file bytes => rfl
    | directory entries =>
      simp only [List.cons_append, lookup]
      split
      · split
        · exact ih _
        · rfl
      · rfl

theorem lookup_cons_iff {name : String} {names : List String} {entries : List (String × Entry)}
    {found : Entry} : lookup (name :: names) (.directory entries) = .ok found ↔
      isFileName name = true ∧
        ∃ entry, Entry.find? name entries = some entry ∧ lookup names entry = .ok found := by
  simp only [lookup]
  split
  · split
    · simp_all
    · simp_all
  · simp_all

theorem modifyAt_cons_iff {name : String} {names : List String}
    {entries changed : List (String × Entry)} {a : α} :
    modifyAt change (name :: names) entries = .ok (a, changed) ↔
      isFileName name = true ∧ ∃ inner next,
        Entry.find? name entries = some (.directory inner) ∧
        modifyAt change names inner = .ok (a, next) ∧
        changed = Entry.put name (.directory next) entries := by
  constructor
  · intro h
    rw [modifyAt] at h
    split at h
    · rename_i hname
      split at h
      · rename_i inner hfind
        obtain ⟨⟨b, next⟩, hbelow, hmade⟩ := bind_eq_ok_iff.1 h
        cases hmade
        exact ⟨hname, inner, next, hfind, hbelow, rfl⟩
      · cases h
      · cases h
    · cases h
  · rintro ⟨hname, inner, next, hfind, hbelow, rfl⟩
    rw [modifyAt, if_pos hname, hfind]
    exact bind_eq_ok_iff.2 ⟨_, hbelow, rfl⟩

/-- The change happens in the directory that the names lead to. -/
theorem lookup_modifyAt {names : List String} {entries changed : List (String × Entry)} {a : α}
    (h : modifyAt change names entries = .ok (a, changed)) :
    ∃ inner next, change inner = .ok (a, next) ∧
      lookup names (.directory entries) = .ok (.directory inner) ∧
      lookup names (.directory changed) = .ok (.directory next) := by
  induction names generalizing entries changed with
  | nil => exact ⟨entries, changed, h, rfl, rfl⟩
  | cons name names ih =>
    obtain ⟨hname, inner, next, hfind, hbelow, rfl⟩ := modifyAt_cons_iff.1 h
    obtain ⟨place, after, hchange, hbefore, hafter⟩ := ih hbelow
    refine ⟨place, after, hchange, lookup_cons_iff.2 ⟨hname, .directory inner, hfind, hbefore⟩,
      lookup_cons_iff.2 ⟨hname, .directory next, ?_, hafter⟩⟩
    rw [Entry.find?_put, if_pos rfl]

/-- A change that can be made in a directory can be made where the names lead to it. -/
theorem modifyAt_of_lookup {names : List String} {entries inner next : List (String × Entry)} {a : α}
    (hlookup : lookup names (.directory entries) = .ok (.directory inner))
    (hchange : change inner = .ok (a, next)) :
    ∃ changed, modifyAt change names entries = .ok (a, changed) := by
  induction names generalizing entries with
  | nil =>
    cases hlookup
    exact ⟨next, hchange⟩
  | cons name names ih =>
    obtain ⟨hname, entry, hfind, hrest⟩ := lookup_cons_iff.1 hlookup
    cases entry with
    | file bytes => cases names <;> cases hrest
    | directory below =>
      obtain ⟨changed, hbelow⟩ := ih hrest
      exact ⟨_, modifyAt_cons_iff.2 ⟨hname, below, changed, hfind, hbelow, rfl⟩⟩

def IsDirectory (names : List String) (entries : List (String × Entry)) : Prop :=
  ∃ inner, lookup names (.directory entries) = .ok (.directory inner)

theorem isDirectory_cons_iff {name : String} {names : List String}
    {entries : List (String × Entry)} : IsDirectory (name :: names) entries ↔
      isFileName name = true ∧ ∃ inner,
        Entry.find? name entries = some (.directory inner) ∧ IsDirectory names inner := by
  constructor
  · rintro ⟨found, h⟩
    obtain ⟨hname, entry, hfind, h⟩ := lookup_cons_iff.1 h
    cases entry with
    | directory inner => exact ⟨hname, inner, hfind, found, h⟩
    | file bytes => cases names <;> cases h
  · rintro ⟨hname, inner, hfind, found, h⟩
    exact ⟨found, lookup_cons_iff.2 ⟨hname, .directory inner, hfind, h⟩⟩

/-- Every directory is kept, and so is every file that is spared. -/
structure Keeps (spared : List String → Prop) (entries changed : List (String × Entry)) :
    Prop where
  directories : ∀ names, IsDirectory names entries → IsDirectory names changed
  files : ∀ names, spared names → ∀ bytes,
    lookup names (.directory changed) = .ok (.file bytes) ↔
      lookup names (.directory entries) = .ok (.file bytes)

theorem Keeps.refl {spared : List String → Prop} (entries : List (String × Entry)) :
    Keeps spared entries entries :=
  ⟨fun _ h => h, fun _ _ _ => Iff.rfl⟩

theorem Keeps.mono {spared fewer : List String → Prop} {entries changed : List (String × Entry)}
    (h : Keeps spared entries changed) (hfewer : ∀ names, fewer names → spared names) :
    Keeps fewer entries changed :=
  ⟨h.directories, fun names hnames => h.files names (hfewer names hnames)⟩

theorem Keeps.trans {spared : List String → Prop} {entries next changed : List (String × Entry)}
    (h : Keeps spared entries next) (h' : Keeps spared next changed) :
    Keeps spared entries changed :=
  ⟨fun names hdir => h'.directories names (h.directories names hdir),
    fun names hspared bytes => (h'.files names hspared bytes).trans (h.files names hspared bytes)⟩

/-- A change keeps what it keeps in its own place, and everything elsewhere. -/
theorem keeps_modifyAt {spared : List String → Prop} {place : List String}
    {entries changed : List (String × Entry)} {a : α}
    (h : modifyAt change place entries = .ok (a, changed))
    (hchange : ∀ inner next, change inner = .ok (a, next) → Keeps spared inner next) :
    Keeps (fun names => ∀ rest, names = place ++ rest → spared rest) entries changed := by
  induction place generalizing entries changed with
  | nil =>
    have hkeeps := hchange _ _ h
    exact ⟨hkeeps.directories, fun names hspared => hkeeps.files names (hspared names rfl)⟩
  | cons first place ih =>
    obtain ⟨hfirst, inner, next, hplace, hbelow, rfl⟩ := modifyAt_cons_iff.1 h
    have hkeeps := ih hbelow
    have hsame : Entry.find? first (Entry.put first (.directory next) entries) =
        some (.directory next) := by
      rw [Entry.find?_put, if_pos rfl]
    have hother {name : String} (hname : name ≠ first) :
        Entry.find? name (Entry.put first (.directory next) entries) =
          Entry.find? name entries := by
      rw [Entry.find?_put, if_neg hname]
    constructor
    · intro names hdir
      cases names with
      | nil => exact ⟨_, rfl⟩
      | cons name names =>
        obtain ⟨hname, found, hfind, hdir⟩ := isDirectory_cons_iff.1 hdir
        by_cases hcase : name = first
        · subst hcase
          cases hfind.symm.trans hplace
          exact isDirectory_cons_iff.2 ⟨hname, next, hsame, hkeeps.directories names hdir⟩
        · exact isDirectory_cons_iff.2 ⟨hname, found, (hother hcase).trans hfind, hdir⟩
    · intro names hspared bytes
      cases names with
      | nil => exact ⟨nofun, nofun⟩
      | cons name names =>
        rw [lookup_cons_iff, lookup_cons_iff]
        by_cases hcase : name = first
        · subst hcase
          have hfiles := hkeeps.files names
            (fun rest hrest => hspared rest (congrArg (name :: ·) hrest)) bytes
          simp only [hsame, hplace, Option.some.injEq, exists_eq_left', hfiles]
        · rw [hother hcase]

/-- A change of the entry of one name keeps everything else, if that entry is no directory before
and holds nothing after. -/
theorem keeps_of_find? {name : String} {entries changed : List (String × Entry)}
    (hother : ∀ other, other ≠ name → Entry.find? other changed = Entry.find? other entries)
    (hbefore : ∀ inner, Entry.find? name entries ≠ some (.directory inner))
    (hafter : ∀ inner, Entry.find? name changed = some (.directory inner) → inner = []) :
    Keeps (· ≠ [name]) entries changed := by
  constructor
  · intro names hdir
    cases names with
    | nil => exact ⟨_, rfl⟩
    | cons first names =>
      obtain ⟨hfirst, found, hfind, hdir⟩ := isDirectory_cons_iff.1 hdir
      have hne : first ≠ name := by
        rintro rfl
        exact hbefore found hfind
      exact isDirectory_cons_iff.2 ⟨hfirst, found, (hother first hne).trans hfind, hdir⟩
  · intro names hspared bytes
    match names with
    | [] => exact ⟨nofun, nofun⟩
    | [only] =>
      have hne : only ≠ name := fun hsame => hspared (congrArg ([·]) hsame)
      rw [lookup_cons_iff, lookup_cons_iff, hother only hne]
    | first :: second :: names =>
      by_cases hcase : first = name
      · subst hcase
        have hnothing {entry : Entry} (hentry : ∀ inner, entry = .directory inner → inner = []) :
            lookup (second :: names) entry ≠ .ok (.file bytes) := by
          cases entry with
          | file bytes => exact nofun
          | directory inner =>
            cases hentry inner rfl
            rw [lookup]
            split
            · exact nofun
            · exact nofun
        rw [lookup_cons_iff, lookup_cons_iff]
        constructor
        · rintro ⟨-, entry, hfind, h⟩
          refine absurd h (hnothing ?_)
          rintro inner rfl
          exact hafter inner hfind
        · rintro ⟨-, entry, hfind, h⟩
          refine absurd h (hnothing ?_)
          rintro inner rfl
          exact absurd hfind (hbefore inner)
      · rw [lookup_cons_iff, lookup_cons_iff, hother first hcase]

/-- Where directories stay directories, paths lead to where they led. -/
theorem resolve_kept {t changed : FileTree}
    (hkeep : ∀ names, IsDirectory names t.entries → IsDirectory names changed.entries)
    {parts names found : List String} (h : t.resolve parts names = .ok found) :
    changed.resolve parts names = .ok found := by
  induction parts generalizing names with
  | nil => exact h
  | cons part parts ih =>
    rw [resolve] at h ⊢
    split at h
    · rename_i hup
      rw [if_pos hup]
      split at h
      · rename_i inner hdir
        obtain ⟨next, hnext⟩ := hkeep names ⟨inner, hdir⟩
        rw [hnext]
        exact ih h
      · cases h
      · cases h
    · rename_i hdown
      rw [if_neg hdown]
      exact ih h

theorem names_kept {t changed : FileTree} {p : Path} {found : List String}
    (hkeep : ∀ names, IsDirectory names t.entries → IsDirectory names changed.entries)
    (h : t.names p = .ok found) : changed.names p = .ok found := by
  rw [names] at h ⊢
  split at h
  · cases h
  split at h
  · cases h
  rw [if_neg ‹_›, if_neg ‹_›]
  exact resolve_kept hkeep h

theorem modifyParent_ok_iff {t changed : FileTree} {p : Path} {a : α}
    {change : String → List (String × Entry) → Except FileFault (α × List (String × Entry))} :
    t.modifyParent p change = .ok (a, changed) ↔
      p.namesDirectory = false ∧ ∃ above name entries, t.names p = .ok (above ++ [name]) ∧
        modifyAt (change name) above t.entries = .ok (a, entries) ∧ changed = ⟨entries⟩ := by
  constructor
  · intro h
    obtain ⟨names, hnames, h⟩ := bind_eq_ok_iff.1 h
    split at h
    · cases h
    · rename_i name hname
      obtain ⟨above, rfl⟩ := List.getLast?_eq_some_iff.1 hname
      split at h
      · cases h
      · rename_i hfile
        obtain ⟨⟨b, entries⟩, hplace, hmade⟩ := bind_eq_ok_iff.1 h
        cases hmade
        rw [List.dropLast_concat] at hplace
        exact ⟨by simpa using hfile, above, name, entries, hnames, hplace, rfl⟩
  · rintro ⟨hfile, above, name, entries, hnames, hplace, rfl⟩
    refine bind_eq_ok_iff.2 ⟨_, hnames, ?_⟩
    rw [List.getLast?_concat, List.dropLast_concat, hfile]
    exact bind_eq_ok_iff.2 ⟨_, hplace, rfl⟩

def putFile (bytes : ByteArray) (name : String) (entries : List (String × Entry)) :
    Except FileFault (Unit × List (String × Entry)) :=
  if isFileName name then
    match Entry.find? name entries with
    | some (.directory _) => .error .isADirectory
    | _ => .ok ((), Entry.put name (.file bytes) entries)
  else .error .badName

theorem writeBytes_eq (t : FileTree) (p : Path) (bytes : ByteArray) :
    t.writeBytes p bytes = t.modifyParent p (putFile bytes) := rfl

theorem putFile_ok_iff {bytes : ByteArray} {name : String}
    {entries changed : List (String × Entry)} {a : Unit} :
    putFile bytes name entries = .ok (a, changed) ↔ isFileName name = true ∧
      (∀ inner, Entry.find? name entries ≠ some (.directory inner)) ∧
      changed = Entry.put name (.file bytes) entries := by
  rw [putFile]
  split
  · rename_i hname
    split
    · rename_i inner hfind
      constructor
      · intro h
        cases h
      · rintro ⟨-, hfree, -⟩
        exact absurd hfind (hfree inner)
    · rename_i hfree
      constructor
      · intro h
        cases h
        exact ⟨hname, hfree, rfl⟩
      · rintro ⟨-, -, rfl⟩
        rfl
  · rename_i hname
    constructor
    · intro h
      cases h
    · rintro ⟨h, -, -⟩
      exact absurd h hname

theorem writeBytes_other {t written : FileTree} {p : Path} {bytes : ByteArray}
    (h : t.writeBytes p bytes = .ok ((), written)) (other : ByteArray) :
    ∃ changed, t.writeBytes p other = .ok ((), changed) := by
  rw [writeBytes_eq] at h
  obtain ⟨hfile, above, name, entries, hnames, hplace, rfl⟩ := modifyParent_ok_iff.1 h
  obtain ⟨inner, next, hput, hlookup, -⟩ := lookup_modifyAt hplace
  obtain ⟨hname, hfree, -⟩ := putFile_ok_iff.1 hput
  obtain ⟨changed, hchanged⟩ := modifyAt_of_lookup hlookup
    (putFile_ok_iff.2 ⟨hname, hfree, rfl⟩ : putFile other name inner = .ok ((), _))
  refine ⟨⟨changed⟩, ?_⟩
  rw [writeBytes_eq]
  exact modifyParent_ok_iff.2 ⟨hfile, above, name, changed, hnames, hchanged, rfl⟩

theorem keeps_putFile {bytes : ByteArray} {name : String} {entries changed : List (String × Entry)}
    {a : Unit} (h : putFile bytes name entries = .ok (a, changed)) :
    Keeps (· ≠ [name]) entries changed := by
  obtain ⟨-, hfree, rfl⟩ := putFile_ok_iff.1 h
  refine keeps_of_find? (fun other hother => ?_) hfree (fun inner hinner => ?_)
  · rw [Entry.find?_put, if_neg hother]
  · rw [Entry.find?_put, if_pos rfl] at hinner
    cases hinner

theorem at?_writeBytes {t written : FileTree} {p : Path} {bytes : ByteArray}
    (h : t.writeBytes p bytes = .ok ((), written)) : written.at? p = .ok (.file bytes) := by
  rw [writeBytes_eq] at h
  obtain ⟨hfile, above, name, entries, hnames, hplace, rfl⟩ := modifyParent_ok_iff.1 h
  have hkeep := (keeps_modifyAt hplace fun _ _ hput => keeps_putFile hput).directories
  obtain ⟨inner, next, hput, -, hlookup⟩ := lookup_modifyAt hplace
  obtain ⟨hname, -, rfl⟩ := putFile_ok_iff.1 hput
  have hfound : lookup (above ++ [name]) (.directory entries) = .ok (.file bytes) := by
    rw [lookup_append]
    refine bind_eq_ok_iff.2 ⟨_, hlookup, lookup_cons_iff.2 ⟨hname, .file bytes, ?_, rfl⟩⟩
    rw [Entry.find?_put, if_pos rfl]
  refine bind_eq_ok_iff.2 ⟨_, names_kept hkeep hnames, bind_eq_ok_iff.2 ⟨_, hfound, ?_⟩⟩
  rw [hfile]
  rfl

theorem fromUTF8?_toUTF8 (s : String) : String.fromUTF8? s.toUTF8 = some s :=
  dif_pos s.isValidUTF8

/-- What is written is read back. -/
theorem readText_writeBytes {t written : FileTree} {p : Path} {s : String}
    (h : t.writeBytes p s.toUTF8 = .ok ((), written)) : written.readText p = .ok s := by
  refine bind_eq_ok_iff.2 ⟨_, at?_writeBytes h, ?_⟩
  dsimp only
  rw [fromUTF8?_toUTF8]
  rfl

end FileTree

end QuotePress
