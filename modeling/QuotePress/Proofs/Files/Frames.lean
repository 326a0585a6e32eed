import QuotePress.Proofs.Files.Writing

/-! # Which files a change leaves alone

A path in a directory leads to the names of the directory and one name more. So two files of one
directory are told apart by their names, whatever the path of the directory is. -/
namespace QuotePress

theorem Entry.find?_drop (name other : String) (entries : List (String × Entry)) :
    find? other (drop name entries) = if other = name then none else find? other entries := by
  induction entries with
  | nil => simp [drop, find?]
  | cons first rest ih =>
    rw [drop] at ih ⊢
    grind [find?]

namespace Path

/-- A name that a file or a directory may have: one part of a path that is no point or two. -/
structure IsName (name : String) : Prop where
  slashless : '/' ∉ name.toList
  nonempty : name.toList ≠ []
  noPoint : name ≠ "."
  noPoints : name ≠ ".."

theorem isName_append {text ending : String} (htext : '/' ∉ text.toList)
    (hending : '/' ∉ ending.toList) (hlength : 2 < ending.toList.length) :
    IsName (text ++ ending) := by
  have hlong (short : String) (hshort : short.toList.length ≤ 2) : text ++ ending ≠ short := by
    rintro rfl
    rw [String.toList_append, List.length_append] at hshort
    omega
  refine ⟨?_, ?_, hlong "." (by decide), hlong ".." (by decide)⟩
  · rw [String.toList_append, List.mem_append, not_or]
    exact ⟨htext, hending⟩
  · intro hempty
    exact hlong "" (by decide) (String.toList_eq_nil_iff.1 hempty)

theorem splitSlash_ne_nil (cs : List Char) : splitSlash cs ≠ [] := by
  cases cs with
  | nil => simp [splitSlash]
  | cons c cs =>
    rw [splitSlash]
    split
    · simp
    · split <;> simp

theorem splitSlash_append (before after : List Char) :
    splitSlash (before ++ '/' :: after) = splitSlash before ++ splitSlash after := by
  induction before with
  | nil => rfl
  | cons c before ih =>
    rw [List.cons_append, splitSlash, splitSlash, ih]
    split
    · rfl
    · cases hsplit : splitSlash before with
      | nil => exact absurd hsplit (splitSlash_ne_nil before)
      | cons part parts => rfl

theorem splitSlash_name {cs : List Char} (h : '/' ∉ cs) : splitSlash cs = [cs] := by
  induction cs with
  | nil => rfl
  | cons c cs ih =>
    rw [List.mem_cons, not_or] at h
    rw [splitSlash, if_neg (Ne.symm h.1), ih h.2]

variable (dir : Path) {name : String}

/-- The parts of a path in a directory, and whether it ends like the path of a directory. -/
theorem splitSlash_join (h : IsName name) : ∃ front,
    splitSlash (dir.join name).text.toList = front ++ [name.toList] ∧
      front.filter (· ≠ []) = (splitSlash dir.text.toList).filter (· ≠ []) := by
  have hrelative : (Path.mk name).isAbsolute = false := by
    rw [isAbsolute, decide_eq_false_iff_not]
    intro hslash
    exact h.slashless (List.mem_of_head? hslash)
  rw [join, hrelative]
  by_cases hempty : dir.text.isEmpty = true
  · have hdir : dir.text = "" := String.isEmpty_iff.1 hempty
    refine ⟨[], ?_, ?_⟩
    · simp only [hempty, or_true, ↓reduceIte, List.nil_append, splitSlash_name h.slashless]
    · rw [hdir]
      rfl
  · simp only [Bool.false_eq_true, hempty, or_self, ↓reduceIte]
    split
    · rename_i hslash
      obtain ⟨front, hfront⟩ := List.getLast?_eq_some_iff.1 hslash
      refine ⟨splitSlash front, ?_, ?_⟩
      · rw [String.toList_append, hfront, List.append_assoc, List.singleton_append,
          splitSlash_append, splitSlash_name h.slashless]
      · rw [hfront, splitSlash_append, List.filter_append]
        simp [splitSlash]
    · refine ⟨splitSlash dir.text.toList, ?_, rfl⟩
      have htext : (dir.text ++ "/" ++ name).toList = dir.text.toList ++ '/' :: name.toList := by
        simp
      rw [htext, splitSlash_append, splitSlash_name h.slashless]

theorem parts_join (h : IsName name) : (dir.join name).parts = dir.parts ++ [name] := by
  obtain ⟨front, hsplit, hfront⟩ := splitSlash_join dir h
  rw [parts, components, hsplit, List.filter_append, hfront, parts, components]
  simp [h.nonempty, h.noPoint]

theorem isEmpty_text_join (h : IsName name) : (dir.join name).text.isEmpty = false := by
  obtain ⟨front, hsplit, -⟩ := splitSlash_join dir h
  rw [Bool.eq_false_iff]
  intro hempty
  rw [String.isEmpty_iff.1 hempty] at hsplit
  have hlast := congrArg List.getLast? hsplit
  rw [List.getLast?_concat] at hlast
  exact h.nonempty (Option.some.inj hlast).symm

end Path

namespace FileTree

variable {t changed : FileTree} {p dir : Path} {name : String} {bytes : ByteArray}

def FileAt (t : FileTree) (p : Path) (bytes : ByteArray) : Prop :=
  t.at? p = .ok (.file bytes)

theorem fileAt_iff : FileAt t p bytes ↔ p.namesDirectory = false ∧ ∃ names,
    t.names p = .ok names ∧ lookup names (.directory t.entries) = .ok (.file bytes) := by
  constructor
  · intro h
    obtain ⟨names, hnames, h⟩ := bind_eq_ok_iff.1 h
    obtain ⟨entry, hlookup, h⟩ := bind_eq_ok_iff.1 h
    cases entry with
    | directory inner => cases h
    | file found =>
      dsimp only at h
      split at h
      · cases h
      · rename_i hfile
        cases h
        exact ⟨by simpa using hfile, names, hnames, hlookup⟩
  · rintro ⟨hfile, names, hnames, hlookup⟩
    refine bind_eq_ok_iff.2 ⟨names, hnames, bind_eq_ok_iff.2 ⟨_, hlookup, ?_⟩⟩
    rw [hfile]
    rfl

theorem probe_fileAt (h : FileAt t p bytes) : t.probe p = .ok true := by
  rw [probe, show t.at? p = .ok (.file bytes) from h]

theorem readText_fileAt (h : FileAt t p bytes) : t.readText p =
    match String.fromUTF8? bytes with
    | some s => .ok s
    | none => .error .notText := by
  rw [readText, show t.at? p = .ok (.file bytes) from h]
  change (match String.fromUTF8? bytes with
    | some s => _
    | none => _) = _
  cases String.fromUTF8? bytes <;> rfl

theorem readText_eq_ok_iff {s : String} : t.readText p = .ok s ↔
    ∃ bytes, FileAt t p bytes ∧ String.fromUTF8? bytes = some s := by
  constructor
  · intro h
    obtain ⟨entry, hentry, h⟩ := bind_eq_ok_iff.1 h
    cases entry with
    | directory inner => cases h
    | file bytes =>
      dsimp only at h
      split at h
      · rename_i found hfound
        cases h
        exact ⟨bytes, hentry, hfound⟩
      · cases h
  · rintro ⟨bytes, hfile, hbytes⟩
    rw [readText_fileAt hfile, hbytes]

theorem resolve_concat (hname : name ≠ "..") (parts names : List String) :
    t.resolve (parts ++ [name]) names = (t.resolve parts names).map (· ++ [name]) := by
  induction parts generalizing names with
  | nil => simp [resolve, hname, Except.map]
  | cons part parts ih =>
    rw [List.cons_append, resolve, resolve]
    split
    · split
      · exact ih _
      · rfl
      · rfl
    · exact ih _

/-- A path that never goes back up leads along its parts, whatever the files are. -/
theorem resolve_descending {parts : List String} (h : ".." ∉ parts) (names : List String) :
    t.resolve parts names = .ok (names ++ parts) := by
  induction parts generalizing names with
  | nil => rw [resolve, List.append_nil]
  | cons part parts ih =>
    rw [List.mem_cons, not_or] at h
    rw [resolve, if_neg (Ne.symm h.1), ih h.2, List.append_assoc, List.singleton_append]

/-- The path of a file in a directory leads to the directory and the name of the file. -/
theorem names_join_iff (h : Path.IsName name) {names : List String} :
    t.names (dir.join name) = .ok names ↔
      ((dir.join name).isValid = true ∧ (dir.join name).isAbsolute = false) ∧
        ∃ above, t.resolve dir.parts [] = .ok above ∧ names = above ++ [name] := by
  have hresolve : t.resolve (dir.join name).parts [] =
      (t.resolve dir.parts []).map (· ++ [name]) := by
    rw [Path.parts_join dir h, resolve_concat h.noPoints]
  rw [FileTree.names, Path.isEmpty_text_join dir h, hresolve]
  cases (dir.join name).isValid with
  | false => simp
  | true =>
    cases (dir.join name).isAbsolute with
    | true => simp
    | false =>
      simp only [Bool.not_true, Bool.false_eq_true, or_self, ↓reduceIte, and_self, true_and]
      cases t.resolve dir.parts [] with
      | error f => simp [Except.map]
      | ok above => simp [Except.map, eq_comm]

theorem names_nested {sub file : String} {above names : List String} (hsub : Path.IsName sub)
    (hfile : Path.IsName file) (habove : t.resolve dir.parts [] = .ok above)
    (hnames : t.names ((dir.join sub).join file) = .ok names) : names = above ++ [sub, file] := by
  obtain ⟨-, inner, hinner, rfl⟩ := (names_join_iff hfile).1 hnames
  rw [Path.parts_join dir hsub, resolve_concat hsub.noPoints, habove] at hinner
  cases hinner
  rw [List.append_assoc, List.singleton_append]

theorem Keeps.fileAt_iff {spared : List String → Prop}
    (h : Keeps spared t.entries changed.entries) {names : List String}
    (hnames : t.names p = .ok names) (hspared : spared names) :
    FileAt changed p bytes ↔ FileAt t p bytes := by
  rw [FileTree.fileAt_iff, FileTree.fileAt_iff, hnames, names_kept h.directories hnames]
  simp only [Except.ok.injEq, exists_eq_left', h.files names hspared]

theorem FileAt.kept (h : FileAt t p bytes)
    (hkeeps : Keeps (fun _ => True) t.entries changed.entries) : FileAt changed p bytes := by
  obtain ⟨-, names, hnames, -⟩ := FileTree.fileAt_iff.1 h
  exact (hkeeps.fileAt_iff hnames trivial).2 h

/-- A file of a directory is kept if its name is spared; without a valid path it is never there. -/
theorem Keeps.fileAt_join_iff {spared : List String → Prop}
    (h : Keeps spared t.entries changed.entries) {above : List String}
    (habove : t.resolve dir.parts [] = .ok above) (hname : Path.IsName name)
    (hspared : spared (above ++ [name])) :
    FileAt changed (dir.join name) bytes ↔ FileAt t (dir.join name) bytes := by
  by_cases hpath : (dir.join name).isValid = true ∧ (dir.join name).isAbsolute = false
  · exact h.fileAt_iff ((names_join_iff hname).2 ⟨hpath, above, habove, rfl⟩) hspared
  · have hnever (u : FileTree) : ¬ FileAt u (dir.join name) bytes := by
      intro hfile
      obtain ⟨-, names, hnames, -⟩ := FileTree.fileAt_iff.1 hfile
      exact hpath ((names_join_iff hname).1 hnames).1
    exact iff_of_false (hnever changed) (hnever t)

def dropFile (name : String) (entries : List (String × Entry)) :
    Except FileFault (Unit × List (String × Entry)) :=
  if isFileName name then
    match Entry.find? name entries with
    | some (.directory _) => .error .isADirectory
    | some (.file _) => .ok ((), Entry.drop name entries)
    | none => .error .notFound
  else .error .badName

theorem dropFile_ok {entries dropped : List (String × Entry)} {a : Unit}
    (h : dropFile name entries = .ok (a, dropped)) :
    isFileName name = true ∧ (∃ bytes, Entry.find? name entries = some (.file bytes)) ∧
      dropped = Entry.drop name entries := by
  rw [dropFile] at h
  split at h
  · rename_i hname
    split at h
    · cases h
    · rename_i bytes hfind
      cases h
      exact ⟨hname, ⟨bytes, hfind⟩, rfl⟩
    · cases h
  · cases h

theorem keeps_dropFile {entries dropped : List (String × Entry)} {a : Unit}
    (h : dropFile name entries = .ok (a, dropped)) : Keeps (· ≠ [name]) entries dropped := by
  obtain ⟨-, ⟨bytes, hfind⟩, rfl⟩ := dropFile_ok h
  refine keeps_of_find? (fun other hother => ?_) (fun inner hinner => ?_) (fun inner hinner => ?_)
  · rw [Entry.find?_drop, if_neg hother]
  · cases hinner.symm.trans hfind
  · rw [Entry.find?_drop, if_pos rfl] at hinner
    cases hinner

/-- A change of one name keeps all files but that of the name. -/
theorem keeps_modifyParent {change : String → List (String × Entry) →
      Except FileFault (Unit × List (String × Entry))}
    (hchange : ∀ name entries next, change name entries = .ok ((), next) →
      Keeps (· ≠ [name]) entries next)
    (h : t.modifyParent p change = .ok ((), changed)) :
    ∃ names, t.names p = .ok names ∧ Keeps (· ≠ names) t.entries changed.entries := by
  obtain ⟨-, above, name, entries, hnames, hplace, rfl⟩ := modifyParent_ok_iff.1 h
  have hkeeps := keeps_modifyAt hplace (hchange name)
  refine ⟨above ++ [name], hnames, hkeeps.directories, fun names hspared => hkeeps.files names ?_⟩
  rintro rest rfl rfl
  exact hspared rfl

theorem keeps_writeBytes (h : t.writeBytes p bytes = .ok ((), changed)) :
    ∃ names, t.names p = .ok names ∧ Keeps (· ≠ names) t.entries changed.entries :=
  keeps_modifyParent (fun _ _ _ hput => keeps_putFile hput) h

theorem keeps_removeFile (h : t.removeFile p = .ok ((), changed)) :
    ∃ names, t.names p = .ok names ∧ Keeps (· ≠ names) t.entries changed.entries :=
  keeps_modifyParent (fun _ _ _ hdrop => keeps_dropFile hdrop) h

theorem at?_removeFile (h : t.removeFile p = .ok ((), changed)) :
    changed.at? p = .error .notFound := by
  obtain ⟨hfile, above, name, entries, hnames, hplace, rfl⟩ := modifyParent_ok_iff.1 h
  have hkeeps := keeps_modifyAt hplace fun _ _ hdrop => keeps_dropFile hdrop
  obtain ⟨inner, next, hdrop, -, hlookup⟩ := lookup_modifyAt hplace
  obtain ⟨hname, -, rfl⟩ := dropFile_ok hdrop
  have hgone : lookup (above ++ [name]) (.directory entries) = .error .notFound := by
    rw [lookup_append, hlookup]
    change lookup [name] (.directory (Entry.drop name inner)) = _
    rw [lookup, if_pos hname, Entry.find?_drop, if_pos rfl]
  rw [at?, names_kept hkeeps.directories hnames]
  change (lookup (above ++ [name]) (.directory entries) >>= _) = _
  rw [hgone]
  rfl

theorem fileAt_of_removeFile (h : t.removeFile p = .ok ((), changed)) :
    ∃ bytes, FileAt t p bytes := by
  obtain ⟨hfile, above, name, entries, hnames, hplace, rfl⟩ := modifyParent_ok_iff.1 h
  obtain ⟨inner, next, hdrop, hlookup, -⟩ := lookup_modifyAt hplace
  obtain ⟨hname, ⟨bytes, hfind⟩, -⟩ := dropFile_ok hdrop
  refine ⟨bytes, fileAt_iff.2 ⟨hfile, _, hnames, ?_⟩⟩
  rw [lookup_append]
  exact bind_eq_ok_iff.2 ⟨_, hlookup, lookup_cons_iff.2 ⟨hname, _, hfind, rfl⟩⟩

end FileTree

end QuotePress
