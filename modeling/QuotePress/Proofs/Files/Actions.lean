import QuotePress.DocumentError
import QuotePress.Proofs.Files.Directories

/-! # Actions on files

Some actions only look at the files. Others make a directory and write a file in it; they touch that
file alone, and what they write is in it then, unless a file is refused. -/
namespace QuotePress

variable {α β : Type}

theorem run_bind {World : Type} (action : StateM World α) (next : α → StateM World β)
    (world : World) : (action >>= next) world = next (action world).1 (action world).2 := rfl

def Reads (action : StateM FileTree α) : Prop :=
  ∀ t, (action t).2 = t

namespace Reads

theorem pure (a : α) : Reads (Pure.pure a) := fun _ => rfl

theorem bind {action : StateM FileTree α} {next : α → StateM FileTree β} (h : Reads action)
    (hnext : ∀ a, Reads (next a)) : Reads (action >>= next) := by
  intro t
  change (next (action t).1 (action t).2).2 = t
  rw [hnext, h]

theorem probe (p : Path) : Reads (FileSystem.probe p) := fun _ => rfl

theorem readText (p : Path) : Reads (FileSystem.readText p) := fun _ => rfl

end Reads

/-- An action that keeps one file of a directory, and keeps all directories. -/
def Spares (directory : Path) (name : String) (action : StateM FileTree α) : Prop :=
  ∀ t above, t.resolve directory.parts [] = .ok above →
    FileTree.Keeps (· = above ++ [name]) t.entries (action t).2.entries

def deposit (directory path : Path) (text : String) (a : α) :
    StateM FileTree (Except DocumentError α) := do
  match ← FileSystem.makeDirectories directory with
  | .error f => return .error (.file f)
  | .ok () =>
    let written ← FileSystem.writeText path text
    return (DocumentError.liftFile written).map fun () => a

/-- Any text can be put at a path, once the directories above it are made. -/
def FileTree.Takes (t : FileTree) (p : Path) : Prop :=
  ∀ text : String, ∃ made written, t.makeDirectories p.parent = (.ok (), made) ∧
    made.writeBytes p text.toUTF8 = .ok ((), written)

theorem FileTree.takes_iff {t : FileTree} {p : Path} (bytes : ByteArray) : t.Takes p ↔
    (t.makeDirectories p.parent).1.toOption.isSome = true ∧
      ((t.makeDirectories p.parent).2.writeBytes p bytes).toOption.isSome = true := by
  constructor
  · intro h
    obtain ⟨made, written, hmake, hwrite⟩ := h ""
    obtain ⟨changed, hchanged⟩ := writeBytes_other hwrite bytes
    rw [hmake, hchanged]
    exact ⟨rfl, rfl⟩
  · rintro ⟨hmake, hwrite⟩ text
    obtain ⟨⟨⟩, hmade⟩ := Option.isSome_iff_exists.1 hmake
    obtain ⟨⟨⟨⟩, written⟩, hwritten⟩ := Option.isSome_iff_exists.1 hwrite
    obtain ⟨changed, hchanged⟩ := writeBytes_other (ok_of_toOption hwritten) text.toUTF8
    exact ⟨_, changed, Prod.ext (ok_of_toOption hmade) rfl, hchanged⟩

instance (t : FileTree) (p : Path) : Decidable (t.Takes p) :=
  decidable_of_iff _ (FileTree.takes_iff ByteArray.empty).symm

theorem deposit_taken {directory path : Path} {text : String} {t made written : FileTree} (a : α)
    (hmake : t.makeDirectories directory = (.ok (), made))
    (hwrite : made.writeBytes path text.toUTF8 = .ok ((), written)) :
    deposit directory path text a t = (.ok a, written) := by
  have hmade : (FileSystem.makeDirectories directory : StateM FileTree _) t = (.ok (), made) :=
    hmake
  have hwritten : (FileSystem.writeText path text : StateM FileTree _) made =
      (.ok (), written) := by
    change FileTree.attempt _ made = _
    rw [FileTree.attempt, hwrite]
  rw [deposit, run_bind, hmade]
  dsimp only
  rw [run_bind, hwritten]
  rfl

/-- The text is written once the directory is made, or a file is refused. -/
theorem deposit_run (directory path : Path) (text : String) (a : α) (t : FileTree) :
    (∃ made written, t.makeDirectories directory = (.ok (), made) ∧
      made.writeBytes path text.toUTF8 = .ok ((), written) ∧
      deposit directory path text a t = (.ok a, written)) ∨
    ∃ f, deposit directory path text a t = (.error (.file f), (t.makeDirectories directory).2) := by
  have hmake : (FileSystem.makeDirectories directory : StateM FileTree _) t =
      t.makeDirectories directory := rfl
  cases hmade : t.makeDirectories directory with
  | mk answer made =>
    cases answer with
    | error f =>
      rw [deposit, run_bind, hmake, hmade]
      exact Or.inr ⟨f, rfl⟩
    | ok _ =>
      have hwrite : (FileSystem.writeText path text : StateM FileTree _) made =
          FileTree.attempt (fun t => t.writeBytes path text.toUTF8) made := rfl
      cases hbytes : made.writeBytes path text.toUTF8 with
      | error f =>
        rw [deposit, run_bind, hmake, hmade]
        dsimp only
        rw [run_bind, hwrite, FileTree.attempt, hbytes]
        exact Or.inr ⟨f, rfl⟩
      | ok result => exact Or.inl ⟨made, result.2, rfl, hbytes, deposit_taken a hmade hbytes⟩

namespace Spares

variable {directory : Path} {name sub file : String}

theorem of_reads {action : StateM FileTree α} (h : Reads action) :
    Spares directory name action := by
  intro t above _
  rw [h t]
  exact FileTree.Keeps.refl _

theorem bind {action : StateM FileTree α} {next : α → StateM FileTree β}
    (h : Spares directory name action) (hnext : ∀ a, Spares directory name (next a)) :
    Spares directory name (action >>= next) := by
  intro t above habove
  have hkeeps := h t above habove
  exact hkeeps.trans (hnext _ _ above (FileTree.resolve_kept hkeeps.directories habove))

/-- What is deposited in a directory below is no file of the directory itself. -/
theorem deposit (hsub : Path.IsName sub) (hfile : Path.IsName file) (text : String) (a : α) :
    Spares directory name
      (QuotePress.deposit (directory.join sub) ((directory.join sub).join file) text a) := by
  intro t above habove
  have hmade := FileTree.keeps_makeDirectories t (directory.join sub)
  rcases deposit_run (directory.join sub) ((directory.join sub).join file) text a t with
    ⟨made, written, hmake, hwrite, hrun⟩ | ⟨f, hrun⟩
  · rw [hmake] at hmade
    rw [hrun]
    obtain ⟨names, hnames, hkeeps⟩ := FileTree.keeps_writeBytes hwrite
    have hbelow := FileTree.names_nested hsub hfile
      (FileTree.resolve_kept hmade.directories habove) hnames
    refine (hmade.mono fun _ _ => trivial).trans (hkeeps.mono ?_)
    rintro _ rfl hsame
    rw [hbelow] at hsame
    simpa using congrArg List.length hsame
  · rw [hrun]
    exact hmade.mono fun _ _ => trivial

theorem removeFile (hsub : Path.IsName sub) (hfile : Path.IsName file) :
    Spares directory name
      (FileSystem.removeFile ((directory.join sub).join file) : StateM FileTree _) := by
  intro t above habove
  change FileTree.Keeps _ _ (FileTree.attempt
    (fun t => t.removeFile ((directory.join sub).join file)) t).2.entries
  rw [FileTree.attempt]
  cases hremove : t.removeFile ((directory.join sub).join file) with
  | error f => exact FileTree.Keeps.refl _
  | ok result =>
    obtain ⟨names, hnames, hkeeps⟩ := FileTree.keeps_removeFile hremove
    refine hkeeps.mono ?_
    rintro _ rfl hsame
    rw [FileTree.names_nested hsub hfile habove hnames] at hsame
    simpa using congrArg List.length hsame

theorem fileAt_iff {action : StateM FileTree α} (h : Spares directory name action)
    (hname : Path.IsName name) {t : FileTree} {above : List String}
    (habove : t.resolve directory.parts [] = .ok above) (bytes : ByteArray) :
    (action t).2.FileAt (directory.join name) bytes ↔ t.FileAt (directory.join name) bytes :=
  (h t above habove).fileAt_join_iff habove hname rfl

end Spares

end QuotePress
