import QuotePress.Files.Path

/-! # What the program asks of a file system

The program is written over these five operations only, so that the same definitions run on real
files and on a tree of files that proofs can look into. -/
namespace QuotePress

inductive FileFault where
  | notFound
  | notADirectory
  | isADirectory
  | badName
  | notText
  | refused
  deriving DecidableEq, Repr

class FileSystem (m : Type → Type) where
  /-- Whether there is something at a path; fails if that cannot be told. -/
  probe : Path → m (Except FileFault Bool)
  readText : Path → m (Except FileFault String)
  /-- Makes a directory and all directories above it, unless they are there. -/
  makeDirectories : Path → m (Except FileFault Unit)
  writeText : Path → String → m (Except FileFault Unit)
  removeFile : Path → m (Except FileFault Unit)

/-- Files are the same beside a further state. -/
instance {τ : Type} {m : Type → Type} [Monad m] [FileSystem m] : FileSystem (StateT τ m) where
  probe p := StateT.lift (FileSystem.probe p)
  readText p := StateT.lift (FileSystem.readText p)
  makeDirectories p := StateT.lift (FileSystem.makeDirectories p)
  writeText p s := StateT.lift (FileSystem.writeText p s)
  removeFile p := StateT.lift (FileSystem.removeFile p)

end QuotePress
