import QuotePress.Files.FileSystem

/-! # A tree of files

Files and directories below one directory, held as a value. -/
namespace QuotePress

inductive Entry where
  | file (bytes : ByteArray)
  | directory (entries : List (String × Entry))

instance : Inhabited Entry := ⟨.directory []⟩

/-- Names of more bytes cannot be given to files. -/
def maxNameBytes : Nat := 255

def isFileName (name : String) : Bool :=
  name.utf8ByteSize ≤ maxNameBytes

namespace Entry

def find? (name : String) : List (String × Entry) → Option Entry
  | [] => none
  | (other, entry) :: rest => if name = other then some entry else find? name rest

def put (name : String) (entry : Entry) : List (String × Entry) → List (String × Entry)
  | [] => [(name, entry)]
  | (other, old) :: rest =>
    if name = other then (name, entry) :: rest else (other, old) :: put name entry rest

def drop (name : String) (entries : List (String × Entry)) : List (String × Entry) :=
  entries.filter (·.1 ≠ name)

end Entry

structure FileTree where
  entries : List (String × Entry)

namespace FileTree

def empty : FileTree := ⟨[]⟩

instance : Inhabited FileTree := ⟨empty⟩

/-- Changes the entries of the directory that a list of names leads to; the names must lead
through directories that are there. -/
def modifyAt {α : Type}
    (change : List (String × Entry) → Except FileFault (α × List (String × Entry))) :
    (names : List String) → List (String × Entry) →
      Except FileFault (α × List (String × Entry))
  | [], entries => change entries
  | name :: names, entries =>
    if isFileName name then
      match Entry.find? name entries with
      | some (.directory inner) => do
        let (a, inner) ← modifyAt change names inner
        return (a, Entry.put name (.directory inner) entries)
      | some (.file _) => .error .notADirectory
      | none => .error .notFound
    else .error .badName

def lookup : (names : List String) → Entry → Except FileFault Entry
  | [], entry => .ok entry
  | name :: names, .directory entries =>
    if isFileName name then
      match Entry.find? name entries with
      | some entry => lookup names entry
      | none => .error .notFound
    else .error .badName
  | _ :: _, .file _ => .error .notADirectory

/-- The names that lead to a path from the root, going back up at two points. Everything that is
gone back from must be a directory. -/
def resolve (t : FileTree) : (parts : List String) → (names : List String) →
    Except FileFault (List String)
  | [], names => .ok names
  | part :: parts, names =>
    if part = ".." then
      match lookup names (.directory t.entries) with
      | .ok (.directory _) => resolve t parts names.dropLast
      | .ok (.file _) => .error .notADirectory
      | .error f => .error f
    else resolve t parts (names ++ [part])

/-- The names that lead to a path. Paths outside of the tree are not there. -/
def names (t : FileTree) (p : Path) : Except FileFault (List String) :=
  if !p.isValid then .error .badName
  else if p.isAbsolute ∨ p.text.isEmpty then .error .notFound
  else resolve t p.parts []

/-- What is at a path. A path that ends like that of a directory leads to no file. -/
def at? (t : FileTree) (p : Path) : Except FileFault Entry := do
  match ← lookup (← t.names p) (.directory t.entries) with
  | .file bytes => if p.namesDirectory then .error .notADirectory else return .file bytes
  | entry => return entry

/-- Whether there is something at a path. A path through a file, or with a name that no file can
have, cannot be told. -/
def probe (t : FileTree) (p : Path) : Except FileFault Bool :=
  match t.at? p with
  | .ok _ => .ok true
  | .error .notFound => .ok false
  | .error f => .error f

def readText (t : FileTree) (p : Path) : Except FileFault String := do
  match ← t.at? p with
  | .directory _ => .error .isADirectory
  | .file bytes =>
    match String.fromUTF8? bytes with
    | some s => return s
    | none => .error .notText

/-- Makes sure that a directory has a directory of the given name; one and two points are in every
directory. -/
def addDirectory (name : String) (entries : List (String × Entry)) :
    Except FileFault (Unit × List (String × Entry)) :=
  if name = "." ∨ name = ".." then .ok ((), entries)
  else if isFileName name then
    match Entry.find? name entries with
    | some (.directory _) => .ok ((), entries)
    | some (.file _) => .error .notADirectory
    | none => .ok ((), Entry.put name (.directory []) entries)
  else .error .badName

def makeDirectory (t : FileTree) (above : List String) (name : String) :
    Except FileFault FileTree := do
  let names ← t.resolve above []
  let (_, entries) ← modifyAt (addDirectory name) names t.entries
  return ⟨entries⟩

/-- Makes one directory. If the directory above it is missing, `makeAbove` is tried, and then the
directory once more; what `makeAbove` made stays even if that fails. -/
def ensureDirectory (above : List String) (name : String)
    (makeAbove : FileTree → Except FileFault Unit × FileTree) (t : FileTree) :
    Except FileFault Unit × FileTree :=
  match t.makeDirectory above name with
  | .ok made => (.ok (), made)
  | .error .notFound =>
    match makeAbove t with
    | (.error f, t) => (.error f, t)
    | (.ok (), t) =>
      match t.makeDirectory above name with
      | .ok made => (.ok (), made)
      | .error f => (.error f, t)
  | .error f => (.error f, t)

/-- Makes the directories along the parts of a path, which are given last part first. -/
def ensureAll : (back : List String) → FileTree → Except FileFault Unit × FileTree
  | [], t => (.ok (), t)
  | name :: above, t => ensureDirectory above.reverse name (ensureAll above) t

/-- Makes a directory and all directories above it. The empty path names the root itself. A point
at the end stands for a directory that must be there: only those above that one are made. -/
def makeDirectories (t : FileTree) (p : Path) : Except FileFault Unit × FileTree :=
  if !p.isValid then (.error .badName, t)
  else if p.isAbsolute then (.error .refused, t)
  else if p.endsInPoint then
    ensureDirectory p.parts "." (ensureAll p.parts.dropLast.reverse) t
  else ensureAll p.parts.reverse t

def modifyParent {α : Type} (t : FileTree) (p : Path)
    (change : String → List (String × Entry) → Except FileFault (α × List (String × Entry))) :
    Except FileFault (α × FileTree) := do
  let names ← t.names p
  match names.getLast? with
  | none => .error .isADirectory
  | some name =>
    if p.namesDirectory then .error .isADirectory
    else
      let (a, entries) ← modifyAt (change name) names.dropLast t.entries
      return (a, ⟨entries⟩)

def writeBytes (t : FileTree) (p : Path) (bytes : ByteArray) :
    Except FileFault (Unit × FileTree) :=
  t.modifyParent p fun name entries =>
    if isFileName name then
      match Entry.find? name entries with
      | some (.directory _) => .error .isADirectory
      | _ => .ok ((), Entry.put name (.file bytes) entries)
    else .error .badName

def removeFile (t : FileTree) (p : Path) : Except FileFault (Unit × FileTree) :=
  t.modifyParent p fun name entries =>
    if isFileName name then
      match Entry.find? name entries with
      | some (.directory _) => .error .isADirectory
      | some (.file _) => .ok ((), Entry.drop name entries)
      | none => .error .notFound
    else .error .badName

mutual

/-- The paths of all files in an entry, which itself is at `path`. -/
def filesOf (path : String) : Entry → List String
  | .file _ => [path]
  | .directory entries => filesIn (path ++ "/") entries

/-- The paths of all files in entries, whose own paths start with `start`. -/
def filesIn (start : String) : List (String × Entry) → List String
  | [] => []
  | (name, entry) :: rest => filesOf (start ++ name) entry ++ filesIn start rest

end

def files (t : FileTree) : List String :=
  filesIn "" t.entries

/-- Keeps the tree when a change fails. -/
def attempt (change : FileTree → Except FileFault (Unit × FileTree)) :
    StateM FileTree (Except FileFault Unit) := fun t =>
  match change t with
  | .ok (_, t) => (.ok (), t)
  | .error f => (.error f, t)

instance : FileSystem (StateM FileTree) where
  probe p := fun t => (t.probe p, t)
  readText p := fun t => (t.readText p, t)
  makeDirectories p := fun t => t.makeDirectories p
  writeText p s := attempt fun t => t.writeBytes p s.toUTF8
  removeFile p := attempt fun t => t.removeFile p

end FileTree

end QuotePress
