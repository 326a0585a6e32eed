/-! # Paths of files

A path is a text whose parts are divided by slashes. -/
namespace QuotePress

structure Path where
  text : String
  deriving DecidableEq, Repr

namespace Path

def splitSlash : List Char → List (List Char)
  | [] => [[]]
  | c :: rest =>
    if c = '/' then [] :: splitSlash rest
    else match splitSlash rest with
      | [] => [[c]]
      | part :: parts => (c :: part) :: parts

/-- What stands between the slashes of a path, as far as it is not empty. -/
def components (p : Path) : List String :=
  ((splitSlash p.text.toList).filter (· ≠ [])).map String.ofList

/-- The parts of a path that name something; one point stands for the place itself. -/
def parts (p : Path) : List String :=
  p.components.filter (· ≠ ".")

def isAbsolute (p : Path) : Bool :=
  p.text.toList.head? = some '/'

/-- The directory that a path is in, written without single points and superfluous slashes. -/
def parent (p : Path) : Path :=
  ⟨(if p.isAbsolute then "/" else "") ++ String.intercalate "/" p.parts.dropLast⟩

def endsInPoint (p : Path) : Bool :=
  p.components.getLast? = some "."

/-- Paths of as many bytes are too long for the system. -/
def byteLimit : Nat := 4096

/-- Whether the system takes a path at all: it must not hold the null character, nor be too
long. -/
def isValid (p : Path) : Bool :=
  !p.text.toList.contains '\x00' && p.text.utf8ByteSize < byteLimit

/-- Whether a path ends in a way that only the path of a directory can. -/
def namesDirectory (p : Path) : Bool :=
  match (splitSlash p.text.toList).getLast? with
  | some last => last = [] || last = ['.'] || last = ['.', '.']
  | none => false

/-- A path inside of a directory. The text of the directory stays as it is given; an absolute path
is inside of no directory. -/
def join (dir : Path) (inner : String) : Path :=
  if (Path.mk inner).isAbsolute ∨ dir.text.isEmpty then ⟨inner⟩
  else if dir.text.toList.getLast? = some '/' then ⟨dir.text ++ inner⟩
  else ⟨dir.text ++ "/" ++ inner⟩

/-- A path, read from its end, without the slashes and single points behind its last part. -/
def dropTail : List Char → List Char
  | '/' :: rest => dropTail rest
  | '.' :: '/' :: rest => dropTail rest
  | cs => cs

/-- What stands in front of the last point of a name, both read from the end; a name whose only
point is its first character is kept whole. -/
def stemBackward (name : List Char) : List Char :=
  let before := (name.dropWhile (· ≠ '.')).drop 1
  if before.isEmpty then name else before

/-- The path with another ending in place of what follows the last point of its last part. A path
whose last part is no name stays as it is. -/
def withEnding (p : Path) (ending : String) : Path :=
  let backward := dropTail p.text.toList.reverse
  let name := backward.takeWhile (· ≠ '/')
  if name ∈ [[], ['.'], ['.', '.']] then p
  else ⟨String.ofList (stemBackward name ++ backward.dropWhile (· ≠ '/')).reverse ++ ending⟩

end Path

end QuotePress
