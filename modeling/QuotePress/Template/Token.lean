import QuotePress.Text.Bytes

/-! # Tokens of a template

A template is literal text with directives in double braces: a name to be substituted, the
opening of an `if` or `each` block, or the close of one. Braces around anything else are text. -/
namespace QuotePress

open Text (byteCount cutBytes splitAtPair)

inductive BlockKind where
  /-- Kept when a name is truthy. -/
  | conditional
  /-- Repeated for every record of a list. -/
  | loop
  deriving DecidableEq, Repr

def BlockKind.keyword : BlockKind → String
  | .conditional => "if"
  | .loop => "each"

inductive Directive where
  | variable (name : String)
  | opening (kind : BlockKind) (name : String)
  | closing (kind : BlockKind)
  deriving DecidableEq, Repr

/-- A run of literal text, or a directive as written with its byte offset in the template. -/
inductive Token where
  | text (run : String)
  | directive (meaning : Directive) (raw : String) (offset : Nat)
  deriving DecidableEq, Repr

def isNameChar (c : Char) : Bool :=
  c.isAlphanum || c = '_'

/-- Whether the characters are a name; a name is not empty. -/
def isName (cs : List Char) : Bool :=
  !cs.isEmpty && cs.all isNameChar

/-- What may stand between the keyword of an opening and its name. -/
def isGapChar (c : Char) : Bool :=
  c = ' ' || c = '\t'

def dropWord? : List Char → List Char → Option (List Char)
  | [], cs => some cs
  | _ :: _, [] => none
  | w :: word, c :: cs => if w = c then dropWord? word cs else none

/-- The name after a keyword: at least one space or tab, then a name. -/
def blockName? (cs : List Char) : Option (List Char) :=
  let name := cs.dropWhile isGapChar
  if name.length < cs.length ∧ isName name then some name else none

/-- An opening of the given kind, read from what follows the number sign. -/
def Directive.opening? (kind : BlockKind) (cs : List Char) : Option Directive := do
  let name ← blockName? (← dropWord? kind.keyword.toList cs)
  return .opening kind (String.ofList name)

/-- The directive that the text between double braces spells, if it spells one. -/
def Directive.ofInner? (inner : List Char) : Option Directive :=
  if isName inner then some (.variable (String.ofList inner))
  else match inner with
    | '#' :: rest => (opening? .conditional rest).or (opening? .loop rest)
    | '/' :: rest =>
      if rest = BlockKind.conditional.keyword.toList then some (.closing .conditional)
      else if rest = BlockKind.loop.keyword.toList then some (.closing .loop)
      else none
    | _ => none

namespace Token

def raw : Token → String
  | .text run => run
  | .directive _ raw _ => raw

def ofRun (run : List Char) : List Token :=
  if run.isEmpty then [] else [.text (String.ofList run)]

def openBrace : Char := '\x7b'

def closeBrace : Char := '\x7d'

/-- Where a scan stands: the text run since the last token, latest character first, the unread
text with the byte offset at which it starts, and the byte offset of the nearest double closing
brace that has been looked up. -/
structure Cursor where
  run : List Char
  offset : Nat
  rest : List Char
  close : Option Nat
  deriving Repr

/-- The byte offset of the first double closing brace in `after`, which starts at `start`. A close
that was remembered is used again as long as it does not lie before `start`. -/
def closeOffset? (remembered : Option Nat) (start : Nat) (after : List Char) : Option Nat :=
  let search := (splitAtPair closeBrace after).map fun (before, _) => start + byteCount before
  match remembered with
  | some close => if start ≤ close then some close else search
  | none => search

/-- One move of a scan: to the next double opening brace, and past the directive that starts
there, or past the first brace of the two when nothing there is a directive. Without a double
opening brace that is closed again there is no move. -/
def Cursor.step (c : Cursor) : Option (List Token × Cursor) := do
  let (before, after) ← splitAtPair openBrace c.rest
  let start := c.offset + byteCount before
  let close ← closeOffset? c.close (start + 2) after
  let (inner, tail) := cutBytes (close - (start + 2)) after
  match Directive.ofInner? inner with
  | some meaning =>
    let raw := openBrace :: openBrace :: inner ++ [closeBrace, closeBrace]
    return (ofRun (c.run.reverse ++ before) ++ [.directive meaning (String.ofList raw) start],
      ⟨[], close + 2, tail.drop 2, some close⟩)
  | none =>
    return ([], ⟨openBrace :: (before.reverse ++ c.run), start + 1, openBrace :: after, some close⟩)

/-- Every move of a scan leaves less to read. -/
theorem Cursor.length_rest_lt_of_step {c d : Cursor} {tokens : List Token}
    (h : c.step = some (tokens, d)) : d.rest.length < c.rest.length := by
  simp only [Cursor.step, Option.bind_eq_bind, Option.bind_eq_some_iff] at h
  obtain ⟨⟨before, after⟩, hsplit, close, -, h⟩ := h
  have hrest := congrArg List.length (Text.append_of_splitAtPair hsplit)
  simp only [List.length_append, List.length_cons] at hrest
  have hcut := congrArg List.length
    (Text.cutBytes_append (close - (c.offset + byteCount before + 2)) after)
  simp only [List.length_append] at hcut
  split at h
  · simp only [Option.pure_def, Option.some.injEq, Prod.mk.injEq] at h
    obtain ⟨-, rfl⟩ := h
    simp only [List.length_drop]
    omega
  · simp only [Option.pure_def, Option.some.injEq, Prod.mk.injEq] at h
    obtain ⟨-, rfl⟩ := h
    simp only [List.length_cons]
    omega

def Cursor.tokens (c : Cursor) : List Token :=
  match h : c.step with
  | none => ofRun (c.run.reverse ++ c.rest)
  | some (tokens, d) =>
    have := Cursor.length_rest_lt_of_step h
    tokens ++ d.tokens
termination_by c.rest.length

def scan (source : String) : List Token :=
  Cursor.tokens ⟨[], 0, source.toList, none⟩

end Token

end QuotePress
