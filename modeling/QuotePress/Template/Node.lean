import QuotePress.Template.Token

/-! # The tree of a template

Tokens nest into blocks. A token that has no place in the tree, such as a close without its
opening, an opening without its close or one nested too deeply, stays in the text as written and
is reported. -/
namespace QuotePress

inductive Node where
  | text (run : String)
  | variable (name : String)
  | block (kind : BlockKind) (name : String) (body : List Node)
  deriving Repr

def maxNesting : Nat := 64

/-- What is wrong with a block token that stayed in the text. -/
inductive Diagnostic.Kind where
  | unmatchedClose
  | unclosed
  | depthExceeded
  deriving DecidableEq, Repr

/-- A block token that stayed in the text, with its byte offset. -/
structure Diagnostic where
  kind : Diagnostic.Kind
  offset : Nat
  token : String
  deriving DecidableEq, Repr

def Diagnostic.Kind.description : Diagnostic.Kind → String
  | .unmatchedClose => "close tag without a matching open tag"
  | .unclosed => "open tag is never closed"
  | .depthExceeded => "blocks nested too deeply"

def Diagnostic.message (d : Diagnostic) : String :=
  s!"{d.token} at byte {d.offset}: {d.kind.description}"

namespace Node

/-- Puts literal text in front of nodes; it joins literal text that is there already. -/
def consText (run : String) : List Node → List Node
  | .text next :: rest => .text (run ++ next) :: rest
  | nodes => .text run :: nodes

/-- Appends nodes, joining the texts that meet. -/
def splice : List Node → List Node → List Node
  | [], after => after
  | [.text run], after => consText run after
  | node :: rest, after => node :: splice rest after

/-- What a stretch of at most `n` tokens was read as: its nodes and findings, whether the close it
waited for was found, and the tokens after it. -/
structure Stretch (n : Nat) where
  nodes : List Node
  findings : List Diagnostic
  closed : Bool
  rest : List Token
  length_rest_le : rest.length ≤ n

def Stretch.consText {n : Nat} (run : String) (s : Stretch n) : Stretch (n + 1) :=
  ⟨Node.consText run s.nodes, s.findings, s.closed, s.rest, Nat.le_succ_of_le s.length_rest_le⟩

def Stretch.cons {n : Nat} (node : Node) (s : Stretch n) : Stretch (n + 1) :=
  ⟨node :: s.nodes, s.findings, s.closed, s.rest, Nat.le_succ_of_le s.length_rest_le⟩

def Stretch.report {n : Nat} (d : Diagnostic) (s : Stretch n) : Stretch n :=
  { s with findings := d :: s.findings }

/-- Reads tokens up to the close that `awaited` names, or up to a close that belongs to one of the
blocks in `opened` (the awaited one among them), or to the end. An opening whose close is not
found is text again, and so is what was taken for its body. -/
def stretch (awaited : Option BlockKind) (opened : List BlockKind) :
    (tokens : List Token) → Stretch tokens.length
  | [] => ⟨[], [], false, [], Nat.le_refl _⟩
  | .text run :: rest => (stretch awaited opened rest).consText run
  | .directive (.variable name) _ _ :: rest =>
    (stretch awaited opened rest).cons (.variable name)
  | .directive (.opening kind name) raw offset :: rest =>
    if opened.length ≥ maxNesting then
      ((stretch awaited opened rest).consText raw).report ⟨.depthExceeded, offset, raw⟩
    else
      match stretch (some kind) (kind :: opened) rest with
      | ⟨body, found, closed, tail, htail⟩ =>
        let after := stretch awaited opened tail
        have hrest : after.rest.length ≤ rest.length + 1 :=
          Nat.le_succ_of_le (Nat.le_trans after.length_rest_le htail)
        if closed then
          ⟨.block kind name body :: after.nodes, found ++ after.findings,
            after.closed, after.rest, hrest⟩
        else
          ⟨Node.consText raw (splice body after.nodes),
            ⟨.unclosed, offset, raw⟩ :: (found ++ after.findings),
            after.closed, after.rest, hrest⟩
  | .directive (.closing kind) raw offset :: rest =>
    if awaited = some kind then
      ⟨[], [], true, rest, Nat.le_succ _⟩
    else if kind ∈ opened then
      ⟨[], [], false, .directive (.closing kind) raw offset :: rest, Nat.le_refl _⟩
    else
      ((stretch awaited opened rest).consText raw).report ⟨.unmatchedClose, offset, raw⟩
termination_by tokens => tokens.length

end Node

structure Template where
  nodes : List Node
  /-- What is wrong with it, in the order of the text. -/
  diagnostics : List Diagnostic

/-- Reads a template. Every text is a template. -/
def Template.parse (source : String) : Template :=
  let whole := Node.stretch none [] (Token.scan source)
  ⟨whole.nodes, whole.findings⟩

def Template.isWellFormed (t : Template) : Bool :=
  t.diagnostics.isEmpty

end QuotePress
