import QuotePress.Decimal.Shortest

/-! # JSON values and how they are written

A value is written on one line or spread over lines with two blanks for each level. Both layouts
have the same lexemes in the same order. -/
namespace QuotePress

/-- A JSON value. Numbers are either whole or doubles; members keep their order. -/
inductive Json where
  | null
  | boolean (b : Bool)
  | integer (n : Int)
  | real (x : Float)
  | string (s : String)
  | array (items : List Json)
  | object (members : List (String × Json))

namespace Json

instance : Inhabited Json := ⟨.null⟩

def hexDigit (n : Nat) : Char :=
  Nat.digitChar n

/-- A character inside a quoted text: quotes, backslashes and control characters are escaped, and
nothing else. -/
def quoteChar (c : Char) : List Char :=
  if c = '"' then ['\\', '"']
  else if c = '\\' then ['\\', '\\']
  else if c = '\x08' then ['\\', 'b']
  else if c = '\x0c' then ['\\', 'f']
  else if c = '\n' then ['\\', 'n']
  else if c = '\r' then ['\\', 'r']
  else if c = '\t' then ['\\', 't']
  else if c.toNat < 32 then
    ['\\', 'u', '0', '0', hexDigit (c.toNat / 16), hexDigit (c.toNat % 16)]
  else [c]

def quote (s : String) : List Char :=
  '"' :: s.toList.flatMap quoteChar ++ ['"']

/-- A finite double: in full with a point from `1e-5` up to below `1e16`, else with a power of ten.
What is not finite has no number to write. -/
def realText (x : Float) : List Char :=
  match Binary64.ofFloat x with
  | .nan | .infinite _ => "null".toList
  | .finite negative mantissa exponent =>
    Binary64.signText negative ++
      if mantissa = 0 then "0.0".toList
      else
        let d := Decimal.shortest .toEven mantissa exponent
        if -5 ≤ d.magnitude ∧ d.magnitude < 16 then
          if 0 ≤ d.exponent then d.positional ++ ['.', '0'] else d.positional
        else d.scientific

inductive Layout where
  | compact
  /-- Every item on a line of its own, at the given level. -/
  | indented (level : Nat)

def Layout.inner : Layout → Layout
  | .compact => .compact
  | .indented level => .indented (level + 1)

def Layout.lineBreak : Layout → List Char
  | .compact => []
  | .indented level => '\n' :: List.replicate (2 * level) ' '

def Layout.colon : Layout → List Char
  | .compact => [':']
  | .indented _ => [':', ' ']

mutual

def render (layout : Layout) : Json → List Char
  | .null => "null".toList
  | .boolean b => (if b then "true" else "false").toList
  | .integer n => (toString n).toList
  | .real x => realText x
  | .string s => quote s
  | .array [] => "[]".toList
  | .array (item :: rest) =>
    '[' :: layout.inner.lineBreak ++ render layout.inner item ++
      renderItems layout.inner rest ++ layout.lineBreak ++ [']']
  | .object [] => ['\x7b', '\x7d']
  | .object ((key, value) :: rest) =>
    '\x7b' :: layout.inner.lineBreak ++ quote key ++ layout.colon ++ render layout.inner value ++
      renderMembers layout.inner rest ++ layout.lineBreak ++ ['\x7d']

def renderItems (layout : Layout) : List Json → List Char
  | [] => []
  | item :: rest =>
    ',' :: layout.lineBreak ++ render layout item ++ renderItems layout rest

def renderMembers (layout : Layout) : List (String × Json) → List Char
  | [] => []
  | (key, value) :: rest =>
    ',' :: layout.lineBreak ++ quote key ++ layout.colon ++ render layout value ++
      renderMembers layout rest

end

def compact (j : Json) : String :=
  String.ofList (j.render .compact)

def pretty (j : Json) : String :=
  String.ofList (j.render (.indented 0))

def ofNat (n : Nat) : Json :=
  .integer n

def ofTexts (texts : List String) : Json :=
  .array (texts.map .string)

end Json

end QuotePress
