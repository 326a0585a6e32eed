import QuotePress.Calendar.Date
import QuotePress.Text.Blank

/-! # Reading dates and points in time

A date is year, month and day with hyphens between; blanks may stand before every number and
before every hyphen. A point in time is a date, a time of day and an offset from universal time. -/
namespace QuotePress

inductive CalendarFault where
  | invalid
  | tooShort
  | outOfRange
  | trailing
  /-- The local time has no counterpart in universal time. -/
  | impossible
  deriving DecidableEq, Repr

def CalendarFault.message : CalendarFault → String
  | .invalid => "input contains invalid characters"
  | .tooShort => "premature end of input"
  | .outOfRange => "input is out of range"
  | .trailing => "trailing input"
  | .impossible => "no possible date and time matching input"

namespace CalendarReader

open Text (trimStart)

/-- A number of at least one and at most `width` digits, within 63 bits. -/
def number (width : Nat) (cs : List Char) : Except CalendarFault (Nat × List Char) :=
  let ds := (cs.take width).takeWhile Char.isDigit
  if cs.isEmpty then .error .tooShort
  else if ds.isEmpty then .error .invalid
  else
    let n := ds.foldl (fun n d => 10 * n + (d.toNat - '0'.toNat)) 0
    if n < UInt64.size / 2 then .ok (n, cs.drop ds.length) else .error .outOfRange

/-- A number of one or two digits from `low` to `high`, after blanks. -/
def twoDigits (low high : Nat) (cs : List Char) : Except CalendarFault (Nat × List Char) := do
  let (n, rest) ← number 2 (trimStart cs)
  if low ≤ n ∧ n ≤ high then return (n, rest) else .error .outOfRange

/-- A year, after blanks: at most four digits, or a sign and any number of digits. -/
def year (cs : List Char) : Except CalendarFault (Int × List Char) := do
  let cs := trimStart cs
  let signed := cs.head? = some '-' ∨ cs.head? = some '+'
  let (n, rest) ← if signed then number cs.length (cs.drop 1) else number 4 cs
  let y : Int := if cs.head? = some '-' then -n else n
  if Int32.minValue.toInt ≤ y ∧ y ≤ Int32.maxValue.toInt then return (y, rest)
  else .error .outOfRange

def literal (c : Char) : List Char → Except CalendarFault (Unit × List Char)
  | [] => .error .tooShort
  | d :: rest => if d = c then .ok ((), rest) else .error .invalid

def separator (c : Char) (cs : List Char) : Except CalendarFault (Unit × List Char) :=
  literal c (trimStart cs)

def yearMonthDay (cs : List Char) : Except CalendarFault ((Int × Nat × Nat) × List Char) := do
  let (y, cs) ← year cs
  let (_, cs) ← separator '-' cs
  let (m, cs) ← twoDigits 1 12 cs
  let (_, cs) ← separator '-' cs
  let (d, cs) ← twoDigits 1 31 cs
  return ((y, m, d), cs)

end CalendarReader

/-- Reads a date. What is left over is reported before a day that its month does not have. -/
def Date.read (text : String) : Except CalendarFault Date := do
  let ((y, m, d), rest) ← CalendarReader.yearMonthDay text.toList
  if (Text.trimStart rest).isEmpty then
    match Date.of? y m d with
    | some date => return date
    | none => .error .outOfRange
  else .error .trailing

end QuotePress
