import QuotePress.Calendar.Reader
import QuotePress.Decimal.Binary64

/-! # Points in time

A point in time is kept in universal time; its text follows RFC 3339. -/
namespace QuotePress

structure Timestamp where
  date : Date
  /-- Below 86400. -/
  secondOfDay : Nat
  /-- Below two milliards; a leap second counts as a longer second before it. -/
  nanosecond : Nat
  deriving DecidableEq

namespace Timestamp

instance : Inhabited Timestamp := ⟨⟨Date.epoch, 0, 0⟩⟩

structure Clock where
  secondOfDay : Nat
  nanosecond : Nat

/-- The fraction of a second, if a point follows; digits after the ninth do not count. -/
def fraction : List Char → Except CalendarFault (Nat × List Char)
  | '.' :: cs => do
    let (n, rest) ← CalendarReader.number 9 cs
    let places := cs.length - rest.length
    return (n * tenTo (9 - places), rest.dropWhile Char.isDigit)
  | cs => .ok (0, cs)

/-- Hour, minute and second; the sixtieth second is a leap second. -/
def clock (cs : List Char) : Except CalendarFault (Clock × List Char) := do
  let (h, cs) ← CalendarReader.twoDigits 0 23 cs
  let (_, cs) ← CalendarReader.separator ':' cs
  let (m, cs) ← CalendarReader.twoDigits 0 59 cs
  let (_, cs) ← CalendarReader.separator ':' cs
  let (s, cs) ← CalendarReader.twoDigits 0 60 cs
  let (nanos, cs) ← fraction cs
  if s = 60 then return (⟨h * 3600 + m * 60 + 59, 1000000000 + nanos⟩, cs)
  else return (⟨h * 3600 + m * 60 + s, nanos⟩, cs)

/-- Two digits, of which the first is at most `tens`. -/
def digitPair (tens : Char) : List Char → Except CalendarFault (Nat × List Char)
  | a :: b :: rest =>
    if a.isDigit ∧ b.isDigit then
      if a ≤ tens then .ok ((a.toNat - '0'.toNat) * 10 + (b.toNat - '0'.toNat), rest)
      else .error .outOfRange
    else .error .invalid
  | [a] => .error (if a.utf8Size < 2 then .tooShort else .invalid)
  | [] => .error .tooShort

def offsetMagnitude (cs : List Char) : Except CalendarFault (Nat × List Char) := do
  let (h, cs) ← digitPair '9' cs
  let (m, cs) ← digitPair '5' (cs.dropWhile fun c => c = ':' || Text.isBlankChar c)
  return (h * 3600 + m * 60, cs)

def isUniversal (cs : List Char) : Bool :=
  (cs.take 3).map Char.toUpper = ['U', 'T', 'C']

def offset (cs : List Char) : Except CalendarFault (Int × List Char) :=
  if isUniversal cs then .ok (0, cs.drop 3)
  else match cs with
  | [] => .error .tooShort
  | c :: rest =>
    if c = 'Z' ∨ c = 'z' then .ok (0, rest)
    else if c = '+' then (offsetMagnitude rest).map fun (n, cs) => ((n : Int), cs)
    else if c = '-' ∨ c = '\u2212' then (offsetMagnitude rest).map fun (n, cs) => (-(n : Int), cs)
    else .error .invalid

def divider : List Char → Except CalendarFault (Unit × List Char)
  | [] => .error .tooShort
  | c :: rest => if c = 'T' ∨ c = 't' ∨ c = ' ' then .ok ((), rest) else .error .invalid

def read (text : String) : Except CalendarFault Timestamp := do
  let ((y, m, d), cs) ← CalendarReader.yearMonthDay text.toList
  let (_, cs) ← divider cs
  let (time, cs) ← clock cs
  let (shift, cs) ← offset (Text.trimStart cs)
  if !(Text.trimStart cs).isEmpty then .error .trailing
  else match Date.of? y m d with
  | none => .error .outOfRange
  | some date =>
    if shift.natAbs ≥ 86400 then .error .outOfRange
    else
      let second := (time.secondOfDay : Int) - shift
      match date.addDays? (second / 86400) with
      | some date => return ⟨date, (second % 86400).toNat, time.nanosecond⟩
      | none => .error .impossible

/-- The point in time some nanoseconds after the start of 1970, if the calendar has it. -/
def ofEpoch? (nanoseconds : Int) : Option Timestamp :=
  let seconds := nanoseconds / 1000000000
  (Date.epoch.addDays? (seconds / 86400)).map fun date =>
    ⟨date, (seconds % 86400).toNat, (nanoseconds % 1000000000).toNat⟩

/-- The point in time as text, with nine decimals of the second. -/
def text (t : Timestamp) : String :=
  let leap := t.nanosecond / 1000000000
  String.ofList (t.date.isoText ++ 'T' ::
    Date.padded 2 (t.secondOfDay / 3600) ++ ':' ::
    Date.padded 2 (t.secondOfDay / 60 % 60) ++ ':' ::
    Date.padded 2 (t.secondOfDay % 60 + leap) ++ '.' ::
    Date.padded 9 (t.nanosecond % 1000000000) ++ ['Z'])

end Timestamp

end QuotePress
