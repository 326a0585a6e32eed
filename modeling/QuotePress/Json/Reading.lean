import QuotePress.Json.Lexeme

/-! # What could be read of a JSON text

A reading is the tree of a text as far as the text is JSON; where it stops being JSON, the tree
holds the fault. A decoder then walks the tree in the order of the text, so it reports whatever
comes first: a value of the wrong shape, or the fault. -/
namespace QuotePress.Json

inductive Found where
  | null
  | boolean (b : Bool)
  | number (n : Number)
  | string (s : String)
  | sequence
  | map
  deriving DecidableEq

inductive Key where
  | text (value : Except Fault String) (stop : Option Fault)
  /-- Something else, with which the object stops. -/
  | other
  | absent

/-- The tree of a text as far as it is JSON. The `stop` of a value is the fault after what could be
read of it. -/
inductive Reading where
  | atom (value : Except Fault Atom) (stop : Option Fault)
  | string (value : Except Fault String) (stop : Option Fault)
  | array (items : List Reading) (stop : Option Fault)
  | object (members : List (Key × Reading)) (stop : Option Fault)
  | missing (fault : Fault)

namespace Reading

/-- An array or object that is being read: its items or members so far, latest first. -/
inductive Frame where
  | array (items : List Reading)
  /-- The value of the given key is still to come. -/
  | member (members : List (Key × Reading)) (key : Key)
  /-- No key is waiting for its value. -/
  | object (members : List (Key × Reading))

def Frame.close (stop : Option Fault) : Frame → Reading
  | .array items => .array items.reverse stop
  | .member members _ => .object members.reverse stop
  | .object members => .object members.reverse stop

/-- A frame with a value in the place where one was expected. -/
def Frame.add (value : Reading) : Frame → Frame
  | .array items => .array (value :: items)
  | .member members key => .object ((key, value) :: members)
  | .object members => .object members

inductive Expected where
  | value
  | itemOrEnd
  | key
  | keyOrEnd
  | colon
  /-- A comma, or the end of the innermost frame. -/
  | separator

inductive State where
  /-- Inside of these frames, innermost first. -/
  | inside (frames : List Frame) (expected : Expected)
  /-- At the end of the outermost value; more would be too much. -/
  | complete (value : Reading)
  /-- Beyond the outermost value. -/
  | surplus (value : Reading)
  /-- At a fault that stops every reader. -/
  | stopped (value : Reading)

/-- The tree of a value in frames that all end at a fault. -/
def abandon (fault : Fault) (value : Reading) : List Frame → Reading
  | [] => value
  | frame :: rest => abandon fault ((frame.add value).close (some fault)) rest

def afterValue (value : Reading) : List Frame → State
  | [] => .complete value
  | frame :: rest => .inside (frame.add value :: rest) .separator

def stopAt (fault : Fault) (frames : List Frame) : Expected → State
  | .value | .itemOrEnd | .colon => .stopped (abandon fault (.missing fault) frames)
  | .key | .keyOrEnd | .separator =>
    match frames with
    | [] => .stopped (.missing fault)
    | frame :: rest => .stopped (abandon fault (frame.close (some fault)) rest)

def afterScalar (value : Reading) (stop : Option Fault) (frames : List Frame) : State :=
  match stop with
  | none => afterValue value frames
  | some fault => .stopped (abandon fault value frames)

def readValue (frames : List Frame) (expected : Expected) : Lexeme → State
  | .beginArray => .inside (.array [] :: frames) .itemOrEnd
  | .beginObject => .inside (.object [] :: frames) .keyOrEnd
  | .string value stop => afterScalar (.string value stop) stop frames
  | .atom value stop => afterScalar (.atom value stop) stop frames
  | .endArray | .endObject | .comma | .colon | .junk => stopAt .malformed frames expected

def keyOf : Lexeme → Key
  | .string value stop => .text value stop
  | _ => .other

def readKey (members : List (Key × Reading)) (rest : List Frame) (lexeme : Lexeme) : State :=
  let key := keyOf lexeme
  match key with
  | .text _ none => .inside (.member members key :: rest) .colon
  | .text _ (some fault) =>
    .stopped (abandon fault (.object ((key, .missing fault) :: members).reverse (some fault)) rest)
  | _ =>
    .stopped (abandon .malformed
      (.object ((key, .missing .malformed) :: members).reverse (some .malformed)) rest)

def State.step (state : State) (lexeme : Lexeme) : State :=
  match state with
  | .stopped value => .stopped value
  | .surplus value => .surplus value
  | .complete value => .surplus value
  | .inside frames expected =>
    match expected, frames, lexeme with
    | .itemOrEnd, frame :: rest, .endArray => afterValue (frame.close none) rest
    | .keyOrEnd, frame :: rest, .endObject => afterValue (frame.close none) rest
    | .value, _, _ => readValue frames expected lexeme
    | .itemOrEnd, _, _ => readValue frames expected lexeme
    | .key, .object members :: rest, _ => readKey members rest lexeme
    | .keyOrEnd, .object members :: rest, _ => readKey members rest lexeme
    | .colon, _, .colon => .inside frames .value
    | .separator, .array items :: rest, .comma => .inside (.array items :: rest) .value
    | .separator, .array items :: rest, .endArray =>
      afterValue (Frame.close none (.array items)) rest
    | .separator, .object members :: rest, .comma => .inside (.object members :: rest) .key
    | .separator, .object members :: rest, .endObject =>
      afterValue (Frame.close none (.object members)) rest
    | _, _, _ => stopAt .malformed frames expected

/-- The tree at the end of the lexemes, and whether there were more than one value's. -/
def State.finish : State → Reading × Bool
  | .complete value | .stopped value => (value, false)
  | .surplus value => (value, true)
  | .inside frames expected =>
    match expected, frames with
    | .key, .object members :: rest | .keyOrEnd, .object members :: rest =>
      (abandon .ended
        (.object ((.absent, .missing .ended) :: members).reverse (some .ended)) rest, false)
    | _, _ =>
      match stopAt .ended frames expected with
      | .stopped value => (value, false)
      | _ => (.missing .ended, false)

/-- Reads a text as far as it is JSON; the flag tells whether something follows the value. -/
def ofText (text : String) : Reading × Bool :=
  ((lex text.toList).foldl State.step (.inside [] .value)).finish

def found : Reading → Except Fault Found
  | .atom value _ => value.map fun
    | .null => .null
    | .boolean b => .boolean b
    | .number n => .number n
  | .string value _ => value.map .string
  | .array _ _ => .ok .sequence
  | .object _ _ => .ok .map
  | .missing fault => .error fault

def isNull : Reading → Bool
  | .atom (.ok .null) _ => true
  | _ => false

mutual

/-- The fault that a reader meets that skips the value. -/
def skipFault : Reading → Option Fault
  | .atom _ stop => stop
  | .string _ stop => stop
  | .array items stop => (skipFaultItems items).or stop
  | .object members stop => (skipFaultMembers members).or stop
  | .missing fault => some fault

def skipFaultItems : List Reading → Option Fault
  | [] => none
  | item :: rest => (skipFault item).or (skipFaultItems rest)

def skipFaultMembers : List (Key × Reading) → Option Fault
  | [] => none
  | (key, value) :: rest =>
    match key with
    | .text _ stop => stop.or ((skipFault value).or (skipFaultMembers rest))
    | .other => some .malformed
    | .absent => some .ended

end

def keyText : Key → Except Fault String
  | .text value _ => value
  | .other => .error .malformed
  | .absent => .error .ended

mutual

/-- The fault that a reader meets that wants all of the value, with no more than `levels` arrays
and objects inside of one another. -/
def valueFault (levels : Nat) : Reading → Option Fault
  | .atom (.error fault) _ => some fault
  | .atom (.ok _) stop => stop
  | .string (.error fault) _ => some fault
  | .string (.ok _) stop => stop
  | .array items stop =>
    if levels = 0 then some .malformed else (valueFaultItems (levels - 1) items).or stop
  | .object members stop =>
    if levels = 0 then some .malformed else (valueFaultMembers (levels - 1) members).or stop
  | .missing fault => some fault

def valueFaultItems (levels : Nat) : List Reading → Option Fault
  | [] => none
  | item :: rest => (valueFault levels item).or (valueFaultItems levels rest)

def valueFaultMembers (levels : Nat) : List (Key × Reading) → Option Fault
  | [] => none
  | (key, value) :: rest =>
    match keyText key with
    | .error fault => some fault
    | .ok _ => (valueFault levels value).or (valueFaultMembers levels rest)

end

end Reading

end QuotePress.Json
