import QuotePress.Json.Reading
import QuotePress.Json.Value
import QuotePress.Text.Printable

/-! # Decoding JSON into typed values

A decoder asks a reading for a value of one shape. Objects are asked for named fields; an array may
stand for an object and gives the fields in their order. -/
namespace QuotePress.Json

inductive Mismatch where
  | kind (found : Found) (expected : String)
  | range (found : Found) (expected : String)
  | length (count : Nat) (expected : String)
  | unknownVariant (name : String) (known : List String)
  | missingField (name : String)
  | duplicateField (name : String)
  | noVariant (type : String)
  | unreadable (reason : String)
  deriving DecidableEq

inductive DecodeError where
  | fault (f : Fault)
  | mismatch (m : Mismatch)
  deriving DecidableEq

/-- A number as an error text shows it; a double is written as in JSON. -/
def Number.describe : Number → String
  | .integer n => s!"integer `{n}`"
  | .real x => s!"floating point `{String.ofList (Json.realText x)}`"

def Found.describe : Found → String
  | .null => "null"
  | .boolean b => s!"boolean `{b}`"
  | .number n => n.describe
  | .string s => s!"string {Text.showQuoted s}"
  | .sequence => "sequence"
  | .map => "map"

def describeKnown : List String → String
  | [] => "there are no variants"
  | [a] => s!"expected `{a}`"
  | [a, b] => s!"expected `{a}` or `{b}`"
  | many => "expected one of " ++ String.intercalate ", " (many.map fun name => s!"`{name}`")

def Mismatch.message : Mismatch → String
  | .kind found expected => s!"invalid type: {found.describe}, expected {expected}"
  | .range found expected => s!"invalid value: {found.describe}, expected {expected}"
  | .length count expected => s!"invalid length {count}, expected {expected}"
  | .unknownVariant name known => s!"unknown variant `{name}`, {describeKnown known}"
  | .missingField name => s!"missing field `{name}`"
  | .duplicateField name => s!"duplicate field `{name}`"
  | .noVariant type => s!"data did not match any variant of untagged enum {type}"
  | .unreadable reason => reason

/-- The text of an error; faults of the form are only told apart by whether the text was over. -/
def DecodeError.message : DecodeError → String
  | .fault .ended => "<eof>"
  | .fault .malformed => "<syntax>"
  | .mismatch m => m.message

abbrev Decoded (α : Type) := Except DecodeError α

/-- Asks a reading for a value; the number tells how many arrays and objects may still open inside
of one another. -/
abbrev Decoder (α : Type) := (levels : Nat) → Reading → Decoded α

def maxLevels : Nat := 127

def checkFault : Option Fault → Decoded Unit
  | none => .ok ()
  | some f => .error (.fault f)

def liftFault {α : Type} : Except Fault α → Decoded α
  | .ok a => .ok a
  | .error f => .error (.fault f)

/-- Decodes a whole text; nothing may follow its value. -/
def decode {α : Type} (decoder : Decoder α) (text : String) : Decoded α := do
  let (reading, surplus) := Reading.ofText text
  let a ← decoder maxLevels reading
  if surplus then .error (.fault .malformed) else return a

namespace Decoder

def wrongKind {α : Type} (expected : String) (reading : Reading) : Decoded α := do
  let found ← liftFault reading.found
  .error (.mismatch (.kind found expected))

def enter (levels : Nat) : Decoded Nat :=
  if levels = 0 then .error (.fault .malformed) else .ok (levels - 1)

/-- A text; `expected` describes what it is to be. -/
def text (expected : String) : Decoder String
  | _, .string value _ => liftFault value
  | _, reading => wrongKind expected reading

def string : Decoder String := text "a string"

def boolean : Decoder Bool
  | _, .atom (.ok (.boolean b)) _ => .ok b
  | _, reading => wrongKind "a boolean" reading

def float : Decoder Float
  | _, .atom (.ok (.number n)) _ => .ok n.toFloat
  | _, reading => wrongKind "f64" reading

def word : Decoder UInt32
  | _, .atom (.ok (.number (.integer n))) _ =>
    if 0 ≤ n ∧ n < UInt32.size then .ok (UInt32.ofNat n.toNat)
    else .error (.mismatch (.range (.number (.integer n)) "u32"))
  | _, reading => wrongKind "u32" reading

def optional {α : Type} (decoder : Decoder α) : Decoder (Option α)
  | levels, reading => if reading.isNull then .ok none else (decoder levels reading).map some

def items {α : Type} (decoder : Decoder α) (levels : Nat) (stop : Option Fault) :
    List Reading → Decoded (List α)
  | [] => do
    checkFault stop
    return []
  | item :: rest => do
    let a ← decoder levels item
    return a :: (← items decoder levels stop rest)

def list {α : Type} (decoder : Decoder α) : Decoder (List α)
  | levels, .array readings stop => do items decoder (← enter levels) stop readings
  | _, reading => wrongKind "a sequence" reading

end Decoder

/-- A named field of a record: how its value is put into the record, and whether the record has no
default for it. -/
structure RecordField (α : Type) where
  name : String
  required : Bool
  put : (levels : Nat) → Reading → α → Decoded α

/-- A field that a decoder reads and a setter puts into the record. -/
def RecordField.of {α β : Type} (name : String) (required : Bool) (decoder : Decoder β)
    (set : β → α → α) : RecordField α :=
  ⟨name, required, fun levels reading a => (decoder levels reading).map fun b => set b a⟩

namespace Decoder

variable {α : Type}

/-- Takes known members into a record and skips the others; a known name may come once. -/
def members (fields : List (RecordField α)) (levels : Nat) (stop : Option Fault) :
    List (Key × Reading) → (seen : List String) → α → Decoded (List String × α)
  | [], seen, a => do
    checkFault stop
    return (seen, a)
  | (key, value) :: rest, seen, a => do
    let name ← liftFault (Reading.keyText key)
    match fields.find? (·.name = name) with
    | none =>
      checkFault value.skipFault
      members fields levels stop rest seen a
    | some field =>
      if name ∈ seen then .error (.mismatch (.duplicateField name))
      else members fields levels stop rest (name :: seen) (← field.put levels value a)

def checkMissing (fields : List (RecordField α)) (seen : List String) : Decoded Unit :=
  match fields.find? fun field => field.required && !seen.contains field.name with
  | some field => .error (.mismatch (.missingField field.name))
  | none => .ok ()

def ofMembers (fields : List (RecordField α)) (start : α) (levels : Nat) (stop : Option Fault)
    (readings : List (Key × Reading)) : Decoded α := do
  let (seen, a) ← members fields levels stop readings [] start
  checkMissing fields seen
  return a

/-- Takes items into a record, field by field, and gives the items that are left. `index` counts
the fields; the array that ends before a required field is too short. -/
def positions (expected : String) (levels : Nat) (stop : Option Fault) :
    (fields : List (RecordField α)) → (index : Nat) → List Reading → α → Decoded (List Reading × α)
  | [], _, rest, a => .ok (rest, a)
  | field :: fields, index, item :: rest, a => do
    positions expected levels stop fields (index + 1) rest (← field.put levels item a)
  | field :: fields, index, [], a => do
    checkFault stop
    if field.required then .error (.mismatch (.length index expected))
    else positions expected levels stop fields (index + 1) [] a

/-- Fails unless an array ends here; a comma is already too much. -/
def checkEnd (stop : Option Fault) : List Reading → Decoded Unit
  | [] => checkFault stop
  | _ :: _ => .error (.fault .malformed)

def countElements (n : Nat) : String :=
  if n = 1 then "1 element" else s!"{n} elements"

/-- A record, from an object by name or from an array by position. -/
def record (name : String) (fields : List (RecordField α)) (start : α) : Decoder α
  | levels, .object readings stop => do
    ofMembers fields start (← enter levels) stop readings
  | levels, .array readings stop => do
    let expected := s!"struct {name} with {countElements fields.length}"
    let (rest, a) ← positions expected (← enter levels) stop fields 0 readings start
    checkEnd stop rest
    return a
  | _, reading => wrongKind s!"struct {name}" reading

def variant {β : Type} (variants : List (String × β)) (name : String) : Decoded β :=
  match variants.lookup name with
  | some b => .ok b
  | none => .error (.mismatch (.unknownVariant name (variants.map Prod.fst)))

/-- One of several named values: its name alone, or an object with the name as its only key and
null as its value. -/
def oneOf (variants : List (String × α)) : Decoder α
  | _, .string value _ => do variant variants (← liftFault value)
  | levels, .object readings stop => do
    let _ ← enter levels
    match readings with
    | [] => .error (.fault (stop.getD .malformed))
    | (key, value) :: rest =>
      let name ← liftFault (Reading.keyText key)
      let a ← variant variants name
      if value.isNull then
        if rest.isEmpty then
          checkFault stop
          return a
        else .error (.fault .malformed)
      else wrongKind "unit" value
  | _, .missing f => .error (.fault f)
  | _, _ => .error (.fault .malformed)

/-- The record behind a tag: its fields, how an error text calls it, and its defaults. -/
structure Tagged (α : Type) where
  /-- The name of the record in error texts; a tag alone needs none. -/
  label : String
  fields : List (RecordField α)
  start : α

def Tagged.ofMembers (tagged : Tagged α) (levels : Nat) (readings : List (Key × Reading)) :
    Decoded α :=
  Decoder.ofMembers tagged.fields tagged.start levels none readings

def Tagged.ofItems (tagged : Tagged α) (levels : Nat) (readings : List Reading) : Decoded α := do
  let count := tagged.fields.length
  let expected := s!"struct variant {tagged.label} with {countElements count}"
  let (rest, a) ← positions expected levels none tagged.fields 0 readings tagged.start
  if rest.isEmpty then return a
  else .error (.mismatch (.length readings.length (countElements count ++ " in sequence")))

/-- The tag of an object and its other members, all of which must be JSON. -/
def splitTag {β : Type} (tag : String) (variants : List (String × β)) (levels : Nat)
    (stop : Option Fault) :
    List (Key × Reading) → Option β → Decoded (Option β × List (Key × Reading))
  | [], seen => do
    checkFault stop
    return (seen, [])
  | (key, value) :: rest, seen => do
    let name ← liftFault (Reading.keyText key)
    if name = tag then
      if seen.isSome then .error (.mismatch (.duplicateField tag))
      else
        let b ← variant variants (← text "variant identifier" levels value)
        splitTag tag variants levels stop rest (some b)
    else
      checkFault (value.valueFault levels)
      let (seen, others) ← splitTag tag variants levels stop rest seen
      return (seen, (key, value) :: others)

/-- One of several records that are told apart by the value of a tag: an object with the tag among
its members, or an array with the tag in front. -/
def tagged (name tag : String) (variants : List (String × Tagged α)) : Decoder α
  | levels, .object readings stop => do
    let levels ← enter levels
    match ← splitTag tag variants levels stop readings none with
    | (none, _) => .error (.mismatch (.missingField tag))
    | (some variant, others) => variant.ofMembers levels others
  | levels, .array readings stop => do
    let levels ← enter levels
    match readings with
    | [] =>
      checkFault stop
      .error (.mismatch (.missingField tag))
    | first :: rest =>
      let variant ← variant variants (← text "variant identifier" levels first)
      checkFault ((Reading.valueFaultItems levels rest).or stop)
      variant.ofItems levels rest
  | _, reading => wrongKind s!"internally tagged enum {name}" reading

mutual

/-- Any value at all. Faults count as null, so they are looked for first. -/
def anyValue : Reading → Json
  | .atom (.ok (.boolean b)) _ => .boolean b
  | .atom (.ok (.number (.integer n))) _ => .integer n
  | .atom (.ok (.number (.real x))) _ => .real x
  | .string (.ok s) _ => .string s
  | .array readings _ => .array (anyItems readings)
  | .object readings _ => .object (anyMembers readings)
  | _ => .null

def anyItems : List Reading → List Json
  | [] => []
  | item :: rest => anyValue item :: anyItems rest

def anyMembers : List (Key × Reading) → List (String × Json)
  | [] => []
  | (key, value) :: rest =>
    match Reading.keyText key with
    | .ok name => (name, anyValue value) :: anyMembers rest
    | .error _ => anyMembers rest

end

def any : Decoder Json
  | levels, reading => do
    checkFault (reading.valueFault levels)
    return anyValue reading

end Decoder

end QuotePress.Json
