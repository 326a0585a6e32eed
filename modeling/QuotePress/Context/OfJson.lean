import QuotePress.Context
import QuotePress.Json.Decode

/-! # Contexts and values from JSON

A context is a flat object: its members are scalars, or arrays of objects whose members are
scalars. -/
namespace QuotePress

open Json (Decoder Reading)

def Value.toJson : Value → Json
  | .text s => .string s
  | .number x => .real x
  | .boolean b => .boolean b
  | .null => .null

def Value.ofJson? : Json → Option Value
  | .null => some .null
  | .boolean b => some (.boolean b)
  | .integer n => some (.number (Float.ofInt n))
  | .real x => some (.number x)
  | .string s => some (.text s)
  | .array _ => none
  | .object _ => none

def Value.decoder : Decoder Value := fun levels reading => do
  match Value.ofJson? (← Decoder.any levels reading) with
  | some v => return v
  | none => .error (.mismatch (.noVariant "Value"))

def Json.kindName : Json → String
  | .null => "null"
  | .boolean _ => "boolean"
  | .integer _ => "number"
  | .real _ => "number"
  | .string _ => "string"
  | .array _ => "array"
  | .object _ => "object"

inductive ContextFault where
  | unreadable (e : Json.DecodeError)
  | notAnObject (kind : String)
  | unsupported (field kind : String)
  | listItem (list : String) (index : Nat) (kind : String)
  | nested (list : String) (index : Nat) (field : String)
  deriving DecidableEq

def ContextFault.message : ContextFault → String
  | .unreadable e => s!"JSON parse error: {e.message}"
  | .notAnObject kind => s!"Context root must be a JSON object, got {kind}"
  | .unsupported field kind => s!"Unsupported value for field '{field}': {kind}"
  | .listItem list index kind => s!"List '{list}' item {index} must be an object, got {kind}"
  | .nested list index field => s!"List '{list}' item {index} field '{field}' must be a scalar"

/-- The members of an object in ascending order of their names; the last of repeated names
counts. -/
def Json.sortedMembers (members : List (String × Json)) : List (String × Json) :=
  (NameMap.ofList members).entries

namespace Context

def recordOf (list : String) (index : Nat) :
    List (String × Json) → Record → Except ContextFault Record
  | [], record => .ok record
  | (field, json) :: rest, record =>
    match Value.ofJson? json with
    | some v => recordOf list index rest (record.insert field v)
    | none => .error (.nested list index field)

/-- The records of the items of a list, numbered on from `index`. -/
def recordsOf (list : String) : (index : Nat) → List Json → Except ContextFault (List Record)
  | _, [] => .ok []
  | index, .object members :: rest => do
    let record ← recordOf list index (Json.sortedMembers members) NameMap.empty
    return record :: (← recordsOf list (index + 1) rest)
  | index, item :: _ => .error (.listItem list index item.kindName)

def bindMembers : List (String × Json) → Context → Except ContextFault Context
  | [], c => .ok c
  | (name, .array items) :: rest, c => do
    bindMembers rest (c.bindList name (← recordsOf name 0 items))
  | (name, json) :: rest, c =>
    match Value.ofJson? json with
    | some v => bindMembers rest (c.bind name v)
    | none => .error (.unsupported name json.kindName)

def ofJson : Json → Except ContextFault Context
  | .object members => bindMembers (Json.sortedMembers members) NameMap.empty
  | json => .error (.notAnObject json.kindName)

def read (text : String) : Except ContextFault Context :=
  match Json.decode Decoder.any text with
  | .ok json => ofJson json
  | .error e => .error (.unreadable e)

end Context

end QuotePress
