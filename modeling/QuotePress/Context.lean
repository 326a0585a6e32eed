import QuotePress.NameMap
import QuotePress.Value

/-! # What names stand for

A context binds every name to one scalar value or to one list of records. A record binds names to
scalar values only, so a loop body never sees a list. -/
namespace QuotePress

abbrev Record := NameMap Value

inductive Binding where
  | scalar (v : Value)
  | list (records : List Record)
  deriving DecidableEq

/-- The bindings of a whole document; a name has one binding at most. -/
abbrev Context := NameMap Binding

namespace Binding

def scalar? : Binding → Option Value
  | .scalar v => some v
  | .list _ => none

def list? : Binding → Option (List Record)
  | .scalar _ => none
  | .list records => some records

/-- A list is truthy unless it is empty. -/
def isTruthy : Binding → Bool
  | .scalar v => v.isTruthy
  | .list records => !records.isEmpty

end Binding

namespace Context

def bind (c : Context) (name : String) (v : Value) : Context :=
  c.insert name (.scalar v)

def bindList (c : Context) (name : String) (records : List Record) : Context :=
  c.insert name (.list records)

def bindAll (values : List (String × Value)) (c : Context) : Context :=
  values.foldl (fun (c : Context) entry => c.bind entry.1 entry.2) c

def value? (c : Context) (name : String) : Option Value :=
  (c.get? name).bind Binding.scalar?

def list? (c : Context) (name : String) : Option (List Record) :=
  (c.get? name).bind Binding.list?

def isTruthy (c : Context) (name : String) : Bool :=
  ((c.get? name).map Binding.isTruthy).getD false

end Context

/-- Where a template looks names up: in a whole document or in one record. Nothing is looked up
outside of the scope. -/
inductive Scope where
  | document (c : Context)
  | record (r : Record)

namespace Scope

def value? : Scope → String → Option Value
  | .document c, name => c.value? name
  | .record r, name => r.get? name

/-- The list of a name; a record has none. -/
def list? : Scope → String → Option (List Record)
  | .document c, name => c.list? name
  | .record _, _ => none

def isTruthy : Scope → String → Bool
  | .document c, name => c.isTruthy name
  | .record r, name => ((r.get? name).map Value.isTruthy).getD false

end Scope

end QuotePress
