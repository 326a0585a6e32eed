import QuotePress.Files.Path

/-! # The arguments of a command line

The first argument names a command. Arguments after it are options, which start with a hyphen, or
positional; after two hyphens alone all are positional. An argument is held back until the next one
starts, and is checked only then. -/
namespace QuotePress

inductive Command where
  | exportQuote (quote : Path) (directory : Option Path)
  /-- Shows a quote in a frame, with the saved template or one in a file. -/
  | preview (quote : Path) (template : Option Path)
  | setTemplate (template : Path)
  | clearTemplate
  | placeholders (template : Option Path)
  | setDefault (choice : String)
  deriving DecidableEq, Repr

inductive UsageFault where
  | helpWanted
  | noCommand
  | unknownCommand
  | unknownArgument
  | missingArgument
  /-- An option without its value, or an empty path. -/
  | badValue
  | repeated
  | surplusValue
  deriving DecidableEq, Repr

def UsageFault.message : UsageFault → String
  | .helpWanted | .noCommand =>
    "usage: export QUOTE [--out-dir DIR] | preview QUOTE [--template FILE] | set-template FILE" ++
      " | clear-template | placeholders [FILE] | set-default CHOICE"
  | .unknownCommand => "unknown command"
  | .unknownArgument => "unexpected argument"
  | .missingArgument => "a required argument is missing"
  | .badValue => "a value is required"
  | .repeated => "an option is given twice"
  | .surplusValue => "an option takes no value"

namespace Arguments

inductive Kind where
  /-- Two hyphens alone. -/
  | escape
  | long (name : String) (value : Option String)
  /-- Short options; only the first one counts. -/
  | short (first : Char)
  | plain

/-- The text before the first equals sign, and the text after it if there is one. -/
def splitEquals : List Char → List Char × Option (List Char)
  | [] => ([], none)
  | c :: rest =>
    if c = '=' then ([], some rest)
    else
      let (before, after) := splitEquals rest
      (c :: before, after)

/-- The kind of an argument. A single hyphen is no option. -/
def kind (argument : String) : Kind :=
  match argument.toList with
  | ['-', '-'] => .escape
  | '-' :: '-' :: rest =>
    let (name, value) := splitEquals rest
    .long (String.ofList name) (value.map String.ofList)
  | '-' :: c :: _ => .short c
  | _ => .plain

structure Shape where
  positional : Bool
  isPath : Bool
  option : Option String

inductive Pending where
  | nothing
  | positional (value : String)
  | option (value : Option String)

structure State where
  positional : Option String
  option : Option String
  pending : Pending
  started : Bool
  /-- Whether all that follows is positional. -/
  escaped : Bool

def State.start : State := ⟨none, none, .nothing, false, false⟩

def State.setOption (s : State) (value : String) : Except UsageFault State :=
  if s.option.isSome then .error .repeated
  else if value.isEmpty then .error .badValue
  else .ok { s with option := some value }

/-- Checks the argument that is held back. -/
def State.settle (shape : Shape) (s : State) : Except UsageFault State :=
  let settled := { s with pending := .nothing }
  match s.pending with
  | .nothing => .ok settled
  | .positional value =>
    if shape.isPath ∧ value.isEmpty then .error .badValue
    else .ok { settled with positional := some value }
  | .option none => .error .badValue
  | .option (some value) => settled.setOption value

def State.addPositional (shape : Shape) (s : State) (argument : String) :
    Except UsageFault State :=
  if shape.positional ∧ !s.started then do
    return { ← s.settle shape with pending := .positional argument, started := true }
  else .error .unknownArgument

/-- Takes a plain argument: the value that an option waits for, or a positional one. -/
def State.addPlain (shape : Shape) (s : State) (argument : String) : Except UsageFault State :=
  match s.pending with
  | .option none => .ok { s with pending := .option (some argument) }
  | _ => s.addPositional shape argument

def State.addLong (shape : Shape) (s : State) (name : String) (value : Option String) :
    Except UsageFault State :=
  if shape.option = some name then do
    let s ← s.settle shape
    match value with
    | some value => s.setOption value
    | none => return { s with pending := .option none }
  else if name = "help" then
    if value.isSome then .error .surplusValue
    else do
      let _ ← s.settle shape
      .error .helpWanted
  else .error .unknownArgument

def State.add (shape : Shape) (s : State) (argument : String) : Except UsageFault State :=
  if s.escaped then s.addPositional shape argument
  else match kind argument with
    | .escape => .ok { s with escaped := true }
    | .long name value => s.addLong shape name value
    | .short c =>
      if c = 'h' then do
        let _ ← s.settle shape
        .error .helpWanted
      else .error .unknownArgument
    | .plain => s.addPlain shape argument

def State.addAll (shape : Shape) : List String → State → Except UsageFault State
  | [], s => s.settle shape
  | argument :: rest, s => do addAll shape rest (← s.add shape argument)

/-- A command by its name: what it takes, and what it makes of it. -/
structure Entry where
  name : String
  shape : Shape
  make : (positional option : Option String) → Except UsageFault Command

/-- A required argument. -/
def required : Option String → Except UsageFault String
  | some value => .ok value
  | none => .error .missingArgument

def commands : List Entry :=
  [⟨"export", ⟨true, true, some "out-dir"⟩, fun quote directory => do
      return .exportQuote ⟨← required quote⟩ (directory.map Path.mk)⟩,
   ⟨"preview", ⟨true, true, some "template"⟩, fun quote template => do
      return .preview ⟨← required quote⟩ (template.map Path.mk)⟩,
   ⟨"set-template", ⟨true, true, none⟩, fun template _ => do
      return .setTemplate ⟨← required template⟩⟩,
   ⟨"clear-template", ⟨false, false, none⟩, fun _ _ => return .clearTemplate⟩,
   ⟨"placeholders", ⟨true, true, none⟩, fun template _ =>
      return .placeholders (template.map Path.mk)⟩,
   ⟨"set-default", ⟨true, false, none⟩, fun choice _ => do
      return .setDefault (← required choice)⟩]

def find? (name : String) : Option Entry :=
  commands.find? (·.name = name)

/-- Whether a name is that of a command, or asks for help. -/
def isCommandName (name : String) : Bool :=
  name = "help" || (find? name).isSome

/-- What the arguments after `help` amount to: at most one command to be explained. -/
def help : List String → UsageFault
  | [] => .helpWanted
  | [name] => if isCommandName name then .helpWanted else .unknownCommand
  | _ => .unknownCommand

/-- The command after two hyphens, where no command can stand. -/
def afterEscape : List String → UsageFault
  | [] => .noCommand
  | name :: _ => if isCommandName name then .unknownArgument else .unknownCommand

end Arguments

def Command.ofArguments : List String → Except UsageFault Command
  | [] => .error .noCommand
  | first :: rest =>
    if first = "help" then .error (Arguments.help rest)
    else match Arguments.find? first with
    | some entry => do
      let s ← Arguments.State.addAll entry.shape rest .start
      entry.make s.positional s.option
    | none =>
      match Arguments.kind first with
      | .escape => .error (Arguments.afterEscape rest)
      | .long name value =>
        if name = "help" then .error (if value.isSome then .surplusValue else .helpWanted)
        else .error .unknownArgument
      | .short c => .error (if c = 'h' then .helpWanted else .unknownArgument)
      | .plain => .error .unknownCommand

end QuotePress
