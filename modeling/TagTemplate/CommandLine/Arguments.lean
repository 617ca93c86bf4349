/-! The arguments of the command line: one template name, options that take a value
and may stand once, and a flag that may be repeated. -/

namespace TagTemplate

/-- The options that take a value. -/
inductive Switch where
  | config
  | folder
  | extension
  | data
  | strings
  | form
  | output
  deriving DecidableEq, Repr

namespace Switch

def ofLong? (name : String) : Option Switch :=
  match name with
  | "config" => some config
  | "template-dir" => some folder
  | "extension" => some extension
  | "data" => some data
  | "strings" => some strings
  | "form" => some form
  | "output" => some output
  | _ => none

def ofShort? (c : Char) : Option Switch :=
  match c with
  | 'c' => some config
  | 'd' => some folder
  | 'e' => some extension
  | 'o' => some output
  | _ => none

/-- Paths are not empty; an extension may be. -/
def admits (s : Switch) (value : String) : Bool :=
  s == extension || value != ""

end Switch

/-- The template name, once it has come, and the values of options in their order. -/
structure Arguments where
  name : Option String
  values : List (Switch × String)
  deriving DecidableEq, Repr

/-- What a command line asks for. -/
inductive Invocation where
  | help
  | render (name : String) (values : List (Switch × String))
  deriving DecidableEq, Repr

namespace Arguments

def empty : Arguments := ⟨none, []⟩

/-- An option stands once, with a value it admits. -/
def set? (a : Arguments) (s : Switch) (value : String) : Option Arguments :=
  if (a.values.lookup s).isNone && s.admits value then
    some { a with values := a.values ++ [(s, value)] }
  else none

/-- A second name is one too many. -/
def addName? (a : Arguments) (name : String) : Option Arguments :=
  if a.name.isNone then some { a with name } else none

/-- What an argument that starts with a dash comes to. -/
inductive Effect where
  | help
  | done (a : Arguments)
  | wants (s : Switch)

/-- An option by its long name, and the value that is attached to it. -/
def long? (a : Arguments) (name : String) (value : Option String) : Option Effect :=
  match name, value with
  | "verbose", none => some (.done a)
  | "help", none => some .help
  | _, _ => do
    let s ← Switch.ofLong? name
    match value with
    | some v => return .done (← a.set? s v)
    | none => return .wants s

/-- Flags and options by their letters; what follows the letter of an option is its
value, up to an equals sign that may stand in between. -/
def short? (a : Arguments) : List Char → Option Effect
  | [] => some (.done a)
  | c :: cs =>
    if c = 'v' then short? a cs
    else if c = 'h' then some .help
    else do
      let s ← Switch.ofShort? c
      match cs with
      | [] => return .wants s
      | '=' :: value => return .done (← a.set? s (String.ofList value))
      | value => return .done (← a.set? s (String.ofList value))

/-- What an argument does that is no value; a dash alone is a name. -/
def effect? (a : Arguments) (argument : String) : Option Effect :=
  match argument.toList with
  | '-' :: '-' :: cs =>
    match cs.dropWhile (· != '=') with
    | [] => long? a (String.ofList cs) none
    | _ :: value =>
      long? a (String.ofList (cs.takeWhile (· != '='))) (some (String.ofList value))
  | '-' :: c :: cs => short? a (c :: cs)
  | _ => (a.addName? argument).map .done

/-- Whether an argument can be the value of an option in front of it. -/
def isValue (argument : String) : Bool :=
  argument == "-" || argument.toList.head? != some '-'

def finish? (a : Arguments) : Option Invocation :=
  a.name.map (.render · a.values)

/-- Two dashes end the options. -/
def read? (a : Arguments) : List String → Option Invocation
  | [] => a.finish?
  | "--" :: rest => (rest.foldlM addName? a).bind finish?
  | argument :: rest =>
    match effect? a argument, rest with
    | some .help, _ => some .help
    | some (.done a), rest => read? a rest
    | some (.wants s), value :: rest =>
      if isValue value then (a.set? s value).bind (read? · rest) else none
    | _, _ => none

end Arguments

/-- Reads the arguments of a command line, the program's name not among them. -/
def Invocation.ofArguments? (arguments : List String) : Option Invocation :=
  Arguments.empty.read? arguments

end TagTemplate
