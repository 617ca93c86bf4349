import TagTemplate.Value.Basic

/-! What a render can see: the tables its caller hands in, and the loop items around
the place it has reached. -/

namespace TagTemplate

structure Inputs where
  strings : Entries String
  data : Entries Value
  /-- These come before entries of `data` with the same name. -/
  globals : Option (Entries Value)
  form : Option (Entries String)

/-- The current item of a loop, under the name the loop gives it. -/
structure Frame where
  name : String
  item : Value

/-- The frames are those of the loops around, innermost first; `settled` holds the
numbers of the conditionals that have chosen a branch. -/
structure Scope where
  inputs : Inputs
  frames : List Frame
  settled : List Nat

namespace Scope

def ofInputs (inputs : Inputs) : Scope :=
  ⟨inputs, [], []⟩

def data? (s : Scope) (name : String) : Option Value :=
  (s.inputs.globals.bind (Entries.get? · name)).or (Entries.get? s.inputs.data name)

def localeText? (s : Scope) (key : String) : Option String :=
  Entries.get? s.inputs.strings key

def submitted? (s : Scope) (field : String) : Option String :=
  s.inputs.form.bind (Entries.get? · field)

def push (s : Scope) (f : Frame) : Scope :=
  { s with frames := f :: s.frames }

def pop (s : Scope) : Scope :=
  { s with frames := s.frames.tail }

/-- The item of the innermost loop that uses a name. -/
def frame? (s : Scope) (name : String) : Option Frame :=
  s.frames.find? fun f => f.name == name

def depth (s : Scope) : Nat :=
  s.frames.length

def isSettled (s : Scope) (id : Nat) : Bool :=
  s.settled.contains id

def settle (s : Scope) (id : Nat) : Scope :=
  { s with settled := if s.settled.contains id then s.settled else id :: s.settled }

def unsettle (s : Scope) (id : Nat) : Scope :=
  { s with settled := s.settled.filter (· != id) }

end Scope

end TagTemplate
