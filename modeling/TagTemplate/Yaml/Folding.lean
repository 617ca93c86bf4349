import TagTemplate.Yaml.Cell

/-! White space inside a scalar. Blanks in a line stay, a line break becomes a space,
and of several breaks all but the first stay. -/

namespace TagTemplate.Yaml

/-- The white space since the last character of a scalar that is no white space. -/
inductive Gap where
  | blanks (cs : List Char)
  | breaks (first : Option Char) (more : List Char)
  deriving DecidableEq, Repr

namespace Gap

def start : Gap := blanks []

/-- A line break that a backslash in front of it takes away. -/
def escaped : Gap := breaks none []

def hasBreak : Gap → Bool
  | blanks _ => false
  | breaks _ _ => true

/-- Blanks around a line break do not count. -/
def addBlank (c : Char) : Gap → Gap
  | blanks cs => blanks (cs ++ [c])
  | g => g

def addBreak (c : Char) : Gap → Gap
  | blanks _ => breaks (some c) []
  | breaks first more => breaks first (more ++ [c])

def add (g : Gap) (c : Char) : Gap :=
  if isBreak c then g.addBreak c else g.addBlank c

def fold : Gap → List Char
  | blanks cs => cs
  | breaks (some '\n') [] => [' ']
  | breaks (some '\n') more => more
  | breaks first more => first.toList ++ more

end Gap

end TagTemplate.Yaml
