import TagTemplate.Error
import TagTemplate.Template.Draft

/-! Compiled templates. -/

namespace TagTemplate

structure Template where
  name : String
  source : String
  roots : List Node

/-- A misnesting as an error about a source, with line and column counted from one. -/
def NestingFault.toError (f : NestingFault) (source : List Char)
    (name : String) : TemplateError :=
  let place := locate? source f.offset
  .misnested name f.offset ((place.map (·.row)).getD 0 + 1) ((place.map (·.column)).getD 0 + 1)
    f.cause.message

namespace Template

/-- What errors call a template that was given no name. -/
def anonymous : String := "<template>"

def ofSource (source : List Char) : Except NestingFault (List Node) := do
  (← Draft.empty.ofPieces (pieces source)).finish

def compile (source name : String) : Except TemplateError Template :=
  match ofSource source.toList with
  | .ok roots => .ok ⟨name, source, roots⟩
  | .error fault => .error (fault.toError source.toList name)

/-- The number of nodes and branches. -/
def size (t : Template) : Nat :=
  Node.sizeAll t.roots

def parts (t : Template) : List Part :=
  Node.partsAll t.roots

/-- The node or branch with a number. -/
def part? (t : Template) (id : Nat) : Option Part :=
  t.parts.find? fun p => p.site.id == id

end Template

end TagTemplate
