import TagTemplate.Error
import TagTemplate.Text.Line
import TagTemplate.Text.Position

/-! What a report of a located error marks: the characters of its tag. -/

namespace TagTemplate

/-- The characters from `start` up to `stop` are marked, and the note says why. -/
structure Snippet where
  title : String
  template : String
  source : List Char
  start : Nat
  stop : Nat
  note : String
  deriving DecidableEq, Repr

/-- The length of the tag at the front of a text; what is no closed tag counts as one
character. -/
def tagLength (cs : List Char) : Nat :=
  if ['\x7b', '%'].isPrefixOf cs && cs.contains '\x7d' then
    (cs.takeWhile (· != '\x7d')).length + 1
  else min 1 cs.length

def TemplateError.title : TemplateError → String
  | .misnested .. => "Syntax error"
  | _ => "Evaluation error"

namespace Snippet

/-- An error without a place in the source has no snippet. -/
def ofError? (e : TemplateError) (source : List Char) : Option Snippet := do
  let offset ← e.offset?
  let rest ← dropBytes? offset source
  let start := charOffset source offset
  return {
    title := e.title
    template := e.template?.getD ""
    source
    start
    stop := start + tagLength rest
    note := e.message }

/-- The line in which the marked characters start. -/
def firstLine? (s : Snippet) : Option Line :=
  lineAt? (lines s.source) s.start

/-- The line in which the marked characters end. -/
def lastLine? (s : Snippet) : Option Line :=
  if s.start < s.stop then lineAt? (lines s.source) (s.stop - 1) else s.firstLine?

/-- Line and column of the first marked character, counted from one. -/
def place? (s : Snippet) : Option (Nat × Nat) :=
  s.firstLine?.map fun l => (l.index + 1, s.start - l.start + 1)

/-- The head of a report: the template and the place. -/
def heading? (s : Snippet) : Option String :=
  s.place?.map fun place => s!"{s.template}:{place.1}:{place.2}"

end Snippet

end TagTemplate
