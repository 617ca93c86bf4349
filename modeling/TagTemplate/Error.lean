/-! What can go wrong, by cause, and the sentence that reports it. -/

namespace TagTemplate

/-- Why the evaluation of a tag failed. -/
inductive RenderFault where
  | variableNotFound (reference : String)
  | collectionNotFound (name : String)
  | typeMismatch (name expected found : String)
  | unknownOperation (name : String)
  | malformedExpression (text : String)
  | multipleOperators (text : String)
  | malformedLoop (text : String)
  | missingFieldName
  deriving DecidableEq, Repr

def RenderFault.message : RenderFault → String
  | variableNotFound r => s!"variable not found: {r}"
  | collectionNotFound n => s!"collection not found: {n}"
  | typeMismatch n expected found =>
    s!"type mismatch for '{n}': expected {expected}, found {found}"
  | unknownOperation n => s!"unknown variable operation '{n}' (expected isset or isempty)"
  | malformedExpression t => s!"malformed expression '{t}'"
  | multipleOperators t => s!"more than one comparison operator in expression '{t}'"
  | malformedLoop t => s!"malformed foreach statement '{t}' (expected 'item in collection')"
  | missingFieldName => "input field is missing the mandatory name attribute"

/-- A failure of some template, located in its source where it has a place there. -/
inductive TemplateError where
  | misnested (template : String) (offset line column : Nat) (reason : String)
  | evaluation (template : String) (offset : Nat) (fault : RenderFault)
  | notFound (template : String)
  | unreadable (template reason : String)
  | settings (reason : String)
  deriving DecidableEq, Repr

namespace TemplateError

/-- The full sentence. -/
def sentence : TemplateError → String
  | misnested t _ line column reason =>
    s!"Syntax error in template '{t}' at line {line}, column {column}: {reason}"
  | evaluation t offset fault =>
    s!"Evaluation error in template '{t}' at offset {offset}: {fault.message}"
  | notFound t => s!"Template not found: {t}"
  | unreadable t reason => s!"Failed to read template '{t}': {reason}"
  | settings reason => s!"Invalid configuration: {reason}"

/-- The sentence without the place, for errors that have one. -/
def message : TemplateError → String
  | misnested _ _ _ _ reason => reason
  | evaluation _ _ fault => fault.message
  | e => e.sentence

def offset? : TemplateError → Option Nat
  | misnested _ offset _ _ _ | evaluation _ offset _ => some offset
  | _ => none

def template? : TemplateError → Option String
  | misnested t _ _ _ _ | evaluation t _ _ | notFound t | unreadable t _ => some t
  | settings _ => none

end TemplateError

end TagTemplate
