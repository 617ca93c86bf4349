import TagTemplate.Expr.Reference
import TagTemplate.Render.Scope

/-! Looking references up. A key is looked for in the item of the innermost loop of
that name, a plain name in the tables first and among the loop items then. -/

namespace TagTemplate

inductive Lookup where
  | found (v : Value)
  | noCollection
  | notIndexable (item : Value)
  | missing

/-- What kind of value a place in a template needs. -/
inductive Expected where
  | scalar
  | container
  deriving DecidableEq, Repr

def Expected.description : Expected → String
  | scalar => "a scalar value"
  | container => "a list or map"

def Expected.accepts (e : Expected) (v : Value) : Bool :=
  match e with
  | scalar => !v.isContainer
  | container => v.isContainer

def typeMismatch (name : String) (e : Expected) (found : Value) : RenderFault :=
  .typeMismatch name e.description found.kind

namespace Scope

def lookup (s : Scope) (r : Reference) : Lookup :=
  match r.key with
  | some key =>
    match s.frame? r.name with
    | none => .noCollection
    | some f =>
      if f.item.isContainer then
        match f.item.get? key with
        | some v => .found v
        | none => .missing
      else .notIndexable f.item
  | none =>
    match (s.data? r.name).or ((s.frame? r.name).map (·.item)) with
    | some v => .found v
    | none => .missing

def isSet : Lookup → Bool
  | .found v => !v.isNull
  | _ => false

def isEmpty : Lookup → Bool
  | .found v => v.isEmpty
  | _ => true

/-- The value of a plain reference, if it is of the expected kind. -/
def fetch (s : Scope) (raw : String) (r : Reference) (e : Expected) : Except RenderFault Value :=
  match s.lookup r with
  | .found v => if e.accepts v then .ok v else .error (typeMismatch raw e v)
  | .notIndexable item => .error (typeMismatch r.name .container item)
  | .noCollection => .error (.collectionNotFound r.name)
  | .missing => .error (.variableNotFound raw)

/-- The tests for being set and being empty always answer with a boolean. -/
def resolve (s : Scope) (raw : String) (e : Expected) : Except RenderFault Value := do
  let r ← Reference.parse raw
  match r.operation with
  | .fetch => s.fetch raw r e
  | .isSet => return .bool (isSet (s.lookup r))
  | .isEmpty => return .bool (isEmpty (s.lookup r))

/-- The container a loop runs over; the answer of a test is none. -/
def collection (s : Scope) (raw : String) : Except RenderFault Value := do
  let r ← Reference.parse raw
  match r.operation with
  | .fetch => s.fetch raw r .container
  | .isSet | .isEmpty => throw (.typeMismatch raw Expected.container.description "boolean")

end Scope

end TagTemplate
