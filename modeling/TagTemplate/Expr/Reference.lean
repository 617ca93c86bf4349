import TagTemplate.Error
import TagTemplate.Text.Cut

/-! References to variables: a name, or a key of a loop item in brackets, behind an
optional operation that is set off by a bar. -/

namespace TagTemplate

inductive Operation where
  | fetch
  | isSet
  | isEmpty
  deriving DecidableEq, Repr

structure Reference where
  operation : Operation
  name : String
  key : Option String
  deriving DecidableEq, Repr

namespace Reference

/-- Name and key of a target. The key runs from the first opening bracket to a closing
one at the very end, and the name before it is not empty; else all of it is the name. -/
def target (cs : List Char) : String × Option String :=
  match (dropEnd? ']' cs).bind (cutAt? '[') with
  | some (c :: name, key) => (String.ofList (c :: name), some (String.ofList key))
  | _ => (String.ofList cs, none)

def parse (raw : String) : Except RenderFault Reference :=
  let build (operation : Operation) (cs : List Char) : Reference :=
    let (name, key) := target cs
    ⟨operation, name, key⟩
  match cutAt? '|' raw.toList with
  | none => .ok (build .fetch raw.toList)
  | some (operation, cs) =>
    match String.ofList operation with
    | "isset" => .ok (build .isSet cs)
    | "isempty" => .ok (build .isEmpty cs)
    | other => .error (.unknownOperation other)

end Reference

end TagTemplate
