import TagTemplate.Error
import TagTemplate.Expr.Comparison
import TagTemplate.Text.Cut

/-! Conditions: words around exactly one comparison operator. -/

namespace TagTemplate

/-- The left side: text in quotes, or a reference. -/
inductive Operand where
  | literal (text : String)
  | reference (raw : String)
  deriving DecidableEq, Repr

structure Condition where
  left : Operand
  operator : Comparison
  right : String
  deriving DecidableEq, Repr

def joinWords (tokens : List String) : String :=
  " ".intercalate tokens

/-- The text between the quotes it starts and ends with. -/
def unquote? (s : String) : Option String :=
  match s.toList with
  | '"' :: cs => (dropEnd? '"' cs).map String.ofList
  | _ => none

namespace Condition

/-- The words before the first operator, the operator, and the words after it. -/
def split? : List String → Option (List String × Comparison × List String)
  | [] => none
  | t :: ts =>
    match Comparison.ofToken? t with
    | some c => some ([], c, ts)
    | none => (split? ts).map fun r => (t :: r.1, r.2)

def parse (tokens : List String) : Except RenderFault Condition :=
  match split? tokens with
  | none => .error (.malformedExpression (joinWords tokens))
  | some (before, operator, after) =>
    if (split? after).isSome then .error (.multipleOperators (joinWords tokens))
    else if before = [] then .error (.malformedExpression (joinWords tokens))
    else
      let left := joinWords before
      let right := joinWords after
      .ok
        { left := match unquote? left with
            | some text => .literal text
            | none => .reference left
          operator
          right := (unquote? right).getD right }

end Condition

end TagTemplate
