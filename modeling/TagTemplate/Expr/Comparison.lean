/-! Comparison operators, and when they hold of the outcome of a comparison. -/

namespace TagTemplate

inductive Comparison where
  | eq
  | ne
  | lt
  | gt
  | le
  | ge
  deriving DecidableEq, Repr

namespace Comparison

def ofToken? : String → Option Comparison
  | "=" | "==" => some eq
  | "!=" => some ne
  | "<" => some lt
  | ">" => some gt
  | "<=" => some le
  | ">=" => some ge
  | _ => none

/-- Of two things that cannot be compared only "not equal" holds. -/
def holds : Comparison → Option Ordering → Bool
  | c, none => c == ne
  | eq, some o => o == .eq
  | ne, some o => o != .eq
  | lt, some o => o == .lt
  | gt, some o => o == .gt
  | le, some o => o != .gt
  | ge, some o => o != .lt

end Comparison

end TagTemplate
