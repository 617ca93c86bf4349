import TagTemplate.Number.Decimal
import TagTemplate.Number.Scaling
import TagTemplate.Value.Basic

/-! Numbers as JSON documents write them, and their values. Of its digits a numeral keeps
those that a word of 64 bits can take in; the others count only for its size. -/

namespace TagTemplate.Json

/-- Digits before and after the point, and the exponent, if one is written. -/
structure Numeral where
  negative : Bool
  whole : List Char
  fraction : List Char
  exponent : Option Int
  deriving DecidableEq, Repr

/-- Appends digits to a number while it stays below the limit of a word; the others are
left over. -/
def absorb (n : Nat) : List Char → Nat × List Char
  | [] => (n, [])
  | d :: ds =>
    let next := 10 * n + Decimal.ofDigits [d]
    if next < twoTo 64 then absorb next ds else (n, d :: ds)

namespace Numeral

/-- The number with the digits that are kept: each left over in front of the point is a
factor of ten, and those left over behind it are dropped. -/
def kept (n : Numeral) : Decimal :=
  let (digits, large) := absorb 0 n.whole
  let (digits, small) := absorb digits n.fraction
  let places := (n.fraction.length - small.length : Nat)
  ⟨n.negative, digits, large.length - places + n.exponent.getD 0⟩

/-- The integer that is written, unless it has a fraction, an exponent or the sign of
minus zero. -/
def int? (n : Numeral) : Option Int :=
  let m : Int := Decimal.ofDigits n.whole
  if n.fraction = [] ∧ n.exponent = none ∧ ¬ (n.negative ∧ m = 0) then
    some (if n.negative then -m else m)
  else none

def toBinary64 (n : Numeral) : Binary64 :=
  .ofScaled n.negative n.kept.digits n.kept.exponent

/-- An integer of 64 signed bits, or else a double; one past all finite doubles is no
value. -/
def value? (n : Numeral) : Option Value :=
  match n.int?.filter Value.fitsInt with
  | some i => some (.int i)
  | none => if n.toBinary64.isFinite then some (.float n.toBinary64) else none

end Numeral

end TagTemplate.Json
