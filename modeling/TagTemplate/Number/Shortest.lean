import TagTemplate.Number.Decimal

/-! The text of a double: the fewest digits that read back as the same double, of
those the ones nearest to it, a tie going up, written without an exponent. -/

namespace TagTemplate.Binary64

/-- The number of digits before the point of a positive magnitude; for one below a
tenth it is minus the number of zeros after the point. -/
def digitsBeforePoint (rank : Nat) : Int :=
  (Nat.toDigits 10 (units rank * tenTo 400 / twoTo 1074)).length - 400

def readsBack (rank : Nat) (digits : Nat) (exponent : Int) : Bool :=
  match (Decimal.mk false digits exponent).toBinary64 with
  | .finite false r => r.val == rank
  | _ => false

/-- The neighbours of a magnitude among the multiples of a power of ten, the nearer
one first. -/
def neighbours (rank : Nat) (exponent : Int) : List Nat :=
  let num := units rank * tenTo (-exponent).toNat
  let den := twoTo 1074 * tenTo exponent.toNat
  let below := num / den
  if den ≤ 2 * (num % den) then [below + 1, below] else [below, below + 1]

/-- The neighbour of a magnitude on a grid that reads back, if one does. -/
def onGrid? (rank : Nat) (exponent : Int) : Option (Nat × Int) :=
  ((neighbours rank exponent).find? fun digits => readsBack rank digits exponent).map (·, exponent)

/-- Moves final zeros of the digits into the exponent. -/
def dropFinalZeros (digits : Nat) (exponent : Int) : Nat × Int :=
  if h : 0 < digits ∧ digits % 10 = 0 then dropFinalZeros (digits / 10) (exponent + 1)
  else (digits, exponent)
termination_by digits
decreasing_by omega

/-- Seventeen digits are always enough; the exact expansion stands behind them. -/
def fewest (rank : Nat) : Nat × Int :=
  let before := digitsBeforePoint rank
  ((List.range 17).findSome? fun n : Nat => onGrid? rank (before - (n + 1))).getD
    (units rank * Nat.pow 5 1074, -1074)

def shortest (rank : Nat) : Nat × Int :=
  let r := fewest rank
  dropFinalZeros r.1 r.2

def magnitudeText (rank : Nat) : List Char :=
  if rank = 0 then ['0']
  else
    let r := shortest rank
    Decimal.positional r.1 r.2

def text : Binary64 → String
  | nan => "NaN"
  | infinite false => "inf"
  | infinite true => "-inf"
  | finite false rank => String.ofList (magnitudeText rank)
  | finite true rank => String.ofList ('-' :: magnitudeText rank)

end TagTemplate.Binary64
