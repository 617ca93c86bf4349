import TagTemplate.Number.Power

/-! Binary64 numbers as positions in the increasing sequence of doubles. A finite
magnitude is named by its rank, the number of non-negative doubles below it, and
measured in units of 2^-1074, so that every magnitude is a natural number. -/

namespace TagTemplate

/-- The number of doubles from one power of two up to the next: 2 to the power 52. -/
abbrev binade : Nat := 4503599627370496

/-- One more than the rank of the largest finite double. -/
abbrev finiteRanks : Nat := 2047 * binade

inductive Binary64 where
  | nan
  | infinite (negative : Bool)
  | finite (negative : Bool) (rank : Fin finiteRanks)
  deriving DecidableEq

namespace Binary64

/-- The spacing of the doubles at a rank is 2 to this power. -/
def spacing (rank : Nat) : Nat :=
  rank / binade - 1

/-- The magnitude at a rank. -/
def units (rank : Nat) : Nat :=
  (rank - spacing rank * binade) * twoTo (spacing rank)

/-- The integer nearest to a quotient; of two equally near the even one. -/
def roundHalfEven (num den : Nat) : Nat :=
  let below := num / den
  let excess := 2 * (num % den)
  if excess < den then below
  else if den < excess then below + 1
  else below + below % 2

/-- The rank whose magnitude is nearest to a quotient; a tie goes to the even rank. -/
def nearestRank (num den : Nat) : Nat :=
  let s := (num / den).log2 - 52
  s * binade + roundHalfEven num (den * twoTo s)

/-- The signed double at a rank; past the finite ones stands infinity. -/
def ofRank (negative : Bool) (rank : Nat) : Binary64 :=
  if h : rank < finiteRanks then finite negative ⟨rank, h⟩ else infinite negative

/-- The double nearest to a signed quotient of units. -/
def ofQuotient (negative : Bool) (num den : Nat) : Binary64 :=
  ofRank negative (nearestRank num den)

def zero (negative : Bool) : Binary64 :=
  finite negative ⟨0, by decide⟩

def ofInt (i : Int) : Binary64 :=
  ofQuotient (decide (i < 0)) (i.natAbs * twoTo 1074) 1

/-- The place of a number in the order of the doubles; the two zeros share one. -/
def key? : Binary64 → Option Int
  | nan => none
  | infinite negative => some (if negative then -finiteRanks else finiteRanks)
  | finite negative rank => some (if negative then -(rank : Int) else rank)

/-- A comparison with NaN has no outcome. -/
def order? (x y : Binary64) : Option Ordering := do
  return compare (← x.key?) (← y.key?)

def isZero (x : Binary64) : Bool :=
  x.key? == some 0

def isFinite : Binary64 → Bool
  | finite .. => true
  | _ => false

end Binary64

end TagTemplate
