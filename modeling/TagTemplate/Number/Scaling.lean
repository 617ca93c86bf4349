import TagTemplate.Number.Binary64

/-! Products and quotients of doubles, each rounded to the nearest double, and the
scaling of a magnitude by a power of ten that is made of them. Scaling rounds more than
once, so its result may miss the double nearest to the exact product. -/

namespace TagTemplate.Binary64

/-- The rank of a natural number. -/
def rankOfNat (n : Nat) : Nat :=
  nearestRank (n * twoTo 1074) 1

def productRank (a b : Nat) : Nat :=
  nearestRank (units a * units b) (twoTo 1074)

/-- The divisor is no rank of zero. -/
def quotientRank (a b : Nat) : Nat :=
  nearestRank (units a * twoTo 1074) (units b)

/-- The exponent of the largest power of ten that is a finite double. -/
def largestTen : Nat := 308

/-- The magnitude times a power of ten, if no double on the way is infinite. A power
beyond the largest one is divided by in steps, until nothing is left of the magnitude. -/
def scaledRank? (rank : Nat) (exponent : Int) : Option Nat :=
  if exponent.natAbs ≤ largestTen then
    let ten := rankOfNat (tenTo exponent.natAbs)
    let result := if exponent < 0 then quotientRank rank ten else productRank rank ten
    if result < finiteRanks then some result else none
  else if rank = 0 then some 0
  else if 0 < exponent then none
  else scaledRank? (quotientRank rank (rankOfNat (tenTo largestTen))) (exponent + largestTen)
termination_by exponent.natAbs
decreasing_by simp only [largestTen] at *; omega

/-- A natural number times a power of ten, both of them rounded first. -/
def ofScaled (negative : Bool) (digits : Nat) (exponent : Int) : Binary64 :=
  match scaledRank? (rankOfNat digits) exponent with
  | some rank => ofRank negative rank
  | none => infinite negative

end TagTemplate.Binary64
