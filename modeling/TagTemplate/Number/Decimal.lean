import TagTemplate.Number.Binary64

/-! Decimal numbers: reading their text, and the double nearest to one. -/

namespace TagTemplate

/-- The number `± digits * 10 ^ exponent`. -/
structure Decimal where
  negative : Bool
  digits : Nat
  exponent : Int
  deriving DecidableEq, Repr

namespace Decimal

/-- Powers of ten beyond these bounds lie past the largest double, or nearer to zero
than to the smallest positive one, so they are settled without arithmetic on them. -/
def toBinary64 (d : Decimal) : Binary64 :=
  if d.digits = 0 then .zero d.negative
  else
    let magnitude := (Nat.toDigits 10 d.digits).length + d.exponent
    if 310 < magnitude then .infinite d.negative
    else if magnitude < -330 then .zero d.negative
    else
      .ofQuotient d.negative (d.digits * tenTo d.exponent.toNat * twoTo 1074)
        (tenTo (-d.exponent).toNat)

/-- The value of a row of digits. -/
def ofDigits (cs : List Char) : Nat :=
  cs.foldl (fun n c => 10 * n + (c.toNat - '0'.toNat)) 0

/-- An optional sign, and what follows it. -/
def sign : List Char → Bool × List Char
  | '-' :: cs => (true, cs)
  | '+' :: cs => (false, cs)
  | cs => (false, cs)

/-- The digits after a point, and what follows them. -/
def fraction : List Char → List Char × List Char
  | '.' :: cs => (cs.takeWhile Char.isDigit, cs.dropWhile Char.isDigit)
  | cs => ([], cs)

/-- An exponent part, which must reach the end of the text. -/
def exponentPart? : List Char → Option Int
  | [] => some 0
  | c :: cs =>
    let (negative, ds) := sign cs
    if (c = 'e' ∨ c = 'E') ∧ ds ≠ [] ∧ ds.all Char.isDigit then
      some (if negative then -(ofDigits ds : Int) else ofDigits ds)
    else none

/-- Reads a sign, digits with at most one point among or around them, and an exponent. -/
def read? (cs : List Char) : Option Decimal :=
  let (negative, rest) := sign cs
  let whole := rest.takeWhile Char.isDigit
  let (fractional, rest) := fraction (rest.dropWhile Char.isDigit)
  if whole ++ fractional = [] then none
  else
    (exponentPart? rest).map fun e =>
      ⟨negative, ofDigits (whole ++ fractional), e - fractional.length⟩

/-- Positional writing of `digits * 10 ^ exponent`, with no more zeros than it needs. -/
def positional (digits : Nat) (exponent : Int) : List Char :=
  let ds := Nat.toDigits 10 digits
  let places := (-exponent).toNat
  if places = 0 then ds ++ List.replicate exponent.toNat '0'
  else
    let ds := List.replicate (places + 1 - ds.length) '0' ++ ds
    ds.take (ds.length - places) ++ '.' :: ds.drop (ds.length - places)

end Decimal

end TagTemplate
