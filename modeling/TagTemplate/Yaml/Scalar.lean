import TagTemplate.Text.Hex
import TagTemplate.Value.Basic
import TagTemplate.Yaml.Tag

/-! The values of scalars. A plain scalar is null, a boolean or a number if it is written
like one; any other scalar is text, unless a tag says what it is. -/

namespace TagTemplate.Yaml

/-- Digits in one of the number systems that are announced by a letter. -/
def systemDigits? (letter : Char) (ds : List Char) : Option Nat :=
  let below (base : Nat) (ds : List Char) : Option Nat := do
    if ds = [] then none
    else ds.foldlM (fun n c => ((hexDigit? c).filter (· < base)).map (base * n + ·)) 0
  match letter with
  | 'x' => below 16 ds
  | 'o' => below 8 ds
  | 'b' => below 2 ds
  | _ => none

/-- A zero in front of other digits makes text of them. -/
def isPadded (ds : List Char) : Bool :=
  match ds with
  | '0' :: d :: ds => (d :: ds).all Char.isDigit
  | _ => false

def magnitude? (ds : List Char) : Option Nat :=
  let decimal : Option Nat :=
    if ds ≠ [] ∧ ds.all Char.isDigit ∧ !isPadded ds then some (Decimal.ofDigits ds) else none
  match ds with
  | '0' :: letter :: rest => (systemDigits? letter rest).or decimal
  | _ => decimal

def integer? (cs : List Char) : Option Int :=
  match cs with
  | '-' :: ds => (magnitude? ds).map fun n => -(n : Int)
  | '+' :: ds | ds => (magnitude? ds).map fun n => (n : Int)

/-- What an integer comes to: an integer of 64 signed bits, a float if 64 unsigned bits
hold it, and nothing if it takes 128 bits. -/
inductive Magnitude where
  | fits (v : Value)
  | refused
  | unbounded

def Magnitude.ofInt (i : Int) : Magnitude :=
  if Value.fitsInt i then fits (.int i)
  else if 0 ≤ i ∧ i.natAbs < twoTo 64 then fits (.float (.ofInt i))
  else if i.natAbs ≤ twoTo 127 ∨ (0 ≤ i ∧ i.natAbs < twoTo 128) then refused
  else unbounded

def isNullWord (s : String) : Bool :=
  ["null", "Null", "NULL", "~"].contains s

def bool? (s : String) : Option Bool :=
  if ["true", "True", "TRUE"].contains s then some true
  else if ["false", "False", "FALSE"].contains s then some false
  else none

def infinityWords : List String := [".inf", ".Inf", ".INF"]

def float? (s : String) : Option Binary64 :=
  let (negative, rest) := Decimal.sign s.toList
  if infinityWords.contains (String.ofList rest) then some (.infinite negative)
  else if [".nan", ".NaN", ".NAN"].contains s then some .nan
  else
    ((Decimal.read? s.toList).map Decimal.toBinary64).filter Binary64.isFinite

/-- The value of a plain scalar without a tag. -/
def plainValue? (s : String) : Option Value :=
  if s = "" ∨ isNullWord s then some .null
  else
    match bool? s with
    | some b => some (.bool b)
    | none =>
      match (integer? s.toList).map Magnitude.ofInt with
      | some (.fits v) => some v
      | some .refused => none
      | some .unbounded | none =>
        if isPadded (Decimal.sign s.toList).2 then some (.text s)
        else
          match float? s with
          | some x => some (.float x)
          | none => some (.text s)

/-- A tag of a basic type is a demand on the text, which has no value if it fails it. -/
def scalarValue? (demand : Demand) (plain : Bool) (s : String) : Option Value :=
  match demand with
  | .nothing => if plain then plainValue? s else some (.text s)
  | .bool => (bool? s).map .bool
  | .int =>
    match (integer? s.toList).map Magnitude.ofInt with
    | some (.fits v) => some v
    | _ => none
  | .float => (float? s).map .float
  | .null => if isNullWord s then some .null else none
  | .text => some (.text s)
  | .foreign => none

end TagTemplate.Yaml
