import TagTemplate.Expr.Comparison
import TagTemplate.Text.Blank
import TagTemplate.Value.Basic

/-! What conditions compare. Text that spells a boolean, null or a finite number counts
as that, and two scalars of different types meet by loose rules. -/

namespace TagTemplate

inductive Scalar where
  | null
  | bool (b : Bool)
  | number (x : Binary64)
  | text (s : String)
  deriving DecidableEq

namespace Scalar

/-- The finite number that a text spells, blanks around it aside. -/
def numeric? (s : String) : Option Binary64 :=
  ((Decimal.read? (trimBlank s.toList)).map Decimal.toBinary64).filter Binary64.isFinite

def ofText (s : String) : Scalar :=
  match s with
  | "true" => bool true
  | "false" => bool false
  | "null" => null
  | s =>
    match numeric? s with
    | some x => number x
    | none => text s

/-- Containers never reach a comparison; they count as null. -/
def ofValue : Value → Scalar
  | .null => null
  | .bool b => bool b
  | .int i => number (.ofInt i)
  | .float x => number x
  | .text s => ofText s
  | .list _ | .map _ => null

def isTruthy : Scalar → Bool
  | null => false
  | bool b => b
  | number x => !x.isZero
  | text s => s != "" && s != "0"

def compareTruth (a b : Scalar) : Ordering :=
  compare a.isTruthy b.isTruthy

/-- A boolean on either side compares truth; null compares with text as "" and with
numbers by truth; a number compares with text by its own text. -/
def order? (a b : Scalar) : Option Ordering :=
  match a, b with
  | bool _, _ | _, bool _ => some (compareTruth a b)
  | null, null => some .eq
  | null, text s => some (compare "" s)
  | text s, null => some (compare s "")
  | null, number _ | number _, null => some (compareTruth a b)
  | number x, number y => x.order? y
  | number x, text s => some (compare x.text s)
  | text s, number x => some (compare s x.text)
  | text s, text t => some (compare s t)

end Scalar

def Comparison.compares (c : Comparison) (a b : Scalar) : Bool :=
  c.holds (a.order? b)

end TagTemplate
