import TagTemplate.Number.Shortest
import TagTemplate.Value.Entries

/-! The values a template can name: scalars, lists, and maps in insertion order. -/

namespace TagTemplate

/-- Integers are those of 64 signed bits; the readers make no others. -/
inductive Value where
  | null
  | bool (b : Bool)
  | int (i : Int)
  | float (x : Binary64)
  | text (s : String)
  | list (items : List Value)
  | map (entries : List (String × Value))

namespace Value

/-- What error messages call the type of a value. -/
def kind : Value → String
  | null => "null"
  | bool _ => "boolean"
  | int _ => "integer"
  | float _ => "float"
  | text _ => "string"
  | list _ => "list"
  | map _ => "map"

def isContainer : Value → Bool
  | list _ | map _ => true
  | _ => false

def isNull : Value → Bool
  | null => true
  | _ => false

/-- Null, false, zero, the texts "" and "0", and containers without elements are empty. -/
def isEmpty : Value → Bool
  | null => true
  | bool b => !b
  | int i => i == 0
  | float x => x.isZero
  | text s => s == "" || s == "0"
  | list items => items.isEmpty
  | map entries => entries.isEmpty

/-- Whether an integer takes no more than 64 signed bits. -/
def fitsInt (i : Int) : Bool :=
  -9223372036854775808 ≤ i && i ≤ 9223372036854775807

/-- The first number that 64 unsigned bits do not hold. -/
def indexLimit : Nat := 18446744073709551616

/-- Reads a list index: an optional plus sign, then digits, below the limit. -/
def index? (key : String) : Option Nat :=
  let ds := match key.toList with
    | '+' :: ds => ds
    | ds => ds
  if ds ≠ [] ∧ ds.all Char.isDigit ∧ Decimal.ofDigits ds < indexLimit then
    some (Decimal.ofDigits ds)
  else none

/-- The element of a container under a key; a scalar has none. -/
def get? (v : Value) (key : String) : Option Value :=
  match v with
  | list items => (index? key).bind (items[·]?)
  | map entries => Entries.get? entries key
  | _ => none

/-- The elements of a container in order. -/
def elements : Value → List Value
  | list items => items
  | map entries => Entries.values entries
  | _ => []

/-- A value as output: true is "1"; false, null and containers leave no trace. -/
def render : Value → String
  | text s => s
  | int i => toString i
  | float x => x.text
  | bool true => "1"
  | bool false | null | list _ | map _ => ""

end Value

end TagTemplate
