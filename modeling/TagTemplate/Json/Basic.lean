import TagTemplate.Json.Numeral

/-! JSON documents as written: members keep their order and repetitions, and numbers
their digits. -/

namespace TagTemplate

inductive Json where
  | null
  | bool (b : Bool)
  | number (n : Json.Numeral)
  | string (s : String)
  | array (items : List Json)
  | object (members : List (String × Json))

namespace Json

mutual

/-- The value of a document; a number beyond every double has none. -/
def value? : Json → Option Value
  | null => some .null
  | bool b => some (.bool b)
  | number n => n.value?
  | string s => some (.text s)
  | array items => (itemValues? items).map .list
  | object members => (memberValues? members).map fun ms => .map (Entries.ofPairs ms)

def itemValues? : List Json → Option (List Value)
  | [] => some []
  | j :: js => do return (← value? j) :: (← itemValues? js)

def memberValues? : List (String × Json) → Option (List (String × Value))
  | [] => some []
  | (key, j) :: ms => do return (key, ← value? j) :: (← memberValues? ms)

end

/-- A table of values, from a document that is an object. -/
def toValues? : Json → Option (Entries Value)
  | object members => (memberValues? members).map Entries.ofPairs
  | _ => none

/-- A table of texts, from an object whose members are all strings. -/
def toTexts? : Json → Option (Entries String)
  | object members => do
    let pairs ← members.mapM fun m =>
      match m.2 with
      | string s => some (m.1, s)
      | _ => none
    return Entries.ofPairs pairs
  | _ => none

end Json

end TagTemplate
