import TagTemplate.Json.Basic
import TagTemplate.Text.Hex

/-! Reading JSON documents. Only what the standard admits is read: no byte order mark,
no lone surrogates, no bare control characters in strings, nothing after the document. -/

namespace TagTemplate.Json.Reader

/-- A reader of characters: what it read, and the characters that follow. -/
abbrev Read (α : Type) := List Char → Option (α × List Char)

def isSpace (c : Char) : Bool :=
  c == ' ' || c == '\t' || c == '\n' || c == '\r'

def skipSpace (cs : List Char) : List Char :=
  cs.dropWhile isSpace

/-- Four hexadecimal digits. -/
def unit : Read Nat
  | a :: b :: c :: d :: cs => do
    return (← hexNumber? [a, b, c, d], cs)
  | _ => none

def isHigh (n : Nat) : Bool :=
  0xD800 ≤ n && n ≤ 0xDBFF

def isLow (n : Nat) : Bool :=
  0xDC00 ≤ n && n ≤ 0xDFFF

/-- The digits of a code unit, and those of its partner if it is one half of a pair. -/
def codePoint : Read Char := fun cs => do
  let (n, cs) ← unit cs
  if isHigh n then
    match cs with
    | '\\' :: 'u' :: cs => do
      let (low, cs) ← unit cs
      if isLow low then
        return (Char.ofNat (0x10000 + (n - 0xD800) * 0x400 + (low - 0xDC00)), cs)
      else none
    | _ => none
  else if isLow n then none
  else return (Char.ofNat n, cs)

/-- What a backslash stands for together with the character after it. -/
def escape : Read Char
  | '"' :: cs => some ('"', cs)
  | '\\' :: cs => some ('\\', cs)
  | '/' :: cs => some ('/', cs)
  | 'b' :: cs => some ('\x08', cs)
  | 'f' :: cs => some ('\x0c', cs)
  | 'n' :: cs => some ('\n', cs)
  | 'r' :: cs => some ('\r', cs)
  | 't' :: cs => some ('\t', cs)
  | 'u' :: cs => codePoint cs
  | _ => none

/-- The characters up to the closing quote, the read ones in reverse. -/
def stringTail : Nat → List Char → Read String
  | 0, _, _ => none
  | _ + 1, _, [] => none
  | fuel + 1, done, c :: cs =>
    if c = '"' then some (String.ofList done.reverse, cs)
    else if c = '\\' then do
      let (e, cs) ← escape cs
      stringTail fuel (e :: done) cs
    else if c.toNat < 0x20 then none
    else stringTail fuel (c :: done) cs

def string (cs : List Char) : Option (String × List Char) :=
  stringTail (cs.length + 1) [] cs

/-- The digits before the point: a zero stands alone. -/
def wholePart : Read (List Char)
  | [] => none
  | c :: cs =>
    if c = '0' then some (['0'], cs)
    else if c.isDigit then some (c :: cs.takeWhile Char.isDigit, cs.dropWhile Char.isDigit)
    else none

def fractionPart : Read (List Char)
  | '.' :: cs =>
    if cs.takeWhile Char.isDigit = [] then none
    else some (cs.takeWhile Char.isDigit, cs.dropWhile Char.isDigit)
  | cs => some ([], cs)

/-- The exponent, if one is written. -/
def exponentPart : Read (Option Int)
  | [] => some (none, [])
  | c :: cs =>
    if c = 'e' ∨ c = 'E' then
      let (negative, cs) := Decimal.sign cs
      let ds := cs.takeWhile Char.isDigit
      if ds = [] then none
      else
        let n : Int := Decimal.ofDigits ds
        some (some (if negative then -n else n), cs.dropWhile Char.isDigit)
    else some (none, c :: cs)

def number : Read Json := fun cs => do
  let (negative, cs) := match cs with
    | '-' :: cs => (true, cs)
    | cs => (false, cs)
  let (whole, cs) ← wholePart cs
  let (fractional, cs) ← fractionPart cs
  let (exponent, cs) ← exponentPart cs
  return (.number ⟨negative, whole, fractional, exponent⟩, cs)

mutual

/-- Reads one document part; containers nest at most `depth` deep. -/
def part (fuel depth : Nat) (cs : List Char) : Option (Json × List Char) :=
  match fuel with
  | 0 => none
  | fuel + 1 =>
    match cs with
    | 'n' :: 'u' :: 'l' :: 'l' :: cs => some (.null, cs)
    | 't' :: 'r' :: 'u' :: 'e' :: cs => some (.bool true, cs)
    | 'f' :: 'a' :: 'l' :: 's' :: 'e' :: cs => some (.bool false, cs)
    | '"' :: cs => (string cs).map fun r => (.string r.1, r.2)
    | '[' :: cs =>
      match depth with
      | 0 => none
      | depth + 1 =>
        match skipSpace cs with
        | ']' :: cs => some (.array [], cs)
        | cs => items fuel depth [] cs
    | '\x7b' :: cs =>
      match depth with
      | 0 => none
      | depth + 1 =>
        match skipSpace cs with
        | '\x7d' :: cs => some (.object [], cs)
        | cs => members fuel depth [] cs
    | cs => number cs

/-- The items of an array up to its end, the read ones in reverse. -/
def items (fuel depth : Nat) (done : List Json) (cs : List Char) : Option (Json × List Char) :=
  match fuel with
  | 0 => none
  | fuel + 1 => do
    let (j, cs) ← part fuel depth cs
    match skipSpace cs with
    | ',' :: cs => items fuel depth (j :: done) (skipSpace cs)
    | ']' :: cs => some (.array (j :: done).reverse, cs)
    | _ => none

/-- The members of an object up to its end, the read ones in reverse. -/
def members (fuel depth : Nat) (done : List (String × Json)) (cs : List Char) :
    Option (Json × List Char) :=
  match fuel with
  | 0 => none
  | fuel + 1 =>
    match cs with
    | '"' :: cs => do
      let (key, cs) ← string cs
      match skipSpace cs with
      | ':' :: cs => do
        let (j, cs) ← part fuel depth (skipSpace cs)
        match skipSpace cs with
        | ',' :: cs => members fuel depth ((key, j) :: done) (skipSpace cs)
        | '\x7d' :: cs => some (.object ((key, j) :: done).reverse, cs)
        | _ => none
      | _ => none
    | _ => none

end

end Reader

/-- Containers nest at most this deep in a document. -/
def depthLimit : Nat := 127

/-- Reads a whole document whose containers nest at most `depth` deep. -/
def readNested? (depth : Nat) (source : String) : Option Json :=
  let cs := source.toList
  match Reader.part (2 * cs.length + 1) depth (Reader.skipSpace cs) with
  | some (j, rest) => if Reader.skipSpace rest = [] then some j else none
  | none => none

def read? (source : String) : Option Json :=
  readNested? depthLimit source

end TagTemplate.Json
