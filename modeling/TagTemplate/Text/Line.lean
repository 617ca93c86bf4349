import TagTemplate.Text.Blank

/-! The lines of a text, for showing it. More characters end a line here than the one
that ends a row. -/

namespace TagTemplate

/-- Line feed, vertical tab, form feed, carriage return, next line, and the line and
paragraph separators. -/
def endsLine (c : Char) : Bool :=
  ['\n', '\x0b', '\x0c', '\r', '\u0085', '\u2028', '\u2029'].contains c

/-- The text cut after its line ends; a carriage return and a line feed end one line. -/
def cutLines : List Char → List (List Char)
  | [] => []
  | '\r' :: '\n' :: cs => ['\r', '\n'] :: cutLines cs
  | c :: cs => if endsLine c then [c] :: cutLines cs else growFirst c (cutLines cs)

/-- A line with its number from zero and the number of characters before it. -/
structure Line where
  index : Nat
  start : Nat
  content : List Char
  deriving DecidableEq, Repr

def numberLines (index start : Nat) : List (List Char) → List Line
  | [] => []
  | l :: ls => ⟨index, start, l⟩ :: numberLines (index + 1) (start + l.length) ls

def lines (cs : List Char) : List Line :=
  numberLines 0 0 (cutLines cs)

/-- The last line that starts at or before a place. -/
def lineAt? (ls : List Line) (place : Nat) : Option Line :=
  ls.reverse.find? fun l => l.start ≤ place

end TagTemplate
