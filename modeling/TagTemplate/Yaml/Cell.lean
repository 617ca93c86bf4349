/-! The characters of a YAML document with their places in it. -/

namespace TagTemplate.Yaml

/-- What a document may be written in. -/
def isPrintable (c : Char) : Bool :=
  let n := c.toNat
  n == 0x09 || n == 0x0A || n == 0x0D || (0x20 ≤ n && n ≤ 0x7E) || n == 0x85 ||
    (0xA0 ≤ n && n ≤ 0xD7FF) || (0xE000 ≤ n && n ≤ 0xFFFD) || (0x10000 ≤ n && n ≤ 0x10FFFF)

def isBreak (c : Char) : Bool :=
  c == '\n' || c == '\u2028' || c == '\u2029'

def isGap (c : Char) : Bool :=
  c == ' ' || c == '\t'

def byteOrderMark : Char := '\ufeff'

/-- Writes every line end as a line feed, the two Unicode separators excepted. -/
def normalizeBreaks : List Char → List Char
  | [] => []
  | '\r' :: '\n' :: cs => '\n' :: normalizeBreaks cs
  | c :: cs => (if c = '\r' ∨ c = '\u0085' then '\n' else c) :: normalizeBreaks cs

/-- A character with its line, its column, and the number of bytes before it on its
line, all counted from zero. -/
structure Cell where
  char : Char
  line : Nat
  column : Nat
  bytes : Nat
  deriving DecidableEq, Repr

def cellsFrom (line column bytes : Nat) : List Char → List Cell
  | [] => []
  | c :: cs =>
    ⟨c, line, column, bytes⟩ ::
      if isBreak c then cellsFrom (line + 1) 0 0 cs
      else cellsFrom line (column + 1) (bytes + c.utf8Size) cs

def cellsOf? (source : List Char) : Option (List Cell) :=
  if source.all isPrintable then some (cellsFrom 0 0 0 (normalizeBreaks source)) else none

/-- Whether a text starts as given, up to a blank, a line break or its end. -/
def startsWord (word : List Char) (cells : List Cell) : Bool :=
  word.isPrefixOf ((cells.take word.length).map (·.char)) &&
    match (cells.drop word.length).head? with
    | none => true
    | some c => isGap c.char || isBreak c.char

/-- A line that separates documents. -/
def atDocumentMark (cells : List Cell) : Bool :=
  match cells with
  | [] => false
  | c :: _ =>
    c.column == 0 && (startsWord ['-', '-', '-'] cells || startsWord ['.', '.', '.'] cells)

def skipGaps (cells : List Cell) : List Cell :=
  cells.dropWhile fun c => isGap c.char

def skipLine (cells : List Cell) : List Cell :=
  cells.dropWhile fun c => !isBreak c.char

end TagTemplate.Yaml
