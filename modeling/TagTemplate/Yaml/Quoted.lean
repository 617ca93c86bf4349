import TagTemplate.Text.Hex
import TagTemplate.Yaml.Folding

/-! Scalars in quotes. Single quotes are doubled to stand for themselves; between
double quotes a backslash introduces an escape. -/

namespace TagTemplate.Yaml

/-- The character that so many hexadecimal digits name. -/
def codePoint? (digits : Nat) (cells : List Cell) : Option (Char × List Cell) := do
  let cs := (cells.take digits).map (·.char)
  let n ← hexNumber? cs
  if cs.length = digits ∧ n.isValidChar then
    return (Char.ofNat n, cells.drop digits)
  else none

/-- Letters and signs that a backslash turns into other characters. -/
def escapeTable : List (Char × Char) :=
  [('0', '\x00'), ('a', '\x07'), ('b', '\x08'), ('t', '\t'), ('\t', '\t'), ('n', '\n'),
   ('v', '\x0b'), ('f', '\x0c'), ('r', '\r'), ('e', '\x1b'), (' ', ' '), ('"', '"'), ('/', '/'),
   ('\\', '\\'), ('N', '\u0085'), ('_', '\u00a0'), ('L', '\u2028'), ('P', '\u2029')]

/-- What a backslash in front of the text stands for, and what follows. -/
def escape? : List Cell → Option (Char × List Cell)
  | [] => none
  | c :: rest =>
    match c.char with
    | 'x' => codePoint? 2 rest
    | 'u' => codePoint? 4 rest
    | 'U' => codePoint? 8 rest
    | e => (escapeTable.lookup e).map (·, rest)

/-- Reads on behind the opening quote: the characters read are in reverse, and the gap
is the white space after the last of them. -/
def quotedTail (double : Bool) :
    Nat → List Char → Gap → List Cell → Option (String × List Cell)
  | 0, _, _, _ => none
  | _ + 1, _, _, [] => none
  | fuel + 1, done, gap, c :: rest =>
    let settled := gap.fold.reverse ++ done
    if atDocumentMark (c :: rest) then none
    else if isGap c.char || isBreak c.char then
      quotedTail double fuel done (gap.add c.char) rest
    else if double && c.char == '"' then
      some (String.ofList settled.reverse, rest)
    else if double && c.char == '\\' then
      match rest with
      | [] => none
      | d :: after =>
        if isBreak d.char then quotedTail double fuel settled .escaped after
        else do
          let (e, rest) ← escape? rest
          quotedTail double fuel (e :: settled) .start rest
    else if !double && c.char == '\'' then
      match rest with
      | [] => some (String.ofList settled.reverse, [])
      | d :: after =>
        if d.char = '\'' then quotedTail double fuel ('\'' :: settled) .start after
        else some (String.ofList settled.reverse, rest)
    else quotedTail double fuel (c.char :: settled) .start rest

/-- The text up to the closing quote, and what follows that. -/
def quoted? (double : Bool) (cells : List Cell) : Option (String × List Cell) :=
  quotedTail double (cells.length + 1) [] .start cells

end TagTemplate.Yaml
