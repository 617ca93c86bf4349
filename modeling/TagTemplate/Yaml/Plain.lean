import TagTemplate.Yaml.Folding

/-! Scalars without quotes. They end before a colon that is followed by white space,
before a comment, and where a line is indented less than they need. -/

namespace TagTemplate.Yaml

/-- Characters that structure flow collections. -/
def flowMarks : List Char := [',', '[', ']', '\x7b', '\x7d']

/-- Whether a plain scalar ends in front of the text. -/
def endsPlain (inFlow : Bool) (c : Cell) (rest : List Cell) : Bool :=
  (c.char == ':' && startsWord [':'] (c :: rest)) || (inFlow && flowMarks.contains c.char)

/-- A colon in a flow collection must not touch the mark that follows it. -/
def isClash (inFlow : Bool) (c : Cell) (rest : List Cell) : Bool :=
  inFlow && c.char == ':' &&
    match rest.head? with
    | some d => d.char == '?' || flowMarks.contains d.char
    | none => false

/-- A plain scalar, whether a line break follows it, and what comes after the white
space behind it. Lines after its first are indented by `indent` at least. -/
def plainTail? (inFlow : Bool) (indent : Nat) (done : List Char) (gap : Gap) :
    List Cell → Option (String × Bool × List Cell)
  | [] => some (String.ofList done.reverse, gap.hasBreak, [])
  | c :: rest =>
    let stop := some (String.ofList done.reverse, gap.hasBreak, c :: rest)
    if isGap c.char || isBreak c.char then
      if c.char = '\t' ∧ gap.hasBreak ∧ c.column < indent then none
      else plainTail? inFlow indent done (gap.add c.char) rest
    else if gap ≠ .start ∧
        (atDocumentMark (c :: rest) ∨ c.char = '#' ∨ (!inFlow ∧ c.column < indent)) then stop
    else if isClash inFlow c rest then none
    else if endsPlain inFlow c rest then stop
    else plainTail? inFlow indent (c.char :: (gap.fold.reverse ++ done)) .start rest

def plain? (inFlow : Bool) (indent : Nat) (cells : List Cell) :
    Option (String × Bool × List Cell) :=
  plainTail? inFlow indent [] .start cells

end TagTemplate.Yaml
