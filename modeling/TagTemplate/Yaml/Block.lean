import TagTemplate.Yaml.Folding

/-! Block scalars: the lines under a bar or an angle bracket that are indented. A bar
keeps their line breaks, an angle bracket folds them. -/

namespace TagTemplate.Yaml

/-- Which of the line breaks at the end of a block scalar count. -/
inductive Chomping where
  | strip
  | clip
  | keep
  deriving DecidableEq, Repr

def chomping? (c : Char) : Option Chomping :=
  if c = '-' then some .strip else if c = '+' then some .keep else none

/-- An indentation from one to nine. -/
def increment? (c : Char) : Option Nat :=
  if '1' ≤ c ∧ c ≤ '9' then some (c.toNat - '0'.toNat) else none

/-- The signs behind the bar, in either order, and what follows them. -/
def blockSigns (cells : List Cell) : Chomping × Nat × List Cell :=
  match cells with
  | [] => (.clip, 0, [])
  | c :: rest =>
    match chomping? c.char, increment? c.char with
    | some chomping, _ =>
      match rest.head?.bind fun d => increment? d.char with
      | some n => (chomping, n, rest.tail)
      | none => (chomping, 0, rest)
    | none, some n =>
      match rest.head?.bind fun d => chomping? d.char with
      | some chomping => (chomping, n, rest.tail)
      | none => (.clip, n, rest)
    | none, none => (.clip, 0, cells)

/-- The rest of a line that holds nothing more than a comment, and the lines after it. -/
def lineEnd? (cells : List Cell) : Option (List Cell) :=
  match skipGaps cells with
  | [] => some []
  | c :: rest =>
    if c.char = '#' then some (skipLine rest).tail
    else if isBreak c.char then some rest
    else none

/-- Skips spaces up to an indentation, and empty lines, whose breaks it collects. An
indentation of zero is one not known yet; then the widest one met is reported. -/
def emptyLines (indent widest : Nat) (breaks : List Char) :
    List Cell → Option (Nat × List Char × List Cell)
  | [] => some (widest, breaks, [])
  | c :: rest =>
    if indent = 0 ∨ c.column < indent then
      if c.char = ' ' then emptyLines indent (max widest (c.column + 1)) breaks rest
      else if c.char = '\t' then none
      else if isBreak c.char then emptyLines indent widest (breaks ++ [c.char]) rest
      else some (widest, breaks, c :: rest)
    else if isBreak c.char then emptyLines indent widest (breaks ++ [c.char]) rest
    else some (widest, breaks, c :: rest)

/-- What has been read of a block scalar: its text in reverse, the break after its last
line, the breaks of the empty lines since, and whether that line began with a blank. -/
structure BlockText where
  done : List Char
  lineBreak : Option Char
  empties : List Char
  indented : Bool

namespace BlockText

/-- What stands between the last line and the next. Folding makes a space of a single
break, except beside a line that begins with a blank. -/
def between (b : BlockText) (folded nextIndented : Bool) : List Char :=
  if folded && b.lineBreak == some '\n' && !b.indented && !nextIndented then
    if b.empties = [] then [' '] else b.empties
  else b.lineBreak.toList ++ b.empties

def finish (b : BlockText) (chomping : Chomping) : String :=
  let ending := match chomping with
    | .strip => []
    | .clip => b.lineBreak.toList
    | .keep => b.lineBreak.toList ++ b.empties
  String.ofList (b.done.reverse ++ ending)

end BlockText

/-- Reads the lines of a block scalar that start at its indentation. -/
def blockLines (folded : Bool) (indent : Nat) :
    Nat → BlockText → List Cell → Option (BlockText × List Cell)
  | 0, _, _ => none
  | _ + 1, b, [] => some (b, [])
  | fuel + 1, b, c :: rest =>
    if c.column ≠ indent then some (b, c :: rest)
    else do
      let cells := c :: rest
      let content := (cells.takeWhile fun d => !isBreak d.char).map (·.char)
      let done := content.reverse ++ ((b.between folded (isGap c.char)).reverse ++ b.done)
      match skipLine cells with
      | [] => return (⟨done, none, [], isGap c.char⟩, [])
      | d :: after =>
        let (_, empties, after) ← emptyLines indent 0 [] after
        blockLines folded indent fuel ⟨done, some d.char, empties, isGap c.char⟩ after

/-- A block scalar from its signs on. The block around it is indented by one less than
`floor`. -/
def block? (folded : Bool) (floor : Nat) (cells : List Cell) : Option (String × List Cell) := do
  let (chomping, increment, cells) := blockSigns cells
  let cells ← lineEnd? cells
  let known := if increment = 0 then 0 else floor - 1 + increment
  let (widest, empties, cells) ← emptyLines known 0 [] cells
  let indent := if known = 0 then max widest (max floor 1) else known
  let (b, cells) ← blockLines folded indent (cells.length + 1) ⟨[], none, empties, false⟩ cells
  return (b.finish chomping, cells)

end TagTemplate.Yaml
