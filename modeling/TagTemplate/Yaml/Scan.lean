import TagTemplate.Yaml.Block
import TagTemplate.Yaml.Plain
import TagTemplate.Yaml.Quoted
import TagTemplate.Yaml.Token

/-! Cutting a document into tokens. Block collections have no signs of their own: they
open where a column lies to the right of the block around it, and close where a column
lies to the left. What stands in front of a colon on its line was a key. -/

namespace TagTemplate.Yaml

/-- What may turn out to be a key. One at the column of its block has to. -/
structure Candidate where
  slot : Nat
  line : Nat
  column : Nat
  bytes : Nat
  required : Bool
  deriving DecidableEq, Repr

/-- The tokens so far, latest first; the slots that are keys, and whether they open a
mapping; the columns of the open blocks, innermost first; whether a key may start here;
and the candidate in each flow collection around, the outermost being that of the
blocks. -/
structure Scan where
  tokens : List Token
  keys : List (Nat × Bool)
  slots : Nat
  columns : List Nat
  keyAllowed : Bool
  candidate : Option Candidate
  outer : List (Option Candidate)

namespace Scan

def start : Scan := ⟨[], [], 0, [], true, none, []⟩

def inFlow (s : Scan) : Bool :=
  !s.outer.isEmpty

def push (s : Scan) (t : Token) : Scan :=
  { s with tokens := t :: s.tokens }

/-- The least column of what belongs to the innermost block. -/
def floor (s : Scan) : Nat :=
  match s.columns with
  | [] => 0
  | c :: _ => c + 1

/-- Whether a block that starts in a column is a new one. -/
def opensAt (s : Scan) (column : Nat) : Bool :=
  !s.inFlow && s.floor ≤ column

def enter (s : Scan) (column : Nat) : Scan :=
  if s.opensAt column then { s with columns := column :: s.columns } else s

/-- Opens a block, if a new one starts in the column. -/
def openBlock (s : Scan) (column : Nat) (t : Token) : Scan :=
  if s.opensAt column then (s.enter column).push t else s

/-- Closes the blocks that satisfy a test, from the innermost on. -/
def closeWhile (s : Scan) (test : Nat → Bool) : Scan :=
  if s.inFlow then s
  else
    let closed := (s.columns.takeWhile test).length
    { s with
      tokens := List.replicate closed .close ++ s.tokens
      columns := s.columns.dropWhile test }

def closeTo (s : Scan) (column : Nat) : Scan :=
  s.closeWhile (column < ·)

def closeAll (s : Scan) : Scan :=
  s.closeWhile fun _ => true

/-- A candidate that had to be a key cannot be given up. -/
def giveUp? : Option Candidate → Option (Option Candidate)
  | some c => if c.required then none else some none
  | none => some none

def dropCandidate (s : Scan) : Option Scan := do
  return { s with candidate := ← giveUp? s.candidate }

/-- Keys end on the line they start on, and take at most this many bytes. -/
def keyLimit : Nat := 1024

def refresh? (here : Cell) (candidate : Option Candidate) : Option (Option Candidate) :=
  match candidate with
  | some c =>
    if c.line < here.line ∨ c.bytes + keyLimit < here.bytes then giveUp? candidate
    else some candidate
  | none => some none

/-- Gives up the candidates that lie too far back. -/
def refresh (s : Scan) (here : Cell) : Option Scan := do
  return { s with
    candidate := ← refresh? here s.candidate
    outer := ← s.outer.mapM (refresh? here) }

/-- Notes that a key may start here, and that none may start right after it. -/
def offerKey (s : Scan) (here : Cell) : Option Scan := do
  if s.keyAllowed then
    let s ← s.dropCandidate
    let c : Candidate :=
      ⟨s.slots, here.line, here.column, here.bytes, !s.inFlow && s.columns.head? == some here.column⟩
    return { s.push (.slot s.slots) with
      slots := s.slots + 1
      candidate := some c
      keyAllowed := false }
  else return s

def enterFlow (s : Scan) (t : Token) : Scan :=
  { s.push t with keyAllowed := true, candidate := none, outer := s.candidate :: s.outer }

def leaveFlow (s : Scan) (t : Token) : Option Scan := do
  let s ← s.dropCandidate
  let s := match s.outer with
    | c :: outer => { s with candidate := c, outer }
    | [] => s
  return { s.push t with keyAllowed := false }

/-- A mark that separates documents, or a directive, ends all blocks. -/
def betweenDocuments (s : Scan) (t : Token) : Option Scan := do
  let s ← s.closeAll.dropCandidate
  return { s.push t with keyAllowed := false }

/-- A dash in a block. In a flow collection it is left to the reader of tokens. -/
def item (s : Scan) (column : Nat) : Option Scan := do
  if !s.inFlow && !s.keyAllowed then none
  else
    let s ← (s.openBlock column .openSequence).dropCandidate
    return { s.push .item with keyAllowed := true }

/-- A question mark, which announces a key. -/
def explicitKey (s : Scan) (column : Nat) : Option Scan := do
  if !s.inFlow && !s.keyAllowed then none
  else
    let s ← (s.openBlock column .openMapping).dropCandidate
    return { s.push .key with keyAllowed := !s.inFlow }

/-- A colon: it makes a key of the candidate, or stands for itself. -/
def colon (s : Scan) (column : Nat) : Option Scan :=
  match s.candidate with
  | some c =>
    some { (s.enter c.column).push .value with
      keys := (c.slot, s.opensAt c.column) :: s.keys
      candidate := none
      keyAllowed := false }
  | none =>
    if !s.inFlow && !s.keyAllowed then none
    else
      let s := s.openBlock column .openMapping
      some { s.push .value with keyAllowed := !s.inFlow }

/-- Signs that no plain scalar starts with. -/
def indicators : List Char :=
  [',', '[', ']', '\x7b', '\x7d', '#', '&', '*', '!', '|', '>', '\'', '"', '%', '@', '`']

/-- A dash, question mark or colon starts a plain scalar if no white space follows. -/
def startsPlain (s : Scan) (c : Cell) (rest : List Cell) : Bool :=
  if c.char = '-' then !atGap rest
  else if c.char = '?' ∨ c.char = ':' then !s.inFlow && !atGap rest
  else !(isGap c.char || isBreak c.char || indicators.contains c.char)

def scalar (s : Scan) (plain : Bool) (text : String) : Scan :=
  s.push (.scalar plain text)

def plainScalar (s : Scan) (c : Cell) (rest : List Cell) : Option (Scan × List Cell) := do
  let s ← s.offerKey c
  let (text, broken, rest) ← plain? s.inFlow s.floor (c :: rest)
  return ({ s.scalar true text with keyAllowed := broken }, rest)

/-- One token, from the cell it starts with. -/
def step (s : Scan) (c : Cell) (rest : List Cell) : Option (Scan × List Cell) := do
  let cells := c :: rest
  if c.column = 0 ∧ c.char = '%' then
    let (t, rest) ← directive? rest
    return (← s.betweenDocuments t, rest)
  else if atDocumentMark cells then
    let t := if c.char = '-' then .documentStart else .documentEnd
    return (← s.betweenDocuments t, cells.drop 3)
  else if c.char = '[' then return ((← s.offerKey c).enterFlow .openFlowSequence, rest)
  else if c.char = '\x7b' then return ((← s.offerKey c).enterFlow .openFlowMapping, rest)
  else if c.char = ']' then return (← s.leaveFlow .closeFlowSequence, rest)
  else if c.char = '\x7d' then return (← s.leaveFlow .closeFlowMapping, rest)
  else if c.char = ',' then
    return ({ (← s.dropCandidate).push .comma with keyAllowed := true }, rest)
  else if c.char = '-' ∧ atGap rest then return (← s.item c.column, rest)
  else if c.char = '?' ∧ (s.inFlow ∨ atGap rest) then return (← s.explicitKey c.column, rest)
  else if c.char = ':' ∧ (s.inFlow ∨ atGap rest) then return (← s.colon c.column, rest)
  else if c.char = '*' then
    let (name, rest) ← anchorName? rest
    return ({ (← s.offerKey c).push (.mention name) with keyAllowed := false }, rest)
  else if c.char = '&' then
    let (name, rest) ← anchorName? rest
    return ({ (← s.offerKey c).push (.anchor name) with keyAllowed := false }, rest)
  else if c.char = '!' then
    let (t, rest) ← tag? s.inFlow rest
    return ({ (← s.offerKey c).push t with keyAllowed := false }, rest)
  else if (c.char = '|' ∨ c.char = '>') ∧ !s.inFlow then
    let s ← s.dropCandidate
    let (text, rest) ← block? (c.char == '>') s.floor rest
    return ({ s.scalar false text with keyAllowed := true }, rest)
  else if c.char = '\'' ∨ c.char = '"' then
    let s ← s.offerKey c
    let (text, rest) ← quoted? (c.char == '"') rest
    return ({ s.scalar false text with keyAllowed := false }, rest)
  else if s.startsPlain c rest then s.plainScalar c rest
  else none

/-- Skips blanks, comments and line breaks, and tells whether a key may start behind
them. Where one may, tabs are no blanks. -/
def skip (inFlow inComment keyAllowed : Bool) : List Cell → Bool × List Cell
  | [] => (keyAllowed, [])
  | c :: rest =>
    if isBreak c.char then skip inFlow false (keyAllowed || !inFlow) rest
    else if inComment ∨ c.char = ' ' ∨ (c.char = '\t' ∧ (inFlow ∨ !keyAllowed)) ∨
        (c.char = byteOrderMark ∧ c.column = 0) then
      skip inFlow inComment keyAllowed rest
    else if c.char = '#' then skip inFlow true keyAllowed rest
    else (keyAllowed, c :: rest)

/-- Scans on to the end of the document, where all blocks close. -/
def run : Nat → Scan → List Cell → Option Scan
  | 0, _, _ => none
  | fuel + 1, s, cells =>
    let (keyAllowed, cells) := skip s.inFlow false s.keyAllowed cells
    match cells with
    | [] => s.closeAll.dropCandidate
    | c :: rest => do
      let s ← { s with keyAllowed }.refresh c
      let (s, rest) ← (s.closeTo c.column).step c rest
      run fuel s rest

/-- Puts key tokens into the slots that are keys, and removes the others. -/
def settle (s : Scan) : List Token :=
  s.tokens.reverse.flatMap fun t =>
    match t with
    | .slot n =>
      match s.keys.lookup n with
      | some true => [.openMapping, .key]
      | some false => [.key]
      | none => []
    | t => [t]

end Scan

/-- The tokens of a document. -/
def tokens? (source : String) : Option (List Token) := do
  let cells ← cellsOf? source.toList
  return (← Scan.run (cells.length + 1) .start cells).settle

end TagTemplate.Yaml
