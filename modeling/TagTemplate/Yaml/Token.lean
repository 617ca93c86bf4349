import TagTemplate.Number.Decimal
import TagTemplate.Text.Cut
import TagTemplate.Yaml.Cell
import TagTemplate.Yaml.Tag

/-! Tokens of a document, and those of them that are names: anchors, mentions of
anchors, tags and directives. -/

namespace TagTemplate.Yaml

inductive Token where
  | openSequence
  | openMapping
  | close
  | openFlowSequence
  | closeFlowSequence
  | openFlowMapping
  | closeFlowMapping
  | item
  | comma
  | key
  | value
  /-- A place where a key starts if a colon follows on its line. -/
  | slot (number : Nat)
  | anchor (name : String)
  | mention (name : String)
  | tag (handle : String) (suffix : Bytes)
  | scalar (plain : Bool) (text : String)
  | version
  | handle (name : String) (expansion : Bytes)
  | documentStart
  | documentEnd
  deriving DecidableEq, Repr

def isNameChar (c : Char) : Bool :=
  c.isAlphanum || c == '_' || c == '-'

/-- Whether a token ends here: at white space or at the end. -/
def atGap (cells : List Cell) : Bool :=
  startsWord [] cells

/-- The name of an anchor, behind its sign. -/
def anchorName? (cells : List Cell) : Option (String × List Cell) :=
  let name := (cells.takeWhile fun c => isNameChar c.char).map (·.char)
  let rest := cells.dropWhile fun c => isNameChar c.char
  let ended := atGap rest || match rest with
    | [] => true
    | c :: _ => ['?', ':', ',', ']', '\x7d', '%', '@', '`'].contains c.char
  if name ≠ [] ∧ ended then some (String.ofList name, rest) else none

def isTagChar (c : Char) : Bool :=
  isNameChar c || ";/?:@&=+$.!~*'()%".toList.contains c

/-- In places that are set off on both sides more characters are admitted. -/
def isOpenTagChar (c : Char) : Bool :=
  isTagChar c || c == ',' || c == '[' || c == ']'

/-- Splits a shorthand tag behind its first exclamation mark into handle and suffix. -/
def shorthand (cs : List Char) : List Char × List Char :=
  match cs.dropWhile isNameChar with
  | '!' :: suffix => ('!' :: (cs.takeWhile isNameChar ++ ['!']), suffix)
  | _ => (['!'], cs)

/-- The tag behind an exclamation mark. -/
def tag? (inFlow : Bool) (cells : List Cell) : Option (Token × List Cell) := do
  let (t, rest) ← match cells with
    | ⟨'<', _, _, _⟩ :: cells => do
      let uri := (cells.takeWhile fun c => isOpenTagChar c.char).map (·.char)
      match cells.dropWhile fun c => isOpenTagChar c.char with
      | ⟨'>', _, _, _⟩ :: rest =>
        if uri = [] then none else some (Token.tag "" (← tagBytes? uri), rest)
      | _ => none
    | cells => do
      let (handle, suffix) := shorthand ((cells.takeWhile fun c => isTagChar c.char).map (·.char))
      let rest := cells.dropWhile fun c => isTagChar c.char
      let bytes ← tagBytes? suffix
      if handle ≠ ['!'] then
        if suffix = [] then none else some (Token.tag (String.ofList handle) bytes, rest)
      else if bytes = [] then some (Token.tag "" (asciiBytes "!"), rest)
      else some (Token.tag "!" bytes, rest)
  let ended := atGap rest || (inFlow && (rest.head?.map (·.char)) == some ',')
  if ended then return (t, rest) else none

/-- The rest of a directive's line may hold a comment. -/
def directiveEnd? (cells : List Cell) : Option (List Cell) :=
  match skipGaps cells with
  | [] => some []
  | c :: rest =>
    if c.char = '#' then some (skipLine rest)
    else if isBreak c.char then some (c :: rest)
    else none

/-- A number of at most nine digits, and what follows it. -/
def versionNumber? (cells : List Cell) : Option (Nat × List Cell) :=
  let ds := (cells.takeWhile fun c => c.char.isDigit).map (·.char)
  if ds = [] ∨ 9 < ds.length then none
  else some (Decimal.ofDigits ds, cells.drop ds.length)

/-- The versions that documents may claim: a major and a minor number. -/
def knownVersions : List (Nat × Nat) := [(1, 1), (1, 2)]

/-- What follows a known version. -/
def version? (cells : List Cell) : Option (List Cell) := do
  let (major, rest) ← versionNumber? cells
  match rest with
  | [] => none
  | c :: rest =>
    let (minor, rest) ← versionNumber? rest
    if c.char = '.' ∧ knownVersions.contains (major, minor) then some rest else none

/-- A handle of a tag: one exclamation mark, or a name between two. -/
def isHandle (cs : List Char) : Bool :=
  match cs with
  | ['!'] => true
  | '!' :: rest =>
    match dropEnd? '!' rest with
    | some name => name.all isNameChar
    | none => false
  | _ => false

def word (cells : List Cell) : List Char :=
  (cells.takeWhile fun c => !isGap c.char && !isBreak c.char).map (·.char)

/-- The directive behind a percent sign. -/
def directive? (cells : List Cell) : Option (Token × List Cell) := do
  let name := word cells
  let rest := skipGaps (cells.drop name.length)
  if name = "YAML".toList then return (.version, ← directiveEnd? (← version? rest))
  else if name = "TAG".toList then
    let handle := word rest
    let rest := skipGaps (rest.drop handle.length)
    let expansion := word rest
    if isHandle handle ∧ expansion ≠ [] ∧ expansion.all isOpenTagChar then
      let bytes ← tagBytes? expansion
      return (.handle (String.ofList handle) bytes, ← directiveEnd? (rest.drop expansion.length))
    else none
  else none

end TagTemplate.Yaml
