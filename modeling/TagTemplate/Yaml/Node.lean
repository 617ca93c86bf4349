import TagTemplate.Value.Entries
import TagTemplate.Yaml.Scan

/-! Documents as trees, built from their tokens. A mention of an anchor stays a leaf of
the tree: which node it stands for is settled when the whole document has been read. -/

namespace TagTemplate

inductive Yaml where
  | scalar (demand : Yaml.Demand) (plain : Bool) (text : String)
  | sequence (demand : Yaml.Demand) (items : List Yaml)
  | mapping (demand : Yaml.Demand) (members : List (Yaml × Yaml))
  | mention (anchor : Nat)

namespace Yaml

/-- What stands where nothing is written. -/
def empty (tag : Option Demand) : Yaml := .scalar (tag.getD .nothing) true ""

/-- The tokens still to be read, the tag handles, the numbers of the anchors' names, the
anchored nodes in the order in which they start, and how many parts have been read. -/
structure Reading where
  tokens : List Token
  handles : List (String × Bytes)
  names : Entries Nat
  anchored : List (Nat × Yaml)
  parts : Nat

abbrev Read := StateT Reading Option

/-- A document that has been read: its tree, its anchored nodes with their numbers in the
order in which they start, and the number of its parts. -/
structure Document where
  root : Yaml
  anchored : List (Nat × Yaml)
  parts : Nat

namespace Read

def next : Read (Option Token) :=
  return (← get).tokens.head?

def skip : Read Unit :=
  modify fun r => { r with tokens := r.tokens.tail }

def expect (t : Token) : Read Unit := do
  if (← next) = some t then skip else failure

/-- Skips a token if it is the next one, and tells whether it was. -/
def accept (t : Token) : Read Bool := do
  if (← next) = some t then
    skip
    return true
  else return false

def countParts (n : Nat) : Read Unit :=
  modify fun r => { r with parts := r.parts + n }

def expand (handle : String) (suffix : Bytes) : Read Demand := do
  if handle = "" then return .ofTag suffix
  match ((← get).handles ++ standardHandles).lookup handle with
  | some expansion => return .ofTag (expansion ++ suffix)
  | none => failure

def anchor? : Read (Option String) := do
  match ← next with
  | some (.anchor name) =>
    skip
    return some name
  | _ => return none

def tag? : Read (Option Demand) := do
  match ← next with
  | some (.tag handle suffix) =>
    skip
    return some (← expand handle suffix)
  | _ => return none

/-- An anchor and a tag, in either order. -/
def properties : Read (Option String × Option Demand) := do
  match ← anchor? with
  | some name => return (some name, ← tag?)
  | none =>
    let tag ← tag?
    return (← anchor?, tag)

/-- Gives the node that starts here the number of its anchor: how many names there were
before. A name that comes again takes a new number, which it may come to share with
the name after it. The place of the node among the anchored ones is returned. -/
def declare (name : String) : Read Nat := do
  let r ← get
  let number := r.names.length
  set { r with
    names := r.names.insert name number
    anchored := r.anchored ++ [(number, empty none)] }
  return r.anchored.length

def complete (place : Nat) (node : Yaml) : Read Unit :=
  modify fun r => { r with anchored := r.anchored.modify place fun e => (e.1, node) }

def mention (name : String) : Read Yaml := do
  countParts 1
  match (← get).names.get? name with
  | some number => return .mention number
  | none => failure

/-- Whether the next token is among some. -/
def isNext (ts : List Token) : Read Bool := do
  match ← next with
  | some t => return ts.contains t
  | none => return false

def emptyScalar (tag : Option Demand) : Read Yaml := do
  countParts 1
  return empty tag

/-- Which collections may stand at a place: block collections, and also a sequence that
is not indented further than the mapping around it. -/
inductive Place where
  | flow
  | block
  | underKey
  deriving DecidableEq

mutual

def node (fuel : Nat) (place : Place) : Read Yaml :=
  match fuel with
  | 0 => failure
  | fuel + 1 => do
    match ← next with
    | some (.mention name) =>
      skip
      mention name
    | _ =>
      let (anchor, tag) ← properties
      match anchor with
      | none => content fuel place false tag
      | some name =>
        let slot ← declare name
        let node ← content fuel place true tag
        complete slot node
        return node

/-- A node without its properties; if it has some, nothing needs to follow them. -/
def content (fuel : Nat) (place : Place) (anchored : Bool) (tag : Option Demand) :
    Read Yaml :=
  match fuel with
  | 0 => failure
  | fuel + 1 => do
    let demand := tag.getD .nothing
    match ← next, place with
    | some (.scalar plain text), _ =>
      skip
      countParts 1
      return .scalar demand plain text
    | some .openFlowSequence, _ =>
      skip
      countParts 2
      return .sequence demand (← flowItems fuel true)
    | some .openFlowMapping, _ =>
      skip
      countParts 2
      return .mapping demand (← flowMembers fuel true)
    | some .openSequence, .block | some .openSequence, .underKey =>
      skip
      countParts 2
      let items ← blockItems fuel [.item, .close]
      expect .close
      return .sequence demand items
    | some .openMapping, .block | some .openMapping, .underKey =>
      skip
      countParts 2
      return .mapping demand (← blockMembers fuel)
    | some .item, .underKey =>
      countParts 2
      return .sequence demand (← blockItems fuel [.item, .key, .value, .close])
    | _, _ => if anchored || tag.isSome then emptyScalar tag else failure

/-- A node, unless one of the tokens comes that show that it is empty. -/
def nodeUnless (fuel : Nat) (place : Place) (ends : List Token) : Read Yaml :=
  match fuel with
  | 0 => failure
  | fuel + 1 => do
    if ← isNext ends then emptyScalar none else node fuel place

/-- Items behind dashes. -/
def blockItems (fuel : Nat) (ends : List Token) : Read (List Yaml) :=
  match fuel with
  | 0 => failure
  | fuel + 1 => do
    if ← accept .item then
      let item ← nodeUnless fuel .block ends
      return item :: (← blockItems fuel ends)
    else return []

def blockMembers (fuel : Nat) : Read (List (Yaml × Yaml)) :=
  match fuel with
  | 0 => failure
  | fuel + 1 => do
    if ← accept .close then return []
    expect .key
    let key ← nodeUnless fuel .underKey [.key, .value, .close]
    let value ← if ← accept .value then nodeUnless fuel .underKey [.key, .value, .close]
      else emptyScalar none
    return (key, value) :: (← blockMembers fuel)

/-- The value behind a key in a flow collection, up to one of the tokens that end it. -/
def flowValue (fuel : Nat) (ends : List Token) : Read Yaml :=
  match fuel with
  | 0 => failure
  | fuel + 1 => do
    if ← accept .value then nodeUnless fuel .flow ends else emptyScalar none

/-- The items of a flow sequence; an item with a key is a mapping of one member. -/
def flowItems (fuel : Nat) (first : Bool) : Read (List Yaml) :=
  match fuel with
  | 0 => failure
  | fuel + 1 => do
    if ← accept .closeFlowSequence then return []
    unless first do expect .comma
    if ← accept .closeFlowSequence then return []
    let item ← if ← accept .key then
        countParts 2
        let key ← nodeUnless fuel .flow [.value, .comma, .closeFlowSequence]
        let value ← flowValue fuel [.comma, .closeFlowSequence]
        pure (.mapping .nothing [(key, value)])
      else node fuel .flow
    return item :: (← flowItems fuel false)

def flowMembers (fuel : Nat) (first : Bool) : Read (List (Yaml × Yaml)) :=
  match fuel with
  | 0 => failure
  | fuel + 1 => do
    if ← accept .closeFlowMapping then return []
    unless first do expect .comma
    if ← accept .closeFlowMapping then return []
    let member ← if ← accept .key then
        let key ← nodeUnless fuel .flow [.value, .comma, .closeFlowMapping]
        let value ← flowValue fuel [.comma, .closeFlowMapping]
        pure (key, value)
      else
        let key ← node fuel .flow
        pure (key, ← emptyScalar none)
    return member :: (← flowMembers fuel false)

end

/-- The directives in front of a document, each version and handle at most once. -/
def directives (versioned : Bool) (handles : List (String × Bytes)) :
    List Token → Option (List (String × Bytes) × List Token)
  | .version :: ts => if versioned then none else directives true handles ts
  | .handle name expansion :: ts =>
    if (handles.lookup name).isSome then none
    else directives versioned ((name, expansion) :: handles) ts
  | ts => some (handles, ts)

/-- The one document that the tokens hold. -/
def document? (tokens : List Token) : Option Document := do
  let (handles, rest) ← directives false [] tokens
  let marked := rest.head? = some .documentStart
  if rest.length < tokens.length ∧ ¬ marked then none
  let rest := if marked then rest.tail else rest
  let bare := rest.isEmpty || (marked && rest.head? == some .documentEnd)
  let (root, r) ←
    (if bare then emptyScalar none else node (4 * tokens.length + 4) .block).run
      ⟨rest, handles, [], [], 0⟩
  if r.tokens.all (· == .documentEnd) then return ⟨root, r.anchored, r.parts⟩ else none

end Read

/-- Reads a text that holds one document; a text that holds none counts as empty. -/
def read? (source : String) : Option Document := do
  Read.document? (← tokens? source)

end Yaml

end TagTemplate
