import TagTemplate.Template.Node
import TagTemplate.Template.Piece
import TagTemplate.Template.Tag

/-! A template being put together, piece by piece. Blocks that are still open wait in
a stack of levels, innermost first; text that no tag has ended yet waits beside them. -/

namespace TagTemplate

/-- Why a row of tags is not well nested. -/
inductive Misnesting where
  | undetermined
  | unopened (name : String)
  | misclosed (block : Block) (name : String)
  | unclosed (block : Block)
  deriving DecidableEq, Repr

def Misnesting.message : Misnesting → String
  | undetermined => "the type of tag could not be determined"
  | unopened name => s!"closing tag '\x7b%/{name}\x7d' has no matching opening tag"
  | misclosed block name =>
    s!"'\x7b%{block.name}\x7d' block opened here is closed by '\x7b%/{name}\x7d'"
  | unclosed block => s!"'\x7b%{block.name}\x7d' block is never closed"

/-- A misnesting and the offset of the tag it is charged to. -/
structure NestingFault where
  offset : Nat
  cause : Misnesting
  deriving DecidableEq, Repr

/-- The branch that now receives children. -/
structure OpenBranch where
  id : Nat
  start : Nat
  guard : Option (List String)

/-- An open block. Before its first branching tag a conditional has no branches;
after it, `finished` holds those that are complete. -/
structure Level where
  block : Block
  id : Nat
  start : Nat
  args : List String
  finished : List (Branch Node)
  current : Option OpenBranch
  children : List Node

structure Draft where
  pos : Nat
  nextId : Nat
  pending : List Char
  levels : List Level
  roots : List Node

def OpenBranch.finish (b : OpenBranch) (stop : Nat) (children : List Node) : Branch Node :=
  ⟨⟨b.id, ⟨b.start, stop⟩⟩, b.guard, children⟩

/-- The node of a block whose closing tag takes up the given range. -/
def Level.finish (l : Level) (closing : Span) : Node :=
  let site : Site := ⟨l.id, ⟨l.start, closing.stop⟩⟩
  match l.block, l.current with
  | .conditional, none => .conditional site l.args l.children
  | .conditional, some b =>
    .choice site l.args (l.finished ++ [b.finish closing.start l.children])
  | .loop, _ => .loop site l.args l.children

namespace Draft

def empty : Draft :=
  ⟨0, 0, [], [], []⟩

/-- Takes text in. -/
def append (d : Draft) (cs : List Char) : Draft :=
  { d with pos := d.pos + byteLength cs, pending := d.pending ++ cs }

/-- Puts a finished node where the next child belongs. -/
def attach (d : Draft) (n : Node) : Draft :=
  match d.levels with
  | [] => { d with roots := d.roots ++ [n] }
  | l :: ls => { d with levels := { l with children := l.children ++ [n] } :: ls }

/-- Turns the text that waits into a node. -/
def flush (d : Draft) : Draft :=
  if d.pending = [] then d
  else
    let site : Site := ⟨d.nextId, ⟨d.pos - byteLength d.pending, d.pos⟩⟩
    let d' := d.attach (.text site (String.ofList d.pending))
    { d' with nextId := d.nextId + 1, pending := [] }

/-- Adds a node that is complete with its own tag, which ends at `stop`. -/
def leaf (d : Draft) (stop : Nat) (node : Site → Node) : Draft :=
  let d := d.flush
  let d' := d.attach (node ⟨d.nextId, ⟨d.pos, stop⟩⟩)
  { d' with nextId := d.nextId + 1, pos := stop }

def openBlock (d : Draft) (stop : Nat) (block : Block) (args : List String) : Draft :=
  let d := d.flush
  let level : Level := ⟨block, d.nextId, d.pos, args, [], none, []⟩
  { d with nextId := d.nextId + 1, pos := stop, levels := level :: d.levels }

/-- Ends the branch of the innermost block and starts another. What precedes the first
branching tag becomes a branch under the guard of the block itself. -/
def startBranch (d : Draft) (stop : Nat) (guard : Option (List String)) : Draft :=
  let d := d.flush
  match d.levels with
  | [] => d
  | l :: ls =>
    let (ended, nextId) := match l.current with
      | some b => (b, d.nextId)
      | none => (⟨d.nextId, l.start, some l.args⟩, d.nextId + 1)
    let level : Level :=
      { l with
        finished := l.finished ++ [ended.finish d.pos l.children]
        current := some ⟨nextId, d.pos, guard⟩
        children := [] }
    { d with nextId := nextId + 1, pos := stop, levels := level :: ls }

def closeBlock (d : Draft) (stop : Nat) (name : String) : Except NestingFault Draft :=
  let d := d.flush
  if name = "" then throw ⟨d.pos, .undetermined⟩
  else
    match d.levels with
    | [] => throw ⟨d.pos, .unopened name⟩
    | l :: ls =>
      if l.block.name = name then
        let closed : Draft := { d with levels := ls }
        return { closed.attach (l.finish ⟨d.pos, stop⟩) with pos := stop }
      else throw ⟨l.start, .misclosed l.block name⟩

/-- Branching tags mean something only directly in a conditional. -/
def inConditional (d : Draft) : Bool :=
  match d.levels with
  | l :: _ => l.block == .conditional
  | [] => false

/-- Takes one piece in. A tag without meaning where it stands is text. -/
def step (d : Draft) : Piece → Except NestingFault Draft
  | .text content => return d.append content
  | .tag body =>
    let raw := (Piece.tag body).source
    let stop := d.pos + byteLength raw
    match Tag.ofBody body with
    | .blank => throw ⟨d.pos, .undetermined⟩
    | .close name => d.closeBlock stop name
    | .fetch reference => return d.leaf stop (.fetch · reference)
    | .localeText key => return d.leaf stop (.localeText · key (String.ofList raw))
    | .field args => return d.leaf stop (.field · args)
    | .openBlock block args => return d.openBlock stop block args
    | .elseIf args =>
      return if d.inConditional then d.startBranch stop (some args) else d.append raw
    | .otherwise => return if d.inConditional then d.startBranch stop none else d.append raw
    | .unknown => return d.append raw

/-- The finished tree; no block may be open any more. -/
def finish (d : Draft) : Except NestingFault (List Node) :=
  let d := d.flush
  match d.levels with
  | [] => return d.roots
  | l :: _ => throw ⟨l.start, .unclosed l.block⟩

def ofPieces (d : Draft) (ps : List Piece) : Except NestingFault Draft :=
  ps.foldlM step d

end Draft

end TagTemplate
