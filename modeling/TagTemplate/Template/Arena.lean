import TagTemplate.Template.Draft
import TagTemplate.Template.Table

/-! A template as an arena: its nodes stand in one array in the order in which they are
made, and name each other by their numbers. A node is made before it is known what it
holds, under the block or branch that is then open; its children and the end of its range
are filled in later, and children are linked to their holder once more. -/

namespace TagTemplate

namespace Content

/-- The same content over other children, where it can have any. -/
def withChildren (children : List Nat) : Content → Content
  | conditional args branched _ => conditional args branched children
  | elseIf args _ => elseIf args children
  | otherwise _ => otherwise children
  | loop args _ => loop args children
  | c => c

/-- A conditional whose children are branches. -/
def asBranched : Content → Content
  | conditional args _ children => conditional args true children
  | c => c

/-- The condition of a conditional. -/
def condition : Content → List String
  | conditional args .. => args
  | _ => []

/-- A block as it is opened. -/
def ofBlock (args : List String) : Block → Content
  | .conditional => conditional args false []
  | .loop => loop args []

/-- A branch as it is started. -/
def ofGuard : Option (List String) → Content
  | some args => elseIf args []
  | none => otherwise []

end Content

/-- An open block with the numbers of what it has come to hold. Its children, and after
the first branching tag those of its current branch, wait here until they are complete. -/
structure OpenBlock where
  block : Block
  id : Nat
  start : Nat
  children : List Nat
  branch : Option Nat
  branches : List Nat

structure Arena where
  rows : Array Row

namespace Arena

def empty : Arena := ⟨#[]⟩

def size (a : Arena) : Nat :=
  a.rows.size

def row? (a : Arena) (id : Nat) : Option Row :=
  a.rows[id]?

/-- Adds a node. Its number is the size that the arena had before. -/
def alloc (a : Arena) (parent : Option Nat) (span : Span) (content : Content) : Arena :=
  ⟨a.rows.push ⟨a.size, parent, span, content⟩⟩

def modify (a : Arena) (id : Nat) (f : Row → Row) : Arena :=
  ⟨a.rows.modify id f⟩

def setParent (parent : Nat) (a : Arena) (id : Nat) : Arena :=
  a.modify id fun r => { r with parent := some parent }

/-- Gives a node its children, and links each of them to it. -/
def setChildren (a : Arena) (id : Nat) (children : List Nat) : Arena :=
  (children.foldl (setParent id) a).modify id
    fun r => { r with content := r.content.withChildren children }

/-- Says where the range of a node ends. -/
def setStop (a : Arena) (id stop : Nat) : Arena :=
  a.modify id fun r => { r with span := ⟨r.span.start, stop⟩ }

def setBranched (a : Arena) (id : Nat) : Arena :=
  a.modify id fun r => { r with content := r.content.asBranched }

/-- The condition of the conditional with a number. -/
def condition (a : Arena) (id : Nat) : List String :=
  ((a.row? id).map fun r => r.content.condition).getD []

/-- Completes a branch with the children it has come to hold. -/
def completeBranch (a : Arena) (branch : Nat) (children : List Nat) (stop : Nat) : Arena :=
  (a.setChildren branch children).setStop branch stop

/-- Ends the branch of an open block and starts another. What precedes the first branching
tag goes into a branch that is made only now, under the block's own condition. -/
def startBranch (a : Arena) (l : OpenBlock) (tag : Span) (guard : Option (List String)) :
    OpenBlock × Arena :=
  let (ended, a) := match l.branch with
    | some branch => (branch, a)
    | none => (a.size, a.alloc (some l.id) ⟨l.start, tag.start⟩ (.elseIf (a.condition l.id) []))
  let a := a.completeBranch ended l.children tag.start
  ({ l with children := [], branch := some a.size, branches := l.branches ++ [ended] },
    a.alloc (some l.id) tag (.ofGuard guard))

/-- Gives an open block what it has come to hold, up to the end of its closing tag. -/
def closeBlock (a : Arena) (l : OpenBlock) (closing : Span) : Arena :=
  let a := match l.branch with
    | some branch =>
      let a := a.completeBranch branch l.children closing.start
      (a.setChildren l.id (l.branches ++ [branch])).setBranched l.id
    | none => a.setChildren l.id l.children
  a.setStop l.id closing.stop

theorem row?_alloc (a : Arena) (parent : Option Nat) (span : Span) (content : Content) (i : Nat) :
    (a.alloc parent span content).row? i =
      if i = a.size then some ⟨a.size, parent, span, content⟩ else a.row? i :=
  Array.getElem?_push

@[simp] theorem size_alloc (a : Arena) (parent : Option Nat) (span : Span) (content : Content) :
    (a.alloc parent span content).size = a.size + 1 := by
  simp [size, alloc]

theorem row?_modify (a : Arena) (id : Nat) (f : Row → Row) (i : Nat) :
    (a.modify id f).row? i = if id = i then (a.row? i).map f else a.row? i :=
  Array.getElem?_modify

@[simp] theorem size_modify (a : Arena) (id : Nat) (f : Row → Row) :
    (a.modify id f).size = a.size := by
  simp [size, modify]

theorem row?_foldl_setParent (id : Nat) (children : List Nat) (a : Arena) (i : Nat) :
    (children.foldl (setParent id) a).row? i =
      if i ∈ children then (a.row? i).map fun r => { r with parent := some id } else a.row? i := by
  induction children generalizing a with
  | nil => simp
  | cons c children ih =>
    rw [List.foldl_cons, ih, setParent, row?_modify]
    by_cases hc : c = i
    · subst hc
      simp [Function.comp_def]
    · simp [hc, Ne.symm hc]

@[simp] theorem size_foldl_setParent (id : Nat) (children : List Nat) (a : Arena) :
    (children.foldl (setParent id) a).size = a.size := by
  induction children generalizing a with
  | nil => rfl
  | cons c children ih => rw [List.foldl_cons, ih, setParent, size_modify]

@[simp] theorem size_setChildren (a : Arena) (id : Nat) (children : List Nat) :
    (a.setChildren id children).size = a.size := by
  simp [setChildren]

@[simp] theorem size_completeBranch (a : Arena) (branch : Nat) (children : List Nat) (stop : Nat) :
    (a.completeBranch branch children stop).size = a.size := by
  simp [completeBranch, setStop]

theorem size_closeBlock (a : Arena) (l : OpenBlock) (closing : Span) :
    (a.closeBlock l closing).size = a.size := by
  cases h : l.branch <;> simp [closeBlock, setStop, setBranched, h]

end Arena

/-- An arena being built, piece by piece; the innermost open block comes first. -/
structure Builder where
  pos : Nat
  arena : Arena
  text : List Char
  textStart : Nat
  blocks : List OpenBlock
  roots : List Nat

namespace Builder

def empty : Builder :=
  ⟨0, .empty, [], 0, [], []⟩

/-- Takes text in. -/
def append (b : Builder) (cs : List Char) : Builder :=
  { b with
    pos := b.pos + byteLength cs
    text := b.text ++ cs
    textStart := if b.text = [] then b.pos else b.textStart }

/-- The branch or block that nodes now go under. -/
def holder? (b : Builder) : Option Nat :=
  b.blocks.head?.map fun l => l.branch.getD l.id

/-- Makes a node where the next child belongs. -/
def attach (b : Builder) (span : Span) (content : Content) : Builder :=
  let b' := { b with arena := b.arena.alloc b.holder? span content }
  match b.blocks with
  | [] => { b' with roots := b.roots ++ [b.arena.size] }
  | l :: ls => { b' with blocks := { l with children := l.children ++ [b.arena.size] } :: ls }

/-- Turns the text that waits into a node. -/
def flush (b : Builder) : Builder :=
  if b.text = [] then b
  else
    let b' := b.attach ⟨b.textStart, b.textStart + byteLength b.text⟩ (.text (String.ofList b.text))
    { b' with text := [] }

/-- Adds a node that is complete with its own tag, which ends at `stop`. -/
def leaf (b : Builder) (stop : Nat) (content : Content) : Builder :=
  let b := b.flush
  { b.attach ⟨b.pos, stop⟩ content with pos := stop }

/-- Makes the node of a block, which spans its opening tag until the block is closed. -/
def openBlock (b : Builder) (stop : Nat) (block : Block) (args : List String) : Builder :=
  let b := b.flush
  let b' := b.attach ⟨b.pos, stop⟩ (.ofBlock args block)
  { b' with pos := stop, blocks := ⟨block, b.arena.size, b.pos, [], none, []⟩ :: b'.blocks }

/-- Starts a branch of the innermost block. -/
def startBranch (b : Builder) (stop : Nat) (guard : Option (List String)) : Builder :=
  let b := b.flush
  match b.blocks with
  | [] => b
  | l :: ls =>
    let (l, arena) := b.arena.startBranch l ⟨b.pos, stop⟩ guard
    { b with arena, pos := stop, blocks := l :: ls }

def closeBlock (b : Builder) (stop : Nat) (name : String) : Except NestingFault Builder :=
  let b := b.flush
  if name = "" then throw ⟨b.pos, .undetermined⟩
  else
    match b.blocks with
    | [] => throw ⟨b.pos, .unopened name⟩
    | l :: ls =>
      if l.block.name = name then
        return { b with arena := b.arena.closeBlock l ⟨b.pos, stop⟩, pos := stop, blocks := ls }
      else throw ⟨l.start, .misclosed l.block name⟩

/-- Branching tags mean something only directly in a conditional. -/
def inConditional (b : Builder) : Bool :=
  match b.blocks with
  | l :: _ => l.block == .conditional
  | [] => false

/-- Takes one piece in. A tag without meaning where it stands is text. -/
def step (b : Builder) : Piece → Except NestingFault Builder
  | .text content => return b.append content
  | .tag body =>
    let raw := (Piece.tag body).source
    let stop := b.pos + byteLength raw
    match Tag.ofBody body with
    | .blank => throw ⟨b.pos, .undetermined⟩
    | .close name => b.closeBlock stop name
    | .fetch reference => return b.leaf stop (.fetch reference)
    | .localeText key => return b.leaf stop (.localeText key (String.ofList raw))
    | .field args => return b.leaf stop (.field args)
    | .openBlock block args => return b.openBlock stop block args
    | .elseIf args =>
      return if b.inConditional then b.startBranch stop (some args) else b.append raw
    | .otherwise => return if b.inConditional then b.startBranch stop none else b.append raw
    | .unknown => return b.append raw

/-- The arena and the numbers of its roots; no block may be open any more. -/
def finish (b : Builder) : Except NestingFault (Arena × List Nat) :=
  let b := b.flush
  match b.blocks with
  | [] => return (b.arena, b.roots)
  | l :: _ => throw ⟨l.start, .unclosed l.block⟩

def ofPieces (b : Builder) (ps : List Piece) : Except NestingFault Builder :=
  ps.foldlM step b

end Builder

/-- The arena that a source is built into, and the numbers of its roots. -/
def Arena.ofSource (source : List Char) : Except NestingFault (Arena × List Nat) := do
  (← Builder.empty.ofPieces (pieces source)).finish

end TagTemplate
