import TagTemplate.Text.Position

/-! The tree of a template. Every node and every branch has a number, given in the
order in which the tags call for them, and the source range it came from. -/

namespace TagTemplate

structure Site where
  id : Nat
  span : Span
  deriving DecidableEq, Repr

/-- One alternative of a conditional; without a guard it is the last resort. -/
structure Branch (ν : Type) where
  site : Site
  guard : Option (List String)
  body : List ν

inductive Node where
  | text (site : Site) (content : String)
  | fetch (site : Site) (reference : String)
  | localeText (site : Site) (key raw : String)
  | field (site : Site) (args : List String)
  | conditional (site : Site) (args : List String) (body : List Node)
  | choice (site : Site) (args : List String) (branches : List (Branch Node))
  | loop (site : Site) (args : List String) (body : List Node)

namespace Node

def site : Node → Site
  | text site _ | fetch site _ | localeText site _ _ | field site _ | conditional site _ _
  | choice site _ _ | loop site _ _ => site

mutual

/-- The number of nodes and branches in a tree. -/
def size : Node → Nat
  | text .. | fetch .. | localeText .. | field .. => 1
  | conditional _ _ body | loop _ _ body => sizeAll body + 1
  | choice _ _ branches => sizeBranches branches + 1

def sizeAll : List Node → Nat
  | [] => 0
  | n :: ns => n.size + sizeAll ns

def sizeBranches : List (Branch Node) → Nat
  | [] => 0
  | b :: bs => sizeBranch b + sizeBranches bs

def sizeBranch : Branch Node → Nat
  | ⟨_, _, body⟩ => sizeAll body + 1

end

end Node

/-- A place in the tree that has a number: a node, or a branch with the number of the
conditional it belongs to. -/
inductive Part where
  | node (n : Node)
  | branch (owner : Nat) (b : Branch Node)

namespace Node

mutual

/-- The parts of a tree in document order, a parent before its children. -/
def parts : Node → List Part
  | conditional site args body => .node (conditional site args body) :: partsAll body
  | loop site args body => .node (loop site args body) :: partsAll body
  | choice site args branches => .node (choice site args branches) :: partsBranches site.id branches
  | n => [.node n]

def partsAll : List Node → List Part
  | [] => []
  | n :: ns => n.parts ++ partsAll ns

def partsBranches (owner : Nat) : List (Branch Node) → List Part
  | [] => []
  | b :: bs => partsBranch owner b ++ partsBranches owner bs

def partsBranch (owner : Nat) : Branch Node → List Part
  | ⟨site, guard, body⟩ => .branch owner ⟨site, guard, body⟩ :: partsAll body

end

end Node

def Part.site : Part → Site
  | node n => n.site
  | branch _ b => b.site

end TagTemplate
