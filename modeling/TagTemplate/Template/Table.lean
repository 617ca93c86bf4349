import TagTemplate.Template.Basic

/-! A template as a table: one row for each node and branch, by number, in which
parents and children are named by their numbers. -/

namespace TagTemplate

inductive Content where
  | text (content : String)
  | fetch (reference : String)
  | localeText (key raw : String)
  | field (args : List String)
  | conditional (args : List String) (branched : Bool) (children : List Nat)
  | elseIf (args : List String) (children : List Nat)
  | otherwise (children : List Nat)
  | loop (args : List String) (children : List Nat)
  deriving DecidableEq, Repr

namespace Content

/-- The name of a construct as tags spell it. -/
def kind : Content → String
  | text _ => "text"
  | fetch _ => "?"
  | localeText _ _ => "!"
  | field _ => "input"
  | conditional .. => "if"
  | elseIf .. => "elseif"
  | otherwise _ => "else"
  | loop .. => "foreach"

def children : Content → List Nat
  | conditional _ _ cs | elseIf _ cs | otherwise cs | loop _ cs => cs
  | _ => []

end Content

structure Row where
  id : Nat
  parent : Option Nat
  span : Span
  content : Content
  deriving DecidableEq, Repr

namespace Node

def ids (ns : List Node) : List Nat :=
  ns.map fun n => n.site.id

/-- The row of a node itself. -/
def row (parent : Option Nat) (n : Node) : Row :=
  ⟨n.site.id, parent, n.site.span,
    match n with
    | text _ content => .text content
    | fetch _ reference => .fetch reference
    | localeText _ key raw => .localeText key raw
    | field _ args => .field args
    | conditional _ args body => .conditional args false (ids body)
    | choice _ args branches => .conditional args true (branches.map fun b => b.site.id)
    | loop _ args body => .loop args (ids body)⟩

def branchRow (owner : Nat) (b : Branch Node) : Row :=
  ⟨b.site.id, some owner, b.site.span,
    match b.guard with
    | some args => .elseIf args (ids b.body)
    | none => .otherwise (ids b.body)⟩

mutual

/-- The rows of a tree, a parent before its children. -/
def rows (parent : Option Nat) : Node → List Row
  | conditional site args body =>
    (conditional site args body).row parent :: rowsAll (some site.id) body
  | loop site args body => (loop site args body).row parent :: rowsAll (some site.id) body
  | choice site args branches =>
    (choice site args branches).row parent :: rowsBranches site.id branches
  | n => [n.row parent]

def rowsAll (parent : Option Nat) : List Node → List Row
  | [] => []
  | n :: ns => rows parent n ++ rowsAll parent ns

def rowsBranches (owner : Nat) : List (Branch Node) → List Row
  | [] => []
  | b :: bs => rowsBranch owner b ++ rowsBranches owner bs

def rowsBranch (owner : Nat) : Branch Node → List Row
  | ⟨site, guard, body⟩ => branchRow owner ⟨site, guard, body⟩ :: rowsAll (some site.id) body

end

end Node

/-- The rows of a template by number. -/
def Template.table (t : Template) : List Row :=
  (Node.rowsAll none t.roots).mergeSort fun a b => a.id ≤ b.id

end TagTemplate
