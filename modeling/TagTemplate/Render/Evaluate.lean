import TagTemplate.Expr.Scalar
import TagTemplate.Render.Field
import TagTemplate.Render.Lookup
import TagTemplate.Template.Basic

/-! Evaluating a template. Output grows at its end, a loop item is visible while its
body runs, and the first failure stops everything and says which tag it belongs to. -/

namespace TagTemplate

structure Failure where
  offset : Nat
  fault : RenderFault
  deriving DecidableEq, Repr

/-- What is written so far, and what can be seen. -/
structure Progress where
  output : String
  scope : Scope

abbrev Eval := ExceptT Failure (StateM Progress)

namespace Eval

def write (s : String) : Eval Unit :=
  modify fun p => { p with output := p.output ++ s }

def settle (id : Nat) : Eval Unit :=
  modify fun p => { p with scope := p.scope.settle id }

def unsettle (id : Nat) : Eval Unit :=
  modify fun p => { p with scope := p.scope.unsettle id }

def isSettled (id : Nat) : Eval Bool :=
  return (← get).scope.isSettled id

/-- Asks the scope; a fault is charged to the tag at the site. -/
def ask {α : Type} (site : Site) (question : Scope → Except RenderFault α) : Eval α := do
  match question (← get).scope with
  | .ok a => return a
  | .error fault => throw ⟨site.span.start, fault⟩

/-- Runs an action with a loop item in sight, which is out of sight again afterwards
also when the action fails. -/
def withFrame (f : Frame) (action : Eval Unit) : Eval Unit :=
  fun p =>
    let (result, p) := action { p with scope := p.scope.push f }
    (result, { p with scope := p.scope.pop })

def forEach (name : String) (action : Eval Unit) : List Value → Eval Unit
  | [] => return
  | v :: vs => do
    withFrame ⟨name, v⟩ action
    forEach name action vs

end Eval

/-- Whether a condition holds. -/
def Scope.holds (s : Scope) (args : List String) : Except RenderFault Bool := do
  let c ← Condition.parse args
  let left ← match c.left with
    | .literal text => pure (Scalar.ofText text)
    | .reference raw => Scalar.ofValue <$> s.resolve raw .scalar
  return c.operator.compares left (Scalar.ofText c.right)

/-- Item name and collection of a loop. -/
def loopHead (args : List String) : Except RenderFault (String × String) :=
  match args with
  | [item, keyword, collection] =>
    if keyword = "in" ∧ item ≠ "in" ∧ collection ≠ "in" then .ok (item, collection)
    else .error (.malformedLoop (joinWords args))
  | _ => .error (.malformedLoop (joinWords args))

/-- The item name of a loop and the values it runs over. -/
def Scope.iteration (s : Scope) (args : List String) : Except RenderFault (String × List Value) := do
  let (item, collection) ← loopHead args
  return (item, (← s.collection collection).elements)

def Scope.renderVariable (s : Scope) (raw : String) : Except RenderFault String :=
  Value.render <$> s.resolve raw .scalar

/-- A key without a text leaves its tag as it is written. -/
def Scope.renderLocale (s : Scope) (key raw : String) : String :=
  (s.localeText? key).getD raw

namespace Node

mutual

def run : Node → Eval Unit
  | text _ content => Eval.write content
  | fetch site raw => do Eval.write (← Eval.ask site (·.renderVariable raw))
  | localeText _ key raw => do Eval.write ((← get).scope.renderLocale key raw)
  | field site args => do Eval.write (← Eval.ask site (Field.render · args))
  | conditional site args body => do
    if ← Eval.ask site (·.holds args) then runAll body
  | choice site _ branches => do
    Eval.unsettle site.id
    runBranches site.id branches
  | loop site args body => do
    let (item, values) ← Eval.ask site (·.iteration args)
    Eval.forEach item (runAll body) values

def runAll : List Node → Eval Unit
  | [] => return
  | n :: ns => do
    n.run
    runAll ns

/-- A branch is entered if its conditional has not settled yet and its guard holds. -/
def runBranch (owner : Nat) : Branch Node → Eval Unit
  | ⟨site, guard, body⟩ => do
    if ← Eval.isSettled owner then return
    let enters ← match guard with
      | some args => Eval.ask site (·.holds args)
      | none => pure true
    if enters then
      Eval.settle owner
      runAll body

def runBranches (owner : Nat) : List (Branch Node) → Eval Unit
  | [] => return
  | b :: bs => do
    runBranch owner b
    runBranches owner bs

end

end Node

def Part.run : Part → Eval Unit
  | .node n => n.run
  | .branch owner b => Node.runBranch owner b

def Part.runAll : List Part → Eval Unit
  | [] => return
  | p :: ps => do
    p.run
    runAll ps

def Failure.toError (f : Failure) (template : String) : TemplateError :=
  .evaluation template f.offset f.fault

/-- The whole output of a template, or its first failure. -/
def Template.render (t : Template) (inputs : Inputs) : Except TemplateError String :=
  match (Node.runAll t.roots).run ⟨"", .ofInputs inputs⟩ with
  | (.ok (), p) => .ok p.output
  | (.error f, _) => .error (f.toError t.name)

end TagTemplate
