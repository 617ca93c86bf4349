import TagTemplate.Files.Folder
import TagTemplate.Render.Evaluate

/-! Templates by name. A name is loaded and compiled when it is first asked for, and
what came of it is kept until the name is dropped; failures are not kept. -/

namespace TagTemplate

/-- A template handed out by a catalog. Answers that share a serial number are one and
the same object. -/
structure Held where
  serial : Nat
  template : Template

/-- The globals come before the data of every request. -/
structure Catalog where
  globals : Entries Value
  held : Entries Held
  issued : Nat

/-- What a caller brings to the rendering of a named template. -/
structure Request where
  strings : Entries String
  data : Entries Value
  form : Option (Entries String)

namespace Catalog

def ofGlobals (globals : Entries Value) : Catalog :=
  ⟨globals, [], 0⟩

def setGlobal (c : Catalog) (name : String) (value : Value) : Catalog :=
  { c with globals := c.globals.insert name value }

def cachedCount (c : Catalog) : Nat :=
  c.held.length

def clear (c : Catalog) : Catalog :=
  { c with held := [] }

/-- Drops a name, and tells whether it was held. -/
def invalidate (c : Catalog) (name : String) : Bool × Catalog :=
  ((c.held.get? name).isSome, { c with held := c.held.erase name })

/-- Takes in what loading a name gave. -/
def store (c : Catalog) (name : String) (loaded : Except TemplateError String) :
    Except TemplateError Held × Catalog :=
  match loaded.bind (Template.compile · name) with
  | .error e => (.error e, c)
  | .ok t =>
    let h : Held := ⟨c.issued, t⟩
    (.ok h, { c with held := c.held.insert name h, issued := c.issued + 1 })

def inputs (c : Catalog) (r : Request) : Inputs :=
  ⟨r.strings, r.data, some c.globals, r.form⟩

section

variable {m : Type → Type} [Monad m]

/-- The template of a name. The loader is asked only if the name is not held. -/
def template (c : Catalog) (load : Loader m) (name : String) :
    m (Except TemplateError Held × Catalog) :=
  match c.held.get? name with
  | some h => return (.ok h, c)
  | none => return c.store name (← load name)

/-- Renders by name; a failure to render leaves the template held. -/
def render (c : Catalog) (load : Loader m) (name : String) (r : Request) :
    m (Except TemplateError String × Catalog) := do
  let (result, c) ← c.template load name
  return (result.bind fun h => h.template.render (c.inputs r), c)

end

end Catalog

end TagTemplate
