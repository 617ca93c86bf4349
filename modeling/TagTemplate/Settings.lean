import TagTemplate.Files.Folder
import TagTemplate.Yaml.Value

/-! Settings: where templates are, and the variables that every render can see. They
are written as a YAML mapping in which each key is optional. -/

namespace TagTemplate

/-- The extension is kept as written, with the dots in front of it. -/
structure Settings where
  folder : String
  extension : String
  globals : Entries Value

namespace Settings

def default : Settings :=
  ⟨Folder.defaultBase, Folder.defaultExtension, []⟩

/-- Settings as the defaults; folders are compared as paths. -/
def isDefault (s : Settings) : Bool :=
  samePath s.folder default.folder && s.extension == default.extension && s.globals.isEmpty

def toFolder (s : Settings) : Folder :=
  Folder.make s.folder s.extension

/-- Collections in a document nest at most this deep. -/
def depthLimit : Nat := 128

/-- The mapping of globals; its keys may be any scalars. -/
def readGlobals (d : Yaml.Document) (y : Yaml) : Yaml.Walk (Entries Value) := do
  let pairs ← (← d.members y).mapM fun m => do
    return (← d.text m.1, ← d.value (depthLimit - 2) m.2)
  return Entries.ofPairs pairs

def set (s : Settings) (d : Yaml.Document) (key : String) (value : Yaml) :
    Yaml.Walk Settings := do
  match key with
  | "template-dir" => return { s with folder := ← d.text value }
  | "extension" => return { s with extension := ← d.text value }
  | "globals" => return { s with globals := ← readGlobals d value }
  | _ => failure

/-- Every key is known and stands once. -/
def ofDocument? (d : Yaml.Document) : Option Settings :=
  d.walk? do
    let members ← (← d.members d.root).mapM fun m => do return (← d.text m.1, m.2)
    if (members.map (·.1)).Nodup then
      members.foldlM (fun s m => s.set d m.1 m.2) default
    else failure

def malformed : TemplateError := .settings "not a mapping of settings"

def emptyExtension : TemplateError := .settings "extension must not be empty"

def read (source : String) : Except TemplateError Settings :=
  match (Yaml.read? source).bind ofDocument? with
  | none => .error malformed
  | some s => if dropDots s.extension = "" then .error emptyExtension else .ok s

/-- What is wrong with the settings in a file, said with its path. -/
def inFile (path : String) : TemplateError → TemplateError
  | .settings reason => .settings s!"{path}: {reason}"
  | e => e

def load {m : Type → Type} [Monad m] (files : FileAccess m) (path : String) :
    m (Except TemplateError Settings) := do
  match ← files.read path with
  | .error fault => return .error (.unreadable path fault.message)
  | .ok source => return (read source).mapError (inFile path)

end Settings

end TagTemplate
