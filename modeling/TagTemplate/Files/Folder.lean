import TagTemplate.Error
import TagTemplate.Files.Access

/-! Where templates come from: a loader answers a name with a source, and a folder is
a loader whose templates are the files with one extension under one directory. -/

namespace TagTemplate

abbrev Loader (m : Type → Type) := String → m (Except TemplateError String)

/-- The sources that a table holds. -/
def Loader.ofTable {m : Type → Type} [Monad m] (sources : Entries String) : Loader m :=
  fun name =>
    match sources.get? name with
    | some source => return .ok source
    | none => return .error (.notFound name)

/-- The extension is written without the dot in front of it; it may be empty. -/
structure Folder where
  base : String
  extension : String
  deriving DecidableEq, Repr

/-- Dots in front of an extension do not count. -/
def dropDots (extension : String) : String :=
  String.ofList (extension.toList.dropWhile (· == '.'))

namespace Folder

def defaultBase : String := "templates"

def defaultExtension : String := "tpl"

def make (base extension : String) : Folder :=
  ⟨base, dropDots extension⟩

def default : Folder :=
  make defaultBase defaultExtension

/-- Names lead downwards only. -/
def admits (name : List Char) : Bool :=
  name != [] && (Path.components name).all fun c =>
    match c with
    | .name _ => true
    | _ => false

def fileName (f : Folder) (name : List Char) : List Char :=
  if f.extension = "" then name else name ++ '.' :: f.extension.toList

/-- The path of a template; a name that could leave the folder has none. -/
def path? (f : Folder) (name : String) : Option String :=
  if admits name.toList then
    some (String.ofList (Path.join f.base.toList (f.fileName name.toList)))
  else none

/-- What reading a template's file comes to. -/
def answer (name : String) : Except FileFault String → Except TemplateError String
  | .ok source => .ok source
  | .error .missing => .error (.notFound name)
  | .error fault => .error (.unreadable name fault.message)

def load {m : Type → Type} [Monad m] (f : Folder) (files : FileAccess m) : Loader m :=
  fun name =>
    match f.path? name with
    | none => return .error (.notFound name)
    | some path => return answer name (← files.read path)

end Folder

end TagTemplate
