import TagTemplate.Value.Entries

/-! Trees of files, and how one walks in them. A walk goes segment by segment, so each
segment but the last has to lead into a directory. -/

namespace TagTemplate

inductive FileTree where
  | file (content : ByteArray)
  | directory (entries : List (String × FileTree))

/-- Why a file could not be read or written. -/
inductive FileFault where
  | missing
  | notDirectory
  | isDirectory
  | nameTooLong
  | notText
  | zeroInPath
  | other (reason : String)
  deriving DecidableEq, Repr

def FileFault.message : FileFault → String
  | missing => "No such file or directory (os error 2)"
  | notDirectory => "Not a directory (os error 20)"
  | isDirectory => "Is a directory (os error 21)"
  | nameTooLong => "File name too long (os error 36)"
  | notText => "stream did not contain valid UTF-8"
  | zeroInPath => "file name contained an unexpected NUL byte"
  | other reason => reason

namespace FileTree

def empty : FileTree := .directory []

/-- The text that something holds. -/
def text : FileTree → Except FileFault String
  | .directory _ => .error .isDirectory
  | .file content =>
    match String.fromUTF8? content with
    | some text => .ok text
    | none => .error .notText

/-- The longest name in bytes. -/
def nameLimit : Nat := 255

/-- A place reached: what is there, and the directories it is in, innermost first, each
with the name that leads on from it. -/
structure Spot where
  node : FileTree
  above : List (String × FileTree)

namespace Spot

def names (s : Spot) : List String :=
  (s.above.map (·.1)).reverse

/-- The directory around a place. The root is around itself. -/
def up (s : Spot) : Spot :=
  match s.above with
  | (_, parent) :: above => ⟨parent, above⟩
  | [] => s

/-- Goes one segment further. -/
def step (s : Spot) (segment : String) : Except FileFault Spot :=
  match s.node with
  | .file _ => .error .notDirectory
  | .directory entries =>
    if segment = "" ∨ segment = "." then .ok s
    else if segment = ".." then .ok s.up
    else if nameLimit < segment.utf8ByteSize then .error .nameTooLong
    else
      match Entries.get? entries segment with
      | none => .error .missing
      | some node => .ok ⟨node, (segment, s.node) :: s.above⟩

def follow (s : Spot) (segments : List String) : Except FileFault Spot :=
  segments.foldlM step s

end Spot

/-- Puts something at the place that names lead to, making the directories on the way. -/
def plant (node : FileTree) : FileTree → List String → FileTree
  | _, [] => node
  | .file _, s :: rest => .directory [(s, plant node empty rest)]
  | .directory entries, s :: rest =>
    .directory (Entries.insert s (plant node ((Entries.get? entries s).getD empty) rest) entries)

/-- Takes away what is at the place that names lead to. -/
def uproot : FileTree → List String → FileTree
  | .directory entries, [s] => .directory (Entries.erase entries s)
  | .directory entries, s :: rest =>
    match Entries.get? entries s with
    | some node => .directory (Entries.insert s (uproot node rest) entries)
    | none => .directory entries
  | t, _ => t

end FileTree

end TagTemplate
