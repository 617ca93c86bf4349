import TagTemplate.Files.Path
import TagTemplate.Files.Tree

/-! A file system as a process sees it: all files from the root down, and the place among
them from which relative paths start. -/

namespace TagTemplate

/-- All files, and the names that lead from the root to the working directory. -/
structure FileSystem where
  root : FileTree
  here : List String

namespace FileSystem

/-- The shortest path in bytes that is refused. -/
def pathLimit : Nat := 4096

def top (s : FileSystem) : FileTree.Spot :=
  ⟨s.root, []⟩

/-- The segments that lead from the root to where a path leads. An absolute path has them
all; the others go on from the working directory. -/
def route (s : FileSystem) (path : String) : Except FileFault (List String) :=
  if path.toList.contains '\x00' then .error .zeroInPath
  else if pathLimit ≤ path.utf8ByteSize then .error .nameTooLong
  else if path = "" then .error .missing
  else
    let segments := (Path.segments path.toList).map String.ofList
    .ok (if path.toList.head? = some '/' then segments else s.here ++ segments)

/-- The place that a path leads to. -/
def place (s : FileSystem) (path : String) : Except FileFault FileTree.Spot := do
  s.top.follow (← s.route path)

/-- The text of the file at a path. -/
def read (s : FileSystem) (path : String) : Except FileFault String := do
  (← s.place path).node.text

/-- Writes a file into a directory that exists. -/
def write (s : FileSystem) (path content : String) : Except FileFault FileSystem := do
  let segments ← s.route path
  let folder ← s.top.follow segments.dropLast
  let name := segments.getLast?.getD ""
  match folder.node with
  | .file _ => throw .notDirectory
  | .directory entries =>
    if name = "" ∨ name = "." ∨ name = ".." then throw .isDirectory
    else if FileTree.nameLimit < name.utf8ByteSize then throw .nameTooLong
    else
      match Entries.get? entries name with
      | some (.directory _) => throw .isDirectory
      | _ =>
        return { s with root := .plant (.file content.toUTF8) s.root (folder.names ++ [name]) }

end FileSystem

end TagTemplate
