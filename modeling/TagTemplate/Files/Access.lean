import TagTemplate.Files.System

/-! Access to files, whatever holds them. -/

namespace TagTemplate

/-- How a computation reads and writes the text of files. -/
structure FileAccess (m : Type → Type) where
  read : String → m (Except FileFault String)
  write : String → String → m (Except FileFault Unit)

/-- Access to a file system that the computation carries along; a write that fails changes
nothing. -/
def FileSystem.access : FileAccess (StateM FileSystem) where
  read path := do return (← get).read path
  write path content := do
    match (← get).write path content with
    | .ok s =>
      set s
      return .ok ()
    | .error fault => return .error fault

end TagTemplate
