import TagTemplate.CommandLine.Run

/-! The command line over the files of the system. -/

namespace TagTemplate

def FileFault.ofSystem (e : IO.Error) : FileFault :=
  match e with
  | .noFileOrDirectory .. => .missing
  | .inappropriateType _ 20 _ => .notDirectory
  | .inappropriateType _ 21 _ => .isDirectory
  | e => .other e.toString

/-- Runs an action on the file at a path, unless no file can have that path. -/
def withPath {α : Type} (path : String) (action : IO (Except FileFault α)) :
    IO (Except FileFault α) := do
  if path.toList.contains '\x00' then return .error .zeroInPath
  try action
  catch e => return .error (.ofSystem e)

def systemFiles : FileAccess IO where
  read path := withPath path do
    match String.fromUTF8? (← IO.FS.readBinFile path) with
    | some text => return .ok text
    | none => return .error .notText
  write path content := withPath path do
    IO.FS.writeFile path content
    return .ok ()

end TagTemplate

def main (arguments : List String) : IO UInt32 := do
  let outcome ← TagTemplate.CommandLine.run TagTemplate.systemFiles arguments
  IO.print outcome.stdout
  IO.eprint outcome.stderr
  return outcome.exitCode.toUInt32
