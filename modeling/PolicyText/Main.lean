import PolicyText.CommandLine.Run

/-!
# The program

Reads what an invocation needs, and writes its outcome.
-/

namespace PolicyText.CommandLine

/-- Why something cannot be read. -/
def FileFault.ofError : IO.Error → FileFault
  | .noFileOrDirectory .. => .notFound
  | .permissionDenied .. => .denied
  | .inappropriateType _ 21 _ => .directory
  | .inappropriateType .. => .notDirectory
  | _ => .notText

/-- The contents of a file. -/
def readFile (path : String) : IO (Except FileFault String) := do
  try
    return .ok (← IO.FS.readFile path)
  catch error =>
    return .error (.ofError error)

/-- All bytes of a stream that are left. -/
partial def readBytes (stream : IO.FS.Stream) (bytes : ByteArray) : IO ByteArray := do
  let more ← stream.read 65536
  if more.isEmpty then return bytes
  readBytes stream (bytes ++ more)

/-- The text of the standard input. -/
def readStandardInput : IO (Except FileFault String) := do
  let bytes ← readBytes (← IO.getStdin) .empty
  match String.fromUTF8? bytes with
  | some text => return .ok text
  | none => return .error .notText

/-- The paths of the files that an invocation reads. -/
def Invocation.paths (invocation : Invocation) : List String :=
  invocation.settings.toList ++
    match invocation.source with
    | .file path => [path]
    | .argument _ | .standardInput => []

/-- The filter for the log that the environment sets.  Only the names of levels are understood. -/
def readLogFilter : IO (Option (Event → Bool)) := do
  let setting ← IO.getEnv "RUST_LOG"
  let level : Option EventLevel := setting.bind fun name => Literal.ofLiteral? name.toLower
  return level.map EventLevel.admits

/-- Reads the surroundings of an invocation.  The standard input is left alone where it does not
count. -/
def Invocation.readSurroundings (invocation : Invocation) : IO Surroundings := do
  let files ← invocation.paths.mapM fun path => do return (path, ← readFile path)
  let surroundings : Surroundings :=
    { file := fun path => (files.lookup path).getD (.error .notFound), standardInput := .ok "",
      logFilter := ← readLogFilter }
  if invocation.source = .standardInput ∧ (invocation.readLimits surroundings).isOk then
    return { surroundings with standardInput := ← readStandardInput }
  else return surroundings

/-- The surroundings of a command line that reads nothing. -/
def Surroundings.none : Surroundings :=
  { file := fun _ => .error .notFound, standardInput := .ok "" }

/-- Reads what a command line needs. -/
def readSurroundings (arguments : List String) : IO Surroundings :=
  match Request.ofArguments? arguments with
  | some (.run invocation) => invocation.readSurroundings
  | _ => return .none

end PolicyText.CommandLine

open PolicyText.CommandLine in
/-- Runs a command line. -/
def main (arguments : List String) : IO UInt32 := do
  let outcome := respond (← readSurroundings arguments) arguments
  (← IO.getStdout).putStr outcome.output
  (← IO.getStderr).putStr outcome.errors
  return outcome.code.toUInt32
