import AccessFilter.Cli.Run

/-!
# The program

Reads the variables of the process and the files that a run looks at, and prints what the run gives.
-/

namespace AccessFilter.Program

def readEnvironment : IO Environment := do
  let octets ← IO.FS.readBinFile "/proc/self/environ"
  let text := (String.fromUTF8? octets).getD ""
  return (text.splitOn "\x00").filterMap fun entry =>
    match entry.splitOn "=" with
    | name :: value :: more => some (name, "=".intercalate (value :: more))
    | _ => none

/-- Why nothing could be read. -/
def faultOf : IO.Error → FileError
  | .inappropriateType _ _ _ => .notFolder
  | .invalidArgument _ _ _ => .nameTooLong
  | _ => .notFound

def readFile (path : String) : IO (Except FileError FileTree) := do
  try
    return .ok (.ofOctets (← IO.FS.readBinFile path))
  catch e =>
    return .error (faultOf e)

/-- What stands at a path. -/
partial def readTree (path : String) : IO (Except FileError FileTree) := do
  try
    let place ← IO.FS.realPath path
    if ← place.isDir then
      let mut entries := []
      for entry in ← place.readDir do
        if let .ok tree ← readTree entry.path.toString then
          entries := (entry.fileName, tree) :: entries
      return .ok (.folder entries)
    else readFile path
  catch _ => readFile path

/-- The file with further variables, in the working directory or the nearest one above it. -/
def readDotenv (levels : Nat) : IO (Except FileError FileTree) := do
  let mut up := ""
  for _ in [0:levels] do
    if let .ok (.file text) ← readTree (up ++ dotenvPath) then
      return .ok (.file text)
    up := up ++ "../"
  return .error .notFound

/-- The files that a run looks at, by the paths at which it does. -/
def readDisk (env : Environment) (args : List String) : IO Disk := do
  let dotenv ← readDotenv 64
  let mut found := [(dotenvPath, dotenv)]
  for path in pathsOf ((withDotenv (fun _ => dotenv) env).getD env) args do
    found := (path, ← readTree path) :: found
  let known := found
  return fun path => (Fields.find? path known).getD (.error .notFound)

end AccessFilter.Program

def main (args : List String) : IO UInt32 := do
  let env ← AccessFilter.Program.readEnvironment
  let disk ← AccessFilter.Program.readDisk env args
  let outcome := AccessFilter.run disk env args
  IO.print outcome.output
  IO.eprint outcome.errors
  return outcome.exitCode.toUInt32
