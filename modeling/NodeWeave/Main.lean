import NodeWeave.CommandLine.Run
import NodeWeave.Settings.EnvFile
import Std.Time.DateTime.Timestamp

/-!
# The command

The command takes a snapshot of the files that the run can look at, runs, and
carries out what the run says.
-/

namespace NodeWeave.Command

/-- The command prints what it is given and sets up its own log. -/
def platform : CommandLine.Platform where
  variableFiles := EnvFile.reader
  hasLog := false
  print := fun text => (text, none)

/-- How the command is used. -/
def usage : String :=
  "usage: nodeweave [-h] [--registry FILE] [--out FILE] [--print] [--max-data-depth N] graph.json"

/-- A text as a string; half a character cannot be shown. -/
def shown (text : String) : String :=
  (Text.toString? text).getD text

/-- Adds what a path leads to to a snapshot. -/
def capture (files : FileTree) (path : String) : IO FileTree := do
  let p := Path.ofText path
  let l := Location.start p ++ p.parts
  try
    let contents ← IO.FS.readBinFile (shown p.text)
    return { files with files := files.files.put l contents }
  catch
    | .noFileOrDirectory .. => return files
    | _ => return { files with directories := files.directories ++ [l] }

/-- The variables with the given names that are set. -/
def readVariables (names : List String) : IO (Table String String) := do
  let mut env : Table String String := []
  for name in names do
    if let some v ← IO.getEnv name then
      env := env.put name (Text.ofString v)
  return env

/-- The variables that a run can look at, and a snapshot with the file that adds
to them. -/
def environment : IO (FileTree × Table String String) := do
  let env ← readVariables EnvFile.variableNames
  let path := Settings.variableFile EnvFile.reader {} env none
  let files ← capture {} path
  match files.contentsAt? path with
  | none => return (files, env)
  | some contents =>
    let text := (FileTree.decodeText contents).toOption.getD []
    return (files, ← readVariables (EnvFile.variableNames ++ EnvFile.mentioned text))

/-- The paths that a run looks at. -/
def paths (words : List String) (s : Settings) : List String :=
  match CommandLine.Invocation.ofWords words with
  | .compile a => a.graph :: (CommandLine.catalogPaths s a).filterMap id ++ a.out.toList
  | _ => []

/-- Writes the files that a run changed. -/
def store (before after : FileTree) : IO Unit := do
  for (l, contents) in before.changes after do
    unless l.dropLast.isEmpty do
      IO.FS.createDirAll (shown (Location.text l.dropLast))
    IO.FS.writeBinFile (shown (Location.text l)) contents

/-- Prints and writes what a run leaves behind. -/
def finish (before : FileTree) (run : CommandLine.Run) : IO UInt32 := do
  IO.eprint (shown run.errors)
  store before run.files
  IO.print (shown run.output)
  match run.ending with
  | .status code => return code.toUInt32
  | .fault cause =>
    IO.eprintln (shown cause.message)
    return 1

end NodeWeave.Command

open NodeWeave in
/-- Compiles a graph document to program text. -/
def main (arguments : List String) : IO UInt32 := do
  let words := arguments.map Text.ofString
  match CommandLine.Invocation.ofWords words with
  | .help => IO.println Command.usage
  | .misuse => IO.eprintln Command.usage
  | .compile _ => pure ()
  let (files, env) ← Command.environment
  let settings := (Settings.load EnvFile.reader files env none).toOption.getD {}
  let files ← (Command.paths words settings).foldlM Command.capture files
  let now := Moment.ofUnixMilliseconds (← Std.Time.Timestamp.now).toMillisecondsSinceUnixEpoch.toInt
  Command.finish files (CommandLine.run Command.platform words files env now)
