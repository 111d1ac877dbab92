import NodeWeave.Catalog.File
import NodeWeave.CommandLine.Arguments
import NodeWeave.Document.Load
import NodeWeave.Program.Statement
import NodeWeave.Settings

/-!
# Running a command line

A run reads the settings, merges the catalogs, loads the graph document, and
writes or prints the program.  Whatever goes wrong before that ends it with nothing
written and nothing printed to the standard output; what goes wrong in printing ends it
after the file was written.
-/

namespace NodeWeave.CommandLine

/-- What a run finds around it besides files and variables. -/
structure Platform where
  variableFiles : VariableFiles
  /-- Is there a log already?  Then its level stays as it is. -/
  hasLog : Bool
  /-- Prints a text on the standard output: what comes out there, and the fault that ends
  the printing, if one does. -/
  print : String → String × Option Fault

/-- How a run ended. -/
inductive Ending where
  | status (code : Nat)
  /-- A fault that the command has no message for. -/
  | fault (cause : Fault)

/-- What a run leaves behind. -/
structure Run where
  output : String := ""
  errors : String := ""
  files : FileTree
  ending : Ending

/-- A run that fails with a message. -/
def failWith (files : FileTree) (errors message : String) : Run :=
  { errors := errors ++ "[error] " ++ message ++ "\n", files, ending := .status 1 }

/-- A run that a fault ends. -/
def endBy (files : FileTree) (errors : String) (cause : Fault) : Run :=
  { errors, files, ending := .fault cause }

/-- Merges catalog files until one fails; then also tells which. -/
def mergeFiles (files : FileTree) (c : Catalog) :
    List (Option String) → Catalog × Option (String × Fault)
  | [] => (c, none)
  | none :: _ => (c, some ("", .unsuitable))
  | some path :: rest =>
    match c.mergeFile files path with
    | (c, some fault) => (c, some (path, fault))
    | (c, none) => mergeFiles files c rest

/-- What to do about a catalog file that failed. -/
def catalogFailed (files : FileTree) (path : String) (fault : Fault) : Run :=
  match fault with
  | .file .missing _ => failWith files "" s!"Registry not found: {path}"
  | _ =>
    if fault.isRefusal then
      failWith files "" (s!"Invalid registry {path}: " ++ fault.message)
    else endBy files "" fault

/-- What to do about a document file that failed. -/
def documentFailed (files : FileTree) (fault : Fault) : Run :=
  match fault with
  | .json _ => failWith files "" ("Schema validation failed: " ++ fault.message)
  | .outline _ => failWith files "" ("Schema validation failed: " ++ fault.message)
  | _ => endBy files "" fault

/-- The lines that warn of what could not be loaded. -/
def warningText (r : Document.Report) : String :=
  String.join (r.warnings.map fun w => "[warning] " ++ w ++ "\n")

/-- Prints the program after what came out before. -/
def printed (platform : Platform) (files : FileTree) (errors before source : String) : Run :=
  let (output, fault) := platform.print (source ++ "\n")
  { output := before ++ output, errors, files
    ending := match fault with
      | none => .status 0
      | some cause => .fault cause }

/-- Writes the program to the file that was asked for, and prints it when there
is none or printing was asked for too. -/
def deliver (platform : Platform) (files : FileTree) (errors : String) (a : Arguments)
    (source : String) : Run :=
  match a.out.filter (· != "") with
  | none => printed platform files errors "" source
  | some path =>
    let written := files.writeText (Path.ofText path) source
    match written.fault with
    | some cause =>
      { output := written.output, errors, files := written.files, ending := .fault cause }
    | none =>
      if a.print then printed platform written.files errors written.output source
      else { output := written.output, errors, files := written.files, ending := .status 0 }

/-- Compiles a document that was read. -/
def compileDocument (platform : Platform) (files : FileTree) (a : Arguments) (limit : Value)
    (now : Moment) (c : Catalog) (doc : Value) : Run :=
  let loaded := Document.loadWithin .direct c Graph.empty doc
  match loaded.result with
  | .error fault => endBy files "" fault
  | .ok report =>
    let errors := warningText report
    match Program.sourceWithin Nesting.direct.ofText c loaded.state limit now with
    | .error fault =>
      if fault.isGeneration then
        failWith files errors ("Code generation failed: " ++ fault.message)
      else endBy files errors fault
    | .ok source => deliver platform files errors a source

/-- The catalog files: those of the arguments, else those of the settings. -/
def catalogPaths (s : Settings) (a : Arguments) : List (Option String) :=
  if a.catalogs.isEmpty then s.catalogPaths.map some else a.catalogs

/-- Compiles what the arguments ask for. -/
def compile (platform : Platform) (files : FileTree) (s : Settings) (a : Arguments)
    (now : Moment) : Run :=
  let paths := catalogPaths s a
  if paths.isEmpty then
    failWith files "" "No node registry given (use --registry or GRAPHCODEGEN_REGISTRY_PATHS)"
  else
    match mergeFiles files {} paths with
    | (_, some (path, fault)) => catalogFailed files path fault
    | (c, none) =>
      let path := Path.ofText a.graph
      match files.exists? path with
      | .error fault => endBy files "" fault
      | .ok false => failWith files "" s!"File not found: {path.text}"
      | .ok true =>
        match (files.readText path).bind Document.ofFileText with
        | .error fault => documentFailed files fault
        | .ok doc => compileDocument platform files a (a.dataLimit.getD (.int s.dataLimit)) now c doc

/-- What is wrong with the level of the log, if it has to be set. -/
def logFault? (platform : Platform) (s : Settings) : Option Fault :=
  if platform.hasLog then none else s.logFault?

/-- Runs a command line on the files and the variables of an environment. -/
def run (platform : Platform) (words : List String) (files : FileTree)
    (env : Table String String) (now : Moment) : Run :=
  match Invocation.ofWords words with
  | .help => { files, ending := .status 0 }
  | .misuse => { files, ending := .status 2 }
  | .compile a =>
    match Settings.load platform.variableFiles files env none with
    | .error fault => endBy files "" fault
    | .ok s =>
      match logFault? platform s with
      | some fault => endBy files "" fault
      | none => compile platform files s a now

end NodeWeave.CommandLine
