import NodeWeave.FileTree
import NodeWeave.Number.Integer
import NodeWeave.Program.Statement
import NodeWeave.Text.Upper

/-!
# Settings

The settings come from environment variables, to which a file of variables may
add.  A variable that is empty counts as not set.  How such a file is found and what it
adds is not settled here: `VariableFiles` stands for any way to do it.
-/

namespace NodeWeave

/-- How files of variables are read. -/
structure VariableFiles where
  /-- The path of the file to read when none is named. -/
  find : FileTree → String
  /-- The environment with what the file at a path adds to it. -/
  read : FileTree → Table String String → String → Except Fault (Table String String)

/-- The settings of a run. -/
structure Settings where
  /-- The catalog files to load at the start. -/
  catalogPaths : List String := []
  /-- The longest chain of expressions that is followed. -/
  dataLimit : Int := Program.defaultLimit
  logLevel : String := "INFO"
  host : String := "0.0.0.0"
  port : Int := 3001
  deriving DecidableEq

namespace Settings

/-- What the names of all variables start with. -/
def variablePrefix : String := "GRAPHCODEGEN_"

/-- The names of the variables that are read. -/
def variableNames : List String :=
  ["REGISTRY_PATHS", "MAX_DATA_DEPTH", "LOG_LEVEL", "HOST", "PORT", "ENV_FILE"].map
    (variablePrefix ++ ·)

/-- The variable of a setting, unless it is empty. -/
def setting? (env : Table String String) (name : String) : Option String :=
  match env.get? (variablePrefix ++ name) with
  | some "" => none
  | v => v

/-- A setting that is a whole number. -/
def integer (env : Table String String) (name : String) (default : Int) : Except Fault Int :=
  match setting? env name with
  | none => .ok default
  | some given =>
    match Integer.ofText given with
    | .ok n => .ok n
    | .error _ => .error (.badSetting (variablePrefix ++ name) given)

/-- Reads the settings from the variables. -/
def ofEnvironment (env : Table String String) : Except Fault Settings := do
  let paths := (setting? env "REGISTRY_PATHS").getD ""
  let dataLimit ← integer env "MAX_DATA_DEPTH" Program.defaultLimit
  let logLevel := Text.upper ((setting? env "LOG_LEVEL").getD "INFO")
  let host := (setting? env "HOST").getD "0.0.0.0"
  let port ← integer env "PORT" 3001
  return { catalogPaths := (Text.split ':' paths).filter (· != ""), dataLimit, logLevel, host, port }

/-- The file of variables: the given one, else the one that a variable names, else the
one that is found. -/
def variableFile (source : VariableFiles) (files : FileTree) (env : Table String String)
    (given : Option String) : String :=
  ((given.filter (· != "")).or (setting? env "ENV_FILE")).getD (source.find files)

/-- Reads the settings from the environment and the file of variables. -/
def load (source : VariableFiles) (files : FileTree) (env : Table String String)
    (given : Option String) : Except Fault Settings := do
  ofEnvironment (← source.read files env (variableFile source files env given))

/-- What is wrong with the level of the log, which is looked up among the names that the
log itself has: two of those name something that is no level. -/
def logFault? (s : Settings) : Option Fault :=
  if s.logLevel = "BASIC_FORMAT" then some .unknownLevel
  else if s.logLevel = "_STYLES" then some .unsuitable
  else none

end Settings

end NodeWeave
