import NodeWeave.Settings
import NodeWeave.Text.Digit

/-!
# Files of environment variables

Such a file has lines `NAME=value`.  A name may follow the word `export` and may
stand in single quotes.  A value is the rest of its line without a comment, or a
quoted text, which may go over several lines.  A statement that cannot be read
is left out together with the rest of its line.  Values may refer to variables,
with a default for those that are not set.

The readers give what they read and the text after it, or else the text from
where reading failed.

`EnvFile.reader` is how the command reads such files; nothing else here depends on it.
-/

namespace NodeWeave.EnvFile

/-- A blank that does not end the line. -/
def isInlineBlank (c : Char) : Bool :=
  Text.isBlank c && c != '\n' && c != '\r'

/-- A text without the blanks at its end. -/
def trimEnd (cs : List Char) : List Char :=
  (cs.reverse.dropWhile Text.isBlank).reverse

/-- A variable, and its value when the statement gives one. -/
abbrev Binding := String × Option String

/-- Skips the word that may stand before a name. -/
def skipExport (cs : List Char) : List Char :=
  match cs with
  | 'e' :: 'x' :: 'p' :: 'o' :: 'r' :: 't' :: rest =>
    let after := rest.dropWhile isInlineBlank
    if after.length < rest.length then after else cs
  | _ => cs

/-- Reads the name of a variable; a comment has none. -/
def readName (cs : List Char) : Except (List Char) (Option String × List Char) :=
  match cs with
  | '#' :: _ => .ok (none, cs)
  | '\'' :: rest =>
    let name := rest.takeWhile (· != '\'')
    match rest.drop name.length with
    | _ :: after => if name.isEmpty then .error cs else .ok (some (String.ofList name), after)
    | [] => .error cs
  | _ =>
    let name := cs.takeWhile fun c => c != '=' && c != '#' && !Text.isBlank c
    if name.isEmpty then .error cs
    else .ok (some (String.ofList name), cs.drop name.length)

/-- Reads up to the closing quote.  A backslash takes the character after it
along, so a quote there does not close. -/
def readQuoted (quote : Char) (done : List Char) : List Char → Option (List Char × List Char)
  | [] => none
  | '\\' :: c :: rest => readQuoted quote (c :: '\\' :: done) rest
  | c :: rest =>
    if c = quote then some (done.reverse, rest)
    else if c = '\\' then none
    else readQuoted quote (c :: done) rest

/-- The character that a letter stands for after a backslash in double quotes. -/
def doubleEscape? : Char → Option Char
  | '\\' => some '\\'
  | '\'' => some '\''
  | '"' => some '"'
  | 'a' => some '\x07'
  | 'b' => some '\x08'
  | 'f' => some '\x0c'
  | 'n' => some '\n'
  | 'r' => some '\r'
  | 't' => some '\t'
  | 'v' => some '\x0b'
  | _ => none

/-- The character that one stands for after a backslash in single quotes. -/
def singleEscape? : Char → Option Char
  | '\\' => some '\\'
  | '\'' => some '\''
  | _ => none

/-- Replaces the escapes of a quoted text. -/
def unescape (escape? : Char → Option Char) : List Char → List Char
  | '\\' :: c :: rest =>
    match escape? c with
    | some d => d :: unescape escape? rest
    | none => '\\' :: unescape escape? (c :: rest)
  | c :: rest => c :: unescape escape? rest
  | [] => []

/-- A value without the comment, which starts at a `#` after a blank. -/
def cutComment (afterBlank : Bool) : List Char → List Char
  | [] => []
  | c :: rest =>
    if c = '#' && afterBlank then [] else c :: cutComment (Text.isBlank c) rest

/-- Reads a value; `afterBlank` says whether blanks stand before it. -/
def readValue (afterBlank : Bool) (cs : List Char) : Except (List Char) (String × List Char) :=
  let quoted (quote : Char) (escape? : Char → Option Char) (rest : List Char) :
      Except (List Char) (String × List Char) :=
    match readQuoted quote [] rest with
    | some (text, after) => .ok (String.ofList (unescape escape? text), after)
    | none => .error cs
  match cs with
  | '\'' :: rest => quoted '\'' singleEscape? rest
  | '"' :: rest => quoted '"' doubleEscape? rest
  | _ =>
    let line := cs.takeWhile fun c => c != '\n' && c != '\r'
    .ok (String.ofList (trimEnd (cutComment afterBlank line)), cs.drop line.length)

/-- Skips a comment. -/
def skipComment (cs : List Char) : List Char :=
  match cs.dropWhile isInlineBlank with
  | '#' :: rest => rest.dropWhile fun c => c != '\n' && c != '\r'
  | _ => cs

/-- Reads the end of a line. -/
def readLineEnd (cs : List Char) : Except (List Char) (Unit × List Char) :=
  match cs.dropWhile isInlineBlank with
  | [] => .ok ((), [])
  | '\r' :: '\n' :: rest => .ok ((), rest)
  | '\n' :: rest => .ok ((), rest)
  | '\r' :: rest => .ok ((), rest)
  | _ => .error cs

/-- Reads a statement.  A comment is a statement without a name. -/
def readStatement (cs : List Char) :
    Except (List Char) (Option Binding × List Char) := do
  let (name, cs) ← readName (skipExport cs)
  let cs := cs.dropWhile isInlineBlank
  let (value, cs) ← match cs with
    | '=' :: rest => do
      let value := rest.dropWhile isInlineBlank
      let (value, cs) ← readValue (decide (value.length < rest.length)) value
      pure (some value, cs)
    | _ => pure (none, cs)
  let ((), cs) ← readLineEnd (skipComment cs)
  return (name.map fun n => (n, value), cs)

/-- Skips the rest of a line. -/
def skipLine (cs : List Char) : List Char :=
  (cs.dropWhile fun c => c != '\n' && c != '\r').drop 1

/-- Reads statements, at most as many as the first argument says. -/
def readStatements : Nat → List Char → List Binding
  | 0, _ => []
  | fuel + 1, cs =>
    match cs.dropWhile Text.isBlank with
    | [] => []
    | cs =>
      match readStatement cs with
      | .ok (some binding, rest) => binding :: readStatements fuel rest
      | .ok (none, rest) => readStatements fuel rest
      | .error rest => readStatements fuel (skipLine rest)

/-- The statements of a file.  Each of them takes a character at least.  A byte
order mark in front is no part of them. -/
def read (text : List Char) : List Binding :=
  match text with
  | '\ufeff' :: rest => readStatements rest.length rest
  | _ => readStatements text.length text

/-- The reference to a variable at the front of a text: its name, its default,
and the text after it. -/
def reference? : List Char → Option (List Char × List Char × List Char)
  | '$' :: '\x7b' :: rest =>
    let name := rest.takeWhile fun c => c != '\x7d' && c != ':'
    match rest.drop name.length with
    | '\x7d' :: after => some (name, [], after)
    | ':' :: '-' :: tail =>
      let fallback := tail.takeWhile (· != '\x7d')
      match tail.drop fallback.length with
      | _ :: after => some (name, fallback, after)
      | [] => none
    | _ => none
  | _ => none

/-- Puts the values of variables in place of the references; `skip` characters
belong to the last one. -/
def expand (lookup : String → Option String) (skip : Nat) : List Char → List Char
  | [] => []
  | c :: rest =>
    match skip with
    | n + 1 => expand lookup n rest
    | 0 =>
      match reference? (c :: rest) with
      | some (name, fallback, after) =>
        ((lookup (String.ofList name)).map String.toList).getD fallback ++
          expand lookup (rest.length - after.length) rest
      | none => c :: expand lookup 0 rest

/-- The values of the statements with all references replaced.  A reference
means the variable of the environment before one of the file, and a variable
that a statement names without a value is empty. -/
def resolve (env : Table String String) (bindings : List Binding) : Table String (Option String) :=
  bindings.foldl (fun known (name, value) =>
    let lookup (x : String) : Option String :=
      match env.get? x with
      | some v => some v
      | none => (known.get? x).map (·.getD "")
    known.put name (value.map fun v => String.ofList (expand lookup 0 v.toList))) []

/-- The names of the variables that a text refers to. -/
def references : List Char → List String
  | [] => []
  | c :: rest =>
    match reference? (c :: rest) with
    | some (name, _, _) => String.ofList name :: references rest
    | none => references rest

/-- The names of all variables on which the meaning of a file depends. -/
def mentioned (text : List Char) : List String :=
  (read text).map (·.1) ++ references text

/-- Sets a variable.  Neither its name nor its value may hold the character with
code 0, and a name has no `=`. -/
def setVariable (env : Table String String) (name value : String) :
    Except Fault (Table String String) :=
  if name.contains '\x00' || value.contains '\x00' then .error .nullByte
  else if name.contains '=' then .error .badVariableName
  else .ok (env.put name value)

/-- Adds the variables of a file to an environment.  Variables that are set, to
whatever value, stay as they are. -/
def extend (env : Table String String) (text : List Char) : Except Fault (Table String String) :=
  (resolve env (read text)).foldlM (fun env' (name, value) =>
    match value with
    | some v => if env.has name then .ok env' else setVariable env' name v
    | none => .ok env') env

/-- The variable that says whether files of variables are to be left alone. -/
def fileSwitch : String := "PYTHON_DOTENV_DISABLED"

/-- A letter without regard to case; the long s is an s. -/
def foldCase (c : Char) : Char :=
  if c = 'ſ' then 's' else c.toLower

/-- Says a variable that files of variables are not to be read? -/
def ignoresFile (env : Table String String) : Bool :=
  match env.get? fileSwitch with
  | some said => ["1", "true", "t", "yes", "y"].contains (said.map foldCase)
  | none => false

/-- The environment with the variables of a file, if there is one. -/
def readFile (files : FileTree) (env : Table String String) (path : String) :
    Except Fault (Table String String) :=
  if ignoresFile env then .ok env
  else if path.toList.contains '\x00' then .error .nullByte
  else
    match files.contentsAt? path with
    | none => .ok env
    | some contents => do extend env (← FileTree.decodeText contents)

/-- Reads the file `.env` of the working directory unless another one is named. -/
def reader : VariableFiles where
  find := fun _ => ".env"
  read := readFile

/-- The names of the variables that a run looks at. -/
def variableNames : List String :=
  fileSwitch :: Settings.variableNames

end NodeWeave.EnvFile
