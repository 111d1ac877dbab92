import NodeWeave.Number.Integer

/-!
# Command-line arguments

The command takes the path of a graph document and some options.  Long options
may be shortened as long as only one is meant, an option's value may follow it
or be attached with `=`, and after the word `--` everything is taken as it
stands.  First every word is classified, then the words are used from left to
right; the first word that cannot be used decides, unless help is asked for
before it.
-/

namespace NodeWeave.CommandLine

/-- The options. -/
inductive Flag where
  | help
  | shortHelp
  | catalog
  | out
  | print
  | dataLimit
  deriving DecidableEq

/-- The words of the options. -/
def flagWords : List (String × Flag) := [
  ("-h", .shortHelp), ("--help", .help), ("--registry", .catalog), ("--out", .out),
  ("--print", .print), ("--max-data-depth", .dataLimit)]

/-- What a word is. -/
inductive Word where
  | plain (text : String)
  | divider
  /-- An option with what is attached to it, if anything. -/
  | option (flag : Flag) (attached : Option String)
  | unknown
  deriving DecidableEq

/-- What the arguments ask for. -/
structure Arguments where
  graph : String
  /-- The catalog files; an option whose value is the divider names none. -/
  catalogs : List (Option String)
  out : Option String
  print : Bool
  dataLimit : Option Value

/-- What a command line comes to. -/
inductive Invocation where
  | help
  | misuse
  | compile (arguments : Arguments)

/-- The option of a word. -/
def flag? (word : String) : Option Flag :=
  Table.get? flagWords word

/-- A word up to the first `=`, and what follows that. -/
def splitAttached (word : String) : String × Option String :=
  match Text.split '=' word with
  | name :: part :: parts => (name, some ("=".intercalate (part :: parts)))
  | _ => (word, none)

/-- Is the word a negative number? -/
def isNegativeNumber (word : String) : Bool :=
  let isDigit (c : Char) : Bool := (Text.digitValue? c).isSome
  let cs := match word.toList.reverse with
    | '\n' :: rest => rest.reverse
    | _ => word.toList
  match cs with
  | '-' :: rest =>
    match rest.dropWhile isDigit with
    | [] => !rest.isEmpty
    | '.' :: fraction => !fraction.isEmpty && fraction.all isDigit
    | _ => false
  | _ => false

/-- The options that a word may be short for. -/
def candidates (word : String) : List Word :=
  if word.startsWith "--" then
    let (name, attached) := splitAttached word
    (flagWords.filter fun (w, _) => w.startsWith name).map fun (_, f) => .option f attached
  else
    let cs := word.toList
    flagWords.filterMap fun (w, f) =>
      if w.toList = cs.take 2 then some (.option f (some (String.ofList (cs.drop 2))))
      else if w.startsWith word then some (.option f none)
      else none

/-- What a word is, unless it is short for several options. -/
def classify (word : String) : Option Word :=
  if !word.startsWith "-" then some (.plain word)
  else
    match flag? word with
    | some f => some (.option f none)
    | none =>
      if word = "-" then some (.plain word)
      else
        let (name, attached) := splitAttached word
        match flag? name with
        | some f => some (.option f attached)
        | none =>
          match candidates word with
          | [w] => some w
          | [] =>
            if isNegativeNumber word || word.toList.contains ' ' then some (.plain word)
            else some .unknown
          | _ => none

/-- What the words are; after the divider all are plain. -/
def classifyAll : List String → Option (List Word)
  | [] => some []
  | "--" :: rest => some (.divider :: rest.map .plain)
  | word :: rest => do
    let w ← classify word
    return w :: (← classifyAll rest)

/-- Does a word ask for help that has this attached to the option?  More letters
`h` ask for it again. -/
def asksAgain (attached : String) : Bool :=
  !attached.isEmpty && attached.toList.all (· == 'h')

/-- What the words have come to so far. -/
structure Progress where
  graph : Option String := none
  catalogs : List (Option String) := []
  out : Option String := none
  print : Bool := false
  dataLimit : Option Value := none
  /-- Was there a word that nothing takes? -/
  extra : Bool := false

namespace Progress

/-- What the words come to when all are used. -/
def finish (p : Progress) : Invocation :=
  match p.graph with
  | some graph =>
    if p.extra then .misuse
    else .compile {
      graph, catalogs := p.catalogs, out := p.out, print := p.print, dataLimit := p.dataLimit }
  | none => .misuse

/-- Takes the path of the graph, or a word too many. -/
def takePlain (p : Progress) (text : String) : Progress :=
  if p.graph.isSome then { p with extra := true } else { p with graph := some text }

/-- Takes the value of an option. -/
def takeValue (p : Progress) (flag : Flag) (v : String) : Option Progress :=
  match flag with
  | .catalog => some { p with catalogs := p.catalogs ++ [some v] }
  | .out => some { p with out := some v }
  | .dataLimit => (Integer.ofText v).toOption.map fun n => { p with dataLimit := some (.int n) }
  | _ => none

/-- Takes a value that is attached to an option.  The divider stands for none
there, and the limit becomes an empty list. -/
def takeAttached (p : Progress) (flag : Flag) (v : String) : Option Progress :=
  if v = "--" then
    match flag with
    | .catalog => some { p with catalogs := p.catalogs ++ [none] }
    | .out => some { p with out := none }
    | .dataLimit => some { p with dataLimit := some (.list []) }
    | _ => none
  else p.takeValue flag v

/-- Uses the words from left to right.  The divider counts with the plain word
beside it. -/
def use (p : Progress) : List Word → Invocation
  | [] => p.finish
  | .unknown :: rest => use { p with extra := true } rest
  | .plain text :: .divider :: rest =>
    if p.graph.isSome then use { p with extra := true } rest else use (p.takePlain text) rest
  | .plain text :: rest => use (p.takePlain text) rest
  | .divider :: .plain text :: rest =>
    if p.graph.isSome then use { p with extra := true } rest else use (p.takePlain text) rest
  | .divider :: rest => use { p with extra := true } rest
  | .option .help attached :: _ => if attached.isSome then .misuse else .help
  | .option .shortHelp none :: _ => .help
  | .option .shortHelp (some attached) :: _ => if asksAgain attached then .help else .misuse
  | .option .print attached :: rest =>
    if attached.isSome then .misuse else use { p with print := true } rest
  | .option flag (some v) :: rest =>
    match p.takeAttached flag v with
    | some p => use p rest
    | none => .misuse
  | .option flag none :: .plain v :: rest =>
    match p.takeValue flag v with
    | some p => use p rest
    | none => .misuse
  | .option _ none :: _ => .misuse

end Progress

/-- Reads a command line. -/
def Invocation.ofWords (words : List String) : Invocation :=
  match classifyAll words with
  | some ws => Progress.use {} ws
  | none => .misuse

end NodeWeave.CommandLine
