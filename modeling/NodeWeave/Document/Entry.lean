import NodeWeave.Document.Outline
import NodeWeave.Port

/-!
# The entries of a graph document

An entry of a document is a node or a connection.  `NodeEntry.ofValue` and
`LinkEntry.ofValue` read one, or list all that is wrong with it.
-/

namespace NodeWeave.Document

/-- Something wrong with an entry. -/
inductive EntryProblem where
  | nodeNotObject
  | connectionNotObject
  | missingField (name : String)
  | idNotInteger
  | notText (name : String)
  | notNumber (name : String)
  | endNotObject (name : String)
  | endNotInteger (name part : String)
  | endWithoutSide (name : String)
  deriving DecidableEq

/-- The wording of an entry problem. -/
def EntryProblem.message : EntryProblem → String
  | nodeNotObject => "node entry must be a JSON object"
  | connectionNotObject => "connection entry must be a JSON object"
  | missingField name => s!"missing required field '{name}'"
  | idNotInteger => "id must be an integer"
  | notText name => s!"{name} must be a string"
  | notNumber name => s!"{name} must be a number"
  | endNotObject name => s!"'{name}' must be an object"
  | endNotInteger name part => s!"{name}.{part} must be an integer"
  | endWithoutSide name => s!"{name}.portType must be 'input' or 'output'"

/-- A node as a document gives it. -/
structure NodeEntry where
  id : Int
  category : String
  type : String
  x : Value
  y : Value
  /-- The stored value, if the entry has one. -/
  value : Option Value

namespace NodeEntry

/-- All that is wrong with a node entry. -/
def problems (v : Value) : List EntryProblem :=
  if v.isObj then
    let isBad (name : String) (isGood : Value → Bool) : Bool :=
      ((v.field? name).map fun w => !isGood w).getD false
    (["id", "type", "category"].filter fun name => !v.hasField name).map .missingField ++
    (if isBad "id" Value.isInt then [.idNotInteger] else []) ++
    (["category", "type"].filter fun name => isBad name Value.isStr).map .notText ++
    (["x", "y"].filter fun name => isBad name Value.isNumber).map .notNumber
  else [.nodeNotObject]

/-- Reads a node entry. -/
def ofValue (v : Value) : Except (List EntryProblem) NodeEntry :=
  match v.field? "id", v.field? "category", v.field? "type", problems v with
  | some (.int id), some (.str category), some (.str type), [] =>
    .ok { id, category, type
          x := (v.field? "x").getD (.int 0), y := (v.field? "y").getD (.int 0)
          value := v.field? "value" }
  | _, _, _, problems => .error problems

end NodeEntry

/-- A connection as a document gives it: its ends may come in either order. -/
structure LinkEntry where
  id : Int
  source : PortRef
  target : PortRef
  deriving DecidableEq

namespace LinkEntry

/-- All that is wrong with one end of a connection. -/
def endProblems (name : String) (v : Value) : List EntryProblem :=
  if v.isObj then
    (["nodeId", "portIndex"].filter fun part => !(v.field part).isInt).map (.endNotInteger name) ++
    (match v.field "portType" with
      | .str "input" => []
      | .str "output" => []
      | _ => [.endWithoutSide name])
  else [.endNotObject name]

/-- All that is wrong with a connection entry. -/
def problems (v : Value) : List EntryProblem :=
  if v.isObj then
    (if (v.field "id").isInt then [] else [.idNotInteger]) ++
    endProblems "from" (v.field "from") ++ endProblems "to" (v.field "to")
  else [.connectionNotObject]

/-- Reads a connection entry. -/
def ofValue (v : Value) : Except (List EntryProblem) LinkEntry :=
  match v.field "id", PortRef.ofValue (v.field "from"), PortRef.ofValue (v.field "to"),
      problems v with
  | .int id, .ok source, .ok target, [] => .ok { id, source, target }
  | _, _, _, problems => .error problems

end LinkEntry

end NodeWeave.Document
