import NodeWeave.Fault

/-!
# The outline of a graph document

A graph document is an object with a list of nodes, a list of connections, which
may be missing, and some texts that describe it.  Only this outline is checked
as a whole; what the lists hold is judged entry by entry when the document is
loaded.
-/

namespace NodeWeave.Document

/-- The version that written documents carry. -/
def formatVersion : String := "1.0"

/-- The fields that describe a document. -/
def metadataFields : List String :=
  ["name", "description", "author"]

/-- The parts of a document with the right outline. -/
structure Outline where
  nodes : List Value
  connections : List Value
  /-- The describing fields that are there and not null. -/
  metadata : List (String × Value)
  deriving Inhabited

/-- The fields of a list of names that are there and not null. -/
def givenFields (v : Value) (names : List String) : List (String × Value) :=
  (names.map fun name => (name, v.field name)).filter fun (_, w) => !w.isNull

/-- The first field that should be a text and is not. -/
def firstNotText (v : Value) : Option String :=
  ((givenFields v ("version" :: metadataFields)).find? fun (_, w) => !w.isStr).map (·.1)

/-- Reads the outline of a document. -/
def Outline.ofValue (v : Value) : Except OutlineFault Outline :=
  match v with
  | .obj _ =>
    match v.field? "nodes" with
    | none => .error .noNodes
    | some (.list nodes) =>
      match (v.field? "connections").getD (.list []) with
      | .list connections =>
        match firstNotText v with
        | some name => .error (.notText name)
        | none => .ok { nodes, connections, metadata := givenFields v metadataFields }
      | _ => .error .connectionsNotList
    | some _ => .error .nodesNotList
  | _ => .error .notObject

/-- The text of a document file as a value with the right outline. -/
def ofFileText (text : List Char) : Except Fault Value := do
  let v ← (Json.parse text).mapError Fault.ofJson
  let _ ← (Outline.ofValue v).mapError .outline
  return v

end NodeWeave.Document
