import NodeWeave.Document.Outline
import NodeWeave.Graph.Basic
import NodeWeave.Json.Writer
import NodeWeave.Value.Writable

/-!
# Writing a graph document

The document of a graph lists its nodes and its links in their order.  Sizes,
colours and ports are left out, since the catalog gives them again.
-/

namespace NodeWeave.Document

/-- The entry of a node. -/
def ofNode (n : Node) : Value :=
  .obj ([("id", n.id.toValue), ("type", .str n.type), ("category", n.category.toValue),
      ("x", n.x), ("y", n.y)] ++
    if n.slot.isSome then [("value", n.value)] else [])

/-- The document of a graph with the describing fields that are not null. -/
def ofGraph (g : Graph) (description : Value) : Value :=
  .obj ([("version", .str formatVersion)] ++ givenFields description metadataFields ++
    [("nodes", .list (g.nodes.map ofNode)), ("connections", .list (g.links.map Link.toValue))])

/-- The text of the file of a graph. -/
def fileText (g : Graph) (description : Value) : String :=
  Json.pretty (ofGraph g description) ++ "\n"

/-- The text of the file of a graph, if all numbers in it can be written. -/
def writeFile (g : Graph) (description : Value) : Except Fault String :=
  if (ofGraph g description).isWritable then .ok (fileText g description)
  else .error .unwritable

end NodeWeave.Document
