import NodeWeave.Catalog.NodeType
import NodeWeave.Catalog.Style

/-!
# The catalog of node types

Node types are filed under a category and a name.  Categories are named by
texts as a rule; any scalar can name one, and scalars that are equal as values
name the same category.  Look-ups never depend on the order of the entries, but
the order is kept, because listings show it.
-/

namespace NodeWeave

/-- A category: the scalar that names it, its colour, and its node types. -/
structure Category where
  name : Scalar
  color : Value := defaultColor
  types : Table String NodeType := []
  deriving Inhabited

/-- The node types in use, with code style and data kinds. -/
structure Catalog where
  version : Option String := none
  style : CodeStyle := {}
  dataTypes : DataTypes := []
  categories : Table Key Category := []
  /-- Has a document been merged?  Before that no node can be built. -/
  loaded : Bool := false
  deriving Inhabited

namespace Catalog

/-- The category with a given name. -/
def category? (c : Catalog) (name : Scalar) : Option Category :=
  c.categories.get? name.key

/-- The node type under a category and a name. -/
def find? (c : Catalog) (category : Scalar) (type : String) : Option NodeType :=
  (c.category? category).bind fun k => k.types.get? type

/-- The entry under arbitrary values: lists and objects cannot name anything,
and only texts name node types. -/
def lookup (c : Catalog) (category type : Value) :
    Except Fault (Option (Scalar × String × NodeType)) := do
  let category ← category.name
  match c.category? category with
  | none => return none
  | some k =>
    match ← type.name with
    | .text type => return (k.types.get? type).map fun t => (category, type, t)
    | _ => return none

/-- The node type under a category and a name, which has to be there. -/
def require (c : Catalog) (category type : Value) :
    Except Fault (Scalar × String × NodeType) := do
  let found ← if c.loaded then c.lookup category type else pure none
  match found with
  | some entry => return entry
  | none =>
    .error (if category.isWritable && type.isWritable then .unknownNodeType category type
      else .unwritable)

/-- The first node type with a given name, in any category. -/
def findAnywhere? (c : Catalog) (type : String) : Option NodeType :=
  c.categories.findSome? fun (_, k) => k.types.get? type

/-- The first node type under an arbitrary value, in any category. -/
def lookupAnywhere (c : Catalog) (type : Value) : Except Fault (Option NodeType) := do
  if c.categories.isEmpty then return none
  match ← type.name with
  | .text type => return c.findAnywhere? type
  | _ => return none

/-- All node types with their categories and names. -/
def entries (c : Catalog) : List (Scalar × String × NodeType) :=
  c.categories.flatMap fun (_, k) => k.types.map fun (type, t) => (k.name, type, t)

/-- The colour of a category. -/
def categoryColor (c : Catalog) (category : Scalar) : Value :=
  ((c.category? category).map Category.color).getD defaultColor

/-- The colour of nodes of a type: its own, or else that of the category. -/
def nodeColor (c : Catalog) (category : Scalar) (t : NodeType) : Value :=
  t.color.orElse (c.categoryColor category)

/-- Takes a node type out of a category that is there.  Nothing needs to be
looked for in an empty one. -/
def forget (c : Catalog) (category type : Value) : Except Fault Catalog := do
  let name ← category.name
  match c.category? name with
  | none => .error (.missingField category.text)
  | some k =>
    if k.types.isEmpty then return c
    match ← type.name with
    | .text type =>
      return { c with
        categories := c.categories.put name.key { k with types := k.types.drop type } }
    | _ => return c

/-- An overview: the names of the node types are sorted.  `spell` writes the
names of categories. -/
def summary (spell : Scalar → String) (c : Catalog) : Value :=
  let category (k : Category) : Value :=
    .obj [("color", k.color),
      ("nodes", .list ((k.types.keys.mergeSort Text.le).map Value.str))]
  .obj [("version", .ofText? c.version), ("loaded", .bool c.loaded),
    ("codeGeneration", c.style.toValue), ("dataTypes", c.dataTypes.toValue),
    ("categories",
      .obj (Table.putAll [] (c.categories.map fun (_, k) => (spell k.name, category k))))]

end Catalog

end NodeWeave
