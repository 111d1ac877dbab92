import NodeWeave.Catalog.Basic

/-!
# Merging a catalog document

`CatalogDocument.ofValue` reads a whole document before anything is changed.
`Catalog.overlay` then adds what it says: fields of the style and data kinds are
replaced, a new category comes in whole, an existing one keeps its colour and
gains or replaces node types, and nothing is taken away.  Loose node types are
filed last, each under the category it names itself; one whose category cannot
name anything ends the merge there.
-/

namespace NodeWeave

/-- A category of a document: the colour it gives, if any, and its node types. -/
structure CategoryDocument where
  color : Option Value
  types : List (String × NodeType)

/-- What a catalog document says. -/
structure CatalogDocument where
  version : Option String
  style : Value
  dataTypes : List (String × DataType)
  categories : List (String × CategoryDocument)
  loose : List (String × NodeType)

namespace CatalogDocument

/-- Reads named node types that stand under a category. -/
def readTypes (v category : Value) : Except Fault (List (String × NodeType)) := do
  (← (v.orElse (.obj [])).fields).mapM fun (name, v) =>
    return (name, ← NodeType.ofValue v category)

/-- Reads a category. -/
def readCategory (name : String) (v : Value) : Except Fault CategoryDocument :=
  match v.orElse (.obj []) with
  | .obj fields => do
    let types ← readTypes ((Value.obj fields).field "nodes") (.str name)
    return { color := Table.get? fields "color", types }
  | _ => .error (.categoryNotObject name)

/-- A section that has to be an object, if it is given. -/
def objectSection (doc : Value) (name : String) : Except Fault (List (String × Value)) :=
  match (doc.field name).orElse (.obj []) with
  | .obj fields => .ok fields
  | _ => .error (.sectionNotObject name)

/-- Reads the version, which may be any value that can be written. -/
def readVersion (v : Value) : Except Fault (Option String) :=
  if v.isNull then .ok none
  else if v.isWritable then .ok (some v.text)
  else .error .unwritable

/-- Reads a whole document. -/
def ofValue (doc : Value) : Except Fault CatalogDocument :=
  match doc with
  | .obj _ => do
    let style ← objectSection doc "codeGeneration"
    let dataTypes ← (← objectSection doc "dataTypes").mapM fun (kind, v) =>
      return (kind, ← DataType.ofValue kind v)
    let categories ← (← ((doc.field "nodeCategories").orElse (.obj [])).fields).mapM
      fun (name, v) => return (name, ← readCategory name v)
    let loose ← readTypes (doc.field "nodeTypes") .null
    let version ← readVersion (doc.field "version")
    return { version, style := .obj style, dataTypes, categories, loose }
  | _ => .error .catalogNotObject

end CatalogDocument

namespace Catalog

/-- Adds a category of a document. -/
def addCategory (c : Catalog) (name : String) (d : CategoryDocument) : Catalog :=
  let new : Category := { name := .text name, color := d.color.getD defaultColor }
  let k := (c.category? (.text name)).getD new
  { c with
    categories := c.categories.put (Scalar.text name).key { k with types := k.types.putAll d.types } }

/-- Files a node type under the category it names. -/
def fileLoose (c : Catalog) (type : String) (t : NodeType) : Catalog × Option Fault :=
  match t.category.scalar? with
  | none => (c, some .unsuitable)
  | some name =>
    let k := (c.category? name).getD { name }
    ({ c with categories := c.categories.put name.key { k with types := k.types.put type t } }, none)

/-- Adds what a document says. -/
def overlay (c : Catalog) (d : CatalogDocument) : Catalog × Option Fault :=
  let c := { c with
    version := d.version.or c.version
    style := c.style.overlay d.style
    dataTypes := c.dataTypes.putAll d.dataTypes }
  let c := d.categories.foldl (fun c (name, k) => c.addCategory name k) c
  match runUntil (fun c (type, t) => fileLoose c type t) c d.loose with
  | (c, some e) => (c, some e)
  | (c, none) => ({ c with loaded := true }, none)

/-- Merges a document.  Nothing changes when the document cannot be read. -/
def merge (c : Catalog) (doc : Value) : Catalog × Option Fault :=
  match CatalogDocument.ofValue doc with
  | .ok d => c.overlay d
  | .error e => (c, some e)

end Catalog

end NodeWeave
