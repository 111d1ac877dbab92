import NodeWeave.Fault
import NodeWeave.Value.Equality

/-!
# Code style and data types

Two parts of a catalog that only describe: the style of the program text, of
which the comment mark is used for its header, and the names and colours of data
kinds.  Both are overlaid by what a document says and keep the rest.
-/

namespace NodeWeave

/-- The colour of what has none of its own. -/
def defaultColor : Value := .str "#808080"

/-- The style of program text. -/
structure CodeStyle where
  language : Value := .str "flex"
  indentation : Value := .str "    "
  variablePrefix : Value := .str "var_"
  resultPrefix : Value := .str "result_"
  commentStyle : Value := .str "//"
  deriving Inhabited

namespace CodeStyle

/-- The names of the fields. -/
def fieldNames : List String :=
  ["language", "indentation", "variablePrefix", "resultPrefix", "commentStyle"]

/-- The value that an object gives for a field, unless it gives null. -/
def pick (doc : Value) (name : String) (old : Value) : Value :=
  (doc.field name |> fun v => if v.isNull then old else v)

/-- The style with the fields that an object gives. -/
def overlay (s : CodeStyle) (doc : Value) : CodeStyle where
  language := pick doc "language" s.language
  indentation := pick doc "indentation" s.indentation
  variablePrefix := pick doc "variablePrefix" s.variablePrefix
  resultPrefix := pick doc "resultPrefix" s.resultPrefix
  commentStyle := pick doc "commentStyle" s.commentStyle

/-- Does the second text occur in the first? -/
def occursIn (part : List Char) : List Char → Bool
  | [] => part.isEmpty
  | c :: rest => part.isPrefixOf (c :: rest) || occursIn part rest

/-- Overlays the style with any value.  A list or a text in which no field name
occurs changes nothing; other values that are no objects have no meaning here. -/
def merge (s : CodeStyle) (doc : Value) : CodeStyle × Option Fault :=
  match doc with
  | .obj _ => (s.overlay doc, none)
  | .list items =>
    if fieldNames.any fun n => items.any fun v => v.same (.str n) then (s, some .unsuitable)
    else (s, none)
  | .str t =>
    if fieldNames.any fun n => occursIn n.toList t.toList then (s, some .unsuitable) else (s, none)
  | _ => (s, some .unsuitable)

/-- The style as a value. -/
def toValue (s : CodeStyle) : Value :=
  .obj [("language", s.language), ("indentation", s.indentation),
    ("variablePrefix", s.variablePrefix), ("resultPrefix", s.resultPrefix),
    ("commentStyle", s.commentStyle)]

end CodeStyle

/-- How a data kind is shown. -/
structure DataType where
  name : Value
  color : Value := defaultColor
  deriving Inhabited

namespace DataType

/-- Reads how a data kind is shown; its own name stands in for a missing one. -/
def ofValue (kind : String) (v : Value) : Except Fault DataType :=
  match v.orElse (.obj []) with
  | .obj fields =>
    .ok {
      name := (Table.get? fields "name").getD (.str kind)
      color := (Table.get? fields "color").getD defaultColor }
  | _ => .error .notObject

/-- The description as a value. -/
def toValue (d : DataType) : Value :=
  .obj [("name", d.name), ("color", d.color)]

end DataType

/-- The data kinds that a catalog describes.  Kinds are named by texts as a rule;
any scalar can name one. -/
abbrev DataTypes := ScalarTable DataType

namespace DataTypes

/-- The colour of a data kind, or another one when it is not described. -/
def colorOf (types : DataTypes) (kind : Scalar) (otherwise : Value) : Value :=
  ((types.get? kind).map DataType.color).getD otherwise

/-- Describes data kinds one after the other. -/
def putAll (types : DataTypes) (entries : List (String × DataType)) : DataTypes :=
  entries.foldl (fun types (kind, d) => types.put (.text kind) d) types

/-- Reads one description after the other until one fails. -/
def merge (types : DataTypes) : Value → DataTypes × Option Fault
  | .obj fields =>
    runUntil (fun types (kind, v) =>
      match DataType.ofValue kind v with
      | .ok d => (types.put (.text kind) d, none)
      | .error e => (types, some e)) types fields
  | _ => (types, some .notObject)

/-- The descriptions as a value. -/
def toValue (types : DataTypes) : Value :=
  .obj (Table.putAll [] (types.map fun (kind, d) => (kind.display, d.toValue)))

end DataTypes

end NodeWeave
