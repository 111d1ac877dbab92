import NodeWeave.Port
import NodeWeave.Value.Arithmetic

/-!
# Node types

A node type says how the nodes built from it look: their ports, their value
slot, their colour and size, and the templates from which program text is made.
The reader takes a node type from a catalog document; whatever it does not know
is kept in `extra`.

A template belongs to a port.  The statement of a node is the template of its
first control-flow input, an expression the template of the output that
`findOutput` selects.
-/

namespace NodeWeave

/-- The type of a value slot. -/
inductive SlotType where
  | bool
  | int
  | float
  | string
  | color
  | float3
  deriving DecidableEq, Inhabited

namespace SlotType

/-- The word for a slot type. -/
def name : SlotType → String
  | bool => "bool"
  | int => "int"
  | float => "float"
  | string => "string"
  | color => "color"
  | float3 => "float3"

/-- All slot types. -/
def all : List SlotType :=
  [bool, int, float, string, color, float3]

/-- The slot type with a given name. -/
def ofValue (v : Value) : Except Fault SlotType :=
  match all.find? fun t => v.same (.str t.name) with
  | some t => .ok t
  | none => .error (.unknownSlotType v)

/-- Does the value suit the slot?  Null suits every slot, a whole number also a
slot for fractions, and a missing coordinate counts as 0. -/
def accepts (t : SlotType) (v : Value) : Bool :=
  match v, t with
  | .null, _ => true
  | .bool _, .bool => true
  | .int _, .int => true
  | .int _, .float => true
  | .float _, .float => true
  | .nan _, .float => true
  | .str _, .string => true
  | .str _, .color => true
  | .obj _, .float3 => ["x", "y", "z"].all fun axis => ((v.field? axis).getD (.int 0)).isNumber
  | _, _ => false

end SlotType

/-- The definition of a port. -/
structure PortDef where
  kind : String
  /-- A text as a rule, or null. -/
  name : Value
  /-- An implicit port is part of the definition only and has no place on a node. -/
  implicit : Bool
  code : Option String
  dynamic : Value
  deriving Inhabited

namespace PortDef

/-- Reads the definition of a port. -/
def ofValue (v : Value) : Except Fault PortDef :=
  match v.field? "type" with
  | none => .error (.portWithoutType v)
  | some kind =>
    if kind.isWritable then
      .ok {
        kind := kind.text
        name := v.field "name"
        implicit := (v.field "implicit").truthy
        code := match v.field "code" with
          | .str s => some s
          | _ => none
        dynamic := v.field "dynamic" }
    else .error .unwritable

/-- Is it a control-flow port? -/
def isExec (p : PortDef) : Bool :=
  Kind.isExec p.kind

/-- The definition as a value. -/
def toValue (p : PortDef) : Value :=
  .obj [("type", .str p.kind), ("name", p.name), ("implicit", .bool p.implicit),
    ("code", .ofText? p.code), ("dynamic", p.dynamic)]

end PortDef

/-- The definition of a value slot. -/
structure ValueSlot where
  type : SlotType
  default : Value
  deriving Inhabited

namespace ValueSlot

/-- Reads the definition of a value slot. -/
def ofValue (v : Value) : Except Fault ValueSlot :=
  match v.field? "type" with
  | none => .error (.slotWithoutType v)
  | some type => do return { type := ← SlotType.ofValue type, default := v.field "default" }

/-- The definition as a value. -/
def toValue (s : ValueSlot) : Value :=
  .obj [("type", .str s.type.name), ("default", s.default)]

end ValueSlot

/-- What nodes of one type have in common. -/
structure NodeType where
  title : Value
  category : Value
  color : Value
  description : Value
  inputs : List PortDef
  outputs : List PortDef
  slot : Option ValueSlot
  minWidth : Value
  /-- Fields of the document that mean nothing here. -/
  extra : List (String × Value)
  deriving Inhabited

namespace NodeType

/-- The fields that the reader knows. -/
def knownFields : List String :=
  ["title", "category", "color", "description", "inputs", "outputs", "value", "style"]

/-- The category of a node type that names none. -/
def defaultCategory : String := "default"

/-- Reads the ports of one side. -/
def readPorts (v : Value) : Except Fault (List PortDef) := do
  if v.truthy then (← v.items).mapM PortDef.ofValue else return []

/-- Reads a node type.  The category is the one it names itself, else the one it
stands under, else the default. -/
def ofValue (v category : Value) : Except Fault NodeType :=
  match v with
  | .obj fields => do
    let inputs ← readPorts (v.field "inputs")
    let outputs ← readPorts (v.field "outputs")
    let slot ←
      if (v.field "value").truthy then some <$> ValueSlot.ofValue (v.field "value") else pure none
    let style := (v.field "style").orElse (.obj [])
    let _ ← style.fields
    return {
      title := (v.field? "title").getD (.str "")
      category := ((v.field "category").orElse category).orElse (.str defaultCategory)
      color := v.field "color"
      description := v.field "description"
      inputs, outputs, slot
      minWidth := style.field "minWidth"
      extra := fields.filter fun f => !knownFields.contains f.1 }
  | v => .error (.nodeTypeNotObject v)

/-- The ports of a side. -/
def ports (t : NodeType) : Side → List PortDef
  | .input => t.inputs
  | .output => t.outputs

/-- The ports of a side that have a place on a node. -/
def visiblePorts (t : NodeType) (side : Side) : List PortDef :=
  (t.ports side).filter fun p => !p.implicit

/-- The first control-flow input, implicit or not. -/
def execInput (t : NodeType) : Option PortDef :=
  t.inputs.find? PortDef.isExec

/-- The output with a given name, or else the first one of a given kind. -/
def findOutput (t : NodeType) (name kind : Value) : Option PortDef :=
  let byName := if name.isNull then none else t.outputs.find? fun p => p.name.same name
  byName.or (t.outputs.find? fun p => (Value.str p.kind).same kind)

/-- Could a port of a kind on a side be linked to a port of a node of this type? -/
def hasCompatiblePort (t : NodeType) (kind : Value) : Side → Bool
  | .output => (t.visiblePorts .input).any fun p => Kind.compatibleValues kind (.str p.kind)
  | .input => (t.visiblePorts .output).any fun p => Kind.compatibleValues (.str p.kind) kind

/-- The node type as a value. -/
def toValue (t : NodeType) : Value :=
  .obj [("title", t.title), ("category", t.category), ("color", t.color),
    ("description", t.description),
    ("inputs", .list (t.inputs.map PortDef.toValue)),
    ("outputs", .list (t.outputs.map PortDef.toValue)),
    ("value", (t.slot.map ValueSlot.toValue).getD .null),
    ("minWidth", t.minWidth), ("extra", .obj t.extra),
    ("execInput", (t.execInput.map PortDef.toValue).getD .null),
    ("hasExecInput", .bool t.execInput.isSome)]

end NodeType

end NodeWeave
