import NodeWeave.Number.Integer

/-!
# Sides, kinds and port references

A port sits on the input or the output side of a node and has a kind.  The kind
`exec` stands for control flow and every other kind for data; an input of the
kind `data` takes data of every kind.  A reference names a port by its node, its
side and its place among the ports of that side.
-/

namespace NodeWeave

/-- A side of a node. -/
inductive Side where
  | input
  | output
  deriving DecidableEq, Inhabited

namespace Side

/-- The other side. -/
def opposite : Side → Side
  | input => output
  | output => input

/-- The word for a side. -/
def name : Side → String
  | input => "input"
  | output => "output"

/-- The side with a given name. -/
def ofValue : Value → Except Fault Side
  | .str "input" => .ok input
  | .str "output" => .ok output
  | v => .error (.unknownSide v)

@[simp] theorem opposite_opposite (s : Side) : s.opposite.opposite = s := by
  cases s <;> rfl

end Side

namespace Kind

/-- The kind of control flow. -/
def exec : String := "exec"

/-- The kind of an input that takes data of every kind. -/
def data : String := "data"

/-- Is this the kind of control flow? -/
def isExec (kind : String) : Bool :=
  kind == exec

/-- May an output of the first kind feed an input of the second?  Control flow
goes only into control flow; data go into their own kind and into `data`. -/
def compatible (source target : String) : Bool :=
  if isExec source && isExec target then true
  else if isExec source || isExec target then false
  else source == target || target == data

/-- Is this value the kind of control flow? -/
def isExecValue (kind : Value) : Bool :=
  kind.same (.str exec)

/-- The rule of `compatible` for kinds that may be any values. -/
def compatibleValues (source target : Value) : Bool :=
  if isExecValue source && isExecValue target then true
  else if isExecValue source || isExecValue target then false
  else source.same target || target.same (.str data)

theorem isExecValue_str (kind : String) : isExecValue (.str kind) = isExec kind := rfl

theorem compatibleValues_str (source target : String) :
    compatibleValues (.str source) (.str target) = compatible source target := rfl

end Kind

/-- The name of a port: its node, its side, and its place on that side.  Any
scalar can name a node; `address` is what the reference leads to, however the
name of the node is spelled. -/
structure PortRef where
  node : Scalar
  side : Side
  index : Int
  deriving DecidableEq, Inhabited

namespace PortRef

/-- Is it an input? -/
def isInput (r : PortRef) : Bool :=
  r.side == .input

/-- Is it an output? -/
def isOutput (r : PortRef) : Bool :=
  r.side == .output

/-- What the reference leads to. -/
def address (r : PortRef) : Key × Side × Int :=
  (r.node.key, r.side, r.index)

/-- Do the two references lead to the same port? -/
def same (a b : PortRef) : Bool :=
  decide (a.address = b.address)

/-- The reference as a document gives it. -/
def toValue (r : PortRef) : Value :=
  .obj [("nodeId", r.node.toValue), ("portIndex", .int r.index), ("portType", .str r.side.name)]

/-- The reference as a message shows it. -/
def display (r : PortRef) : String :=
  s!"PortRef({r.node.display}.{r.side.name}[{r.index}])"

/-- Can the reference be shown in a message? -/
def isWritable (r : PortRef) : Bool :=
  r.node.isWritable && Number.isWritable r.index

/-- A field that has to be there. -/
def require (v : Value) (name : String) : Except Fault Value :=
  match v with
  | .obj _ =>
    match v.field? name with
    | some w => .ok w
    | none => .error (.missingField name)
  | _ => .error .unsuitable

/-- Reads a reference: first the node, then the side, then the place. -/
def ofValue (v : Value) : Except Fault PortRef := do
  let node ← Integer.ofValue (← require v "nodeId")
  let side ← Side.ofValue (← require v "portType")
  let index ← Integer.ofValue (← require v "portIndex")
  return { node := .int node, side, index }

/-- Puts two references into the order output, input.  A pair on one side, which
has no such order, comes back with an input pair exchanged. -/
def normalize (a b : PortRef) : PortRef × PortRef :=
  if a.isOutput then (a, b) else (b, a)

end PortRef

end NodeWeave
