import NodeWeave.Catalog.Basic

/-!
# Nodes

A node is built from a node type: it gets a fresh port for every visible port of
the type, a copy of the slot's default value, and a size.  Port positions follow
from the position of the node; `layOut` computes them port by port and stops at
the first one that has no meaning, so a position that is no number leaves the
ports before the fault moved and the others where they were.
-/

namespace NodeWeave

/-- A port of a node. -/
structure Port where
  kind : String
  side : Side
  /-- The place among the ports of the side. -/
  index : Nat
  name : Value
  code : Option String
  /-- Additional properties; empty when there are none. -/
  dynamic : ScalarTable Value
  x : Value
  y : Value
  deriving Inhabited

namespace Port

/-- Is it a control-flow port? -/
def isExec (p : Port) : Bool :=
  Kind.isExec p.kind

/-- The additional properties of a port definition. -/
def readDynamic (d : PortDef) : Except Fault (ScalarTable Value) :=
  if d.dynamic.truthy then d.dynamic.pairs else .ok []

/-- A fresh port for a definition, at a place of a side. -/
def ofDef (side : Side) (d : PortDef × Nat) : Except Fault Port := do
  return {
    kind := d.1.kind, side, index := d.2, name := d.1.name, code := d.1.code
    dynamic := ← readDynamic d.1, x := .float 0, y := .float 0 }

/-- Takes kind, name, template and properties over from a definition. -/
def sync (p : Port) (d : PortDef) : Port × Option Fault :=
  let p := { p with kind := d.kind, name := d.name, code := d.code }
  match readDynamic d with
  | .ok dynamic => ({ p with dynamic }, none)
  | .error e => (p, some e)

/-- Moves a port to a position, first across, then down. -/
def place (p : Port) (x y : Except Fault Value) : Port × Option Fault :=
  match x with
  | .error e => (p, some e)
  | .ok x =>
    match y with
    | .error e => ({ p with x }, some e)
    | .ok y => ({ p with x, y }, none)

/-- The port as a value; `spell` writes the names of additional properties. -/
def toValue (spell : Scalar → String) (p : Port) : Value :=
  .obj ([("type", .str p.kind), ("name", p.name), ("direction", .str p.side.name),
      ("index", .int p.index), ("x", p.x), ("y", p.y)] ++
    if p.dynamic.isEmpty then []
    else [("dynamic", .obj (Table.putAll [] (p.dynamic.map fun (k, v) => (spell k, v))))])

/-- Where a port belongs. -/
def seat (p : Port) : Side × Nat :=
  (p.side, p.index)

@[simp] theorem seat_sync (p : Port) (d : PortDef) : (p.sync d).1.seat = p.seat := by
  unfold sync
  dsimp only
  split <;> rfl

@[simp] theorem seat_place (p : Port) (x y : Except Fault Value) : (p.place x y).1.seat = p.seat := by
  unfold place
  split
  · rfl
  · split <;> rfl

/-- The ports of one side of a node, each in the place that it names. -/
@[ext]
structure Row (side : Side) where
  ports : List Port
  inPlace : ∀ (i : Nat) (p : Port), ports[i]? = some p → p.seat = (side, i)

namespace Row

variable {side : Side}

instance : Inhabited (Row side) := ⟨[], fun _ _ h => by cases h⟩

/-- Ports that stay in their places make up a side again. -/
theorem inPlace_of_map (row : Row side) {ports : List Port}
    (h : ports.map seat = row.ports.map seat) (i : Nat) (p : Port) (hp : ports[i]? = some p) :
    p.seat = (side, i) := by
  have hseat : (row.ports.map seat)[i]? = some p.seat := by
    rw [← h, List.getElem?_map, hp, Option.map_some]
  rw [List.getElem?_map, Option.map_eq_some_iff] at hseat
  obtain ⟨q, hq, heq⟩ := hseat
  rw [← heq]
  exact row.inPlace i q hq

/-- A side with every port changed, but not moved to another place. -/
def map (f : Port → Port) (hf : ∀ p, (f p).seat = p.seat) (row : Row side) : Row side where
  ports := row.ports.map f
  inPlace := row.inPlace_of_map (by simp [Function.comp_def, hf])

@[simp] theorem ports_map (f : Port → Port) (hf : ∀ p, (f p).seat = p.seat) (row : Row side) :
    (row.map f hf).ports = row.ports.map f := rfl

/-- Updates the ports of a side one after the other until an update fails. -/
def update (step : Nat → Port → Port × Option Fault) (hstep : ∀ i p, (step i p).1.seat = p.seat)
    (row : Row side) : Row side × Option Fault :=
  let done := updateUntil step 0 row.ports
  (⟨done.1, row.inPlace_of_map (map_updateUntil seat hstep 0 row.ports)⟩, done.2)

theorem update_eq_iff {step : Nat → Port → Port × Option Fault}
    {hstep : ∀ i p, (step i p).1.seat = p.seat} {row done : Row side} {fault : Option Fault} :
    row.update step hstep = (done, fault) ↔ updateUntil step 0 row.ports = (done.ports, fault) := by
  unfold update
  simp only [Prod.ext_iff, Row.ext_iff]

/-- Fresh ports for the definitions of a side. -/
def ofDefs (side : Side) (defs : List PortDef) : Except Fault (Row side) :=
  match h : defs.zipIdx.mapM (ofDef side) with
  | .error e => .error e
  | .ok ports => .ok ⟨ports, inPlace_of_mapM h⟩
where
  /-- A fresh port is in the place of its definition. -/
  inPlace_of_mapM {defs : List PortDef} {ports : List Port}
      (h : defs.zipIdx.mapM (ofDef side) = .ok ports) (i : Nat) (p : Port)
      (hp : ports[i]? = some p) : p.seat = (side, i) := by
    obtain ⟨d, hd, hof⟩ := getElem?_of_mapM h hp
    obtain ⟨dynamic, _, hof⟩ := bind_eq_ok hof
    cases hof
    rw [List.getElem?_zipIdx, Option.map_eq_some_iff] at hd
    obtain ⟨a, _, rfl⟩ := hd
    simp [seat]

theorem ofDefs_eq_ok {defs : List PortDef} {row : Row side} :
    ofDefs side defs = .ok row ↔ defs.zipIdx.mapM (ofDef side) = .ok row.ports := by
  unfold ofDefs
  split
  · rename_i e h
    simp [h]
  · rename_i ports h
    simp [h, Row.ext_iff]

theorem ofDefs_eq_error {defs : List PortDef} {e : Fault} (h : ofDefs side defs = .error e) :
    ∃ d ∈ defs, readDynamic d = .error e := by
  unfold ofDefs at h
  split at h
  · rename_i cause hmade
    cases h
    obtain ⟨d, hd, hof⟩ := mapM_eq_error hmade
    refine ⟨d.1, List.fst_mem_of_mem_zipIdx hd, ?_⟩
    rcases bind_eq_error hof with hread | ⟨_, _, hof⟩
    · exact hread
    · cases hof
  · cases h

/-- Each port is made of the definition in its place. -/
theorem getElem?_ofDefs {defs : List PortDef} {row : Row side} (h : ofDefs side defs = .ok row)
    {i : Nat} {p : Port} (hp : row.ports[i]? = some p) :
    ∃ d, defs[i]? = some d ∧ ofDef side (d, i) = .ok p := by
  obtain ⟨d, hd, hof⟩ := getElem?_of_mapM (ofDefs_eq_ok.mp h) hp
  rw [List.getElem?_zipIdx, Option.map_eq_some_iff] at hd
  obtain ⟨a, ha, rfl⟩ := hd
  rw [Nat.zero_add] at hof
  exact ⟨a, ha, hof⟩

theorem length_ofDefs {defs : List PortDef} {row : Row side} (h : ofDefs side defs = .ok row) :
    row.ports.length = defs.length := by
  rw [length_of_mapM (ofDefs_eq_ok.mp h), List.length_zipIdx]

end Row

end Port

/-- A node of a graph. -/
structure Node where
  /-- A whole number as a rule; any scalar can name a node. -/
  id : Scalar
  category : Scalar
  type : String
  x : Value
  y : Value
  /-- Is the node selected?  Any value is taken for an answer. -/
  selected : Value
  title : Value
  color : Value
  description : Value
  inputs : Port.Row .input
  outputs : Port.Row .output
  /-- The type of the value slot, if the node has one. -/
  slot : Option SlotType
  /-- The value in the slot; null without a slot. -/
  value : Value
  width : Value
  height : Int
  deriving Inhabited

namespace Node

/-- The distance between neighbouring ports of a side. -/
def portSpacing : Int := 25

/-- The distance of ports from the edge of their side. -/
def portInset : Int := 10

/-- The distance of the first port from the top. -/
def portTop : Int := 40

/-- How near to its centre a port is hit. -/
def portRadius : Int := 8

/-- The least height of a node. -/
def minHeight : Int := 60

/-- The height of a value slot. -/
def slotHeight : Int := 30

/-- The width of nodes whose type gives none. -/
def defaultWidth : Value := .int 80

/-- The ports of a side. -/
def ports (n : Node) : Side → List Port
  | .input => n.inputs.ports
  | .output => n.outputs.ports

/-- **A port names its own side and place.** -/
theorem seat_of_getElem? {n : Node} {side : Side} {i : Nat} {p : Port}
    (hp : (n.ports side)[i]? = some p) : p.side = side ∧ p.index = i := by
  rw [← Prod.mk.injEq]
  cases side with
  | input => exact n.inputs.inPlace i p hp
  | output => exact n.outputs.inPlace i p hp

/-- A port is found at the place that it names. -/
theorem getElem?_of_mem_ports {n : Node} {side : Side} {p : Port} (hp : p ∈ n.ports side) :
    p.side = side ∧ (n.ports side)[p.index]? = some p := by
  obtain ⟨i, hi⟩ := List.mem_iff_getElem?.mp hp
  obtain ⟨hside, hindex⟩ := seat_of_getElem? hi
  exact ⟨hside, hindex ▸ hi⟩

/-- The port at a place of a side. -/
def port? (n : Node) (side : Side) (index : Int) : Option Port :=
  if 0 ≤ index then (n.ports side)[index.toNat]? else none

/-- The reference of the port at a place of a side. -/
def ref (n : Node) (side : Side) (index : Int) : PortRef :=
  { node := n.id, side, index }

/-- The control-flow inputs. -/
def execInputs (n : Node) : List Port :=
  (n.ports .input).filter Port.isExec

/-- The number of control-flow outputs. -/
def execOutputCount (n : Node) : Nat :=
  ((n.ports .output).filter Port.isExec).length

/-- Where the ports of a side lie across. -/
def portX (n : Node) : Side → Except Fault Value
  | .input => n.x.add (.int portInset)
  | .output => do (← n.x.add n.width).sub (.int portInset)

/-- Where the port at a place of a side lies down. -/
def portY (n : Node) (index : Nat) : Except Fault Value := do
  (← n.y.add (.int portTop)).add (.int (index * portSpacing))

/-- Places the ports of a side until one has no position. -/
def placeAll {side : Side} (n : Node) (row : Port.Row side) : Port.Row side × Option Fault :=
  row.update (fun i p => p.place (n.portX side) (n.portY i)) fun _ p => p.seat_place _ _

/-- Places all ports, inputs first. -/
def layOut (n : Node) : Node × Option Fault :=
  match n.placeAll n.inputs with
  | (inputs, some e) => ({ n with inputs }, some e)
  | (inputs, none) =>
    let (outputs, e) := n.placeAll n.outputs
    ({ n with inputs, outputs }, e)

/-- Moves the node and with it its ports. -/
def moveTo (n : Node) (x y : Value) : Node × Option Fault :=
  layOut { n with x, y }

/-- The height of a node with so many ports on its longer side. -/
def heightFor (ports : Nat) (hasSlot : Bool) : Int :=
  max minHeight (portTop + ports * portSpacing) + if hasSlot then slotHeight else 0

/-- A node of a type, before its ports are placed. -/
def ofType (c : Catalog) (id category : Scalar) (type : String) (t : NodeType)
    (x y : Value) : Except Fault Node := do
  let inputs ← Port.Row.ofDefs .input (t.visiblePorts .input)
  let outputs ← Port.Row.ofDefs .output (t.visiblePorts .output)
  return {
    id, category, type, x, y, selected := .bool false
    title := t.title
    color := c.nodeColor category t
    description := t.description
    inputs, outputs
    slot := t.slot.map ValueSlot.type
    value := (t.slot.map ValueSlot.default).getD .null
    width := t.minWidth.orElse defaultWidth
    height := heightFor (max inputs.ports.length outputs.ports.length) t.slot.isSome }

/-- Builds a node of a type of the catalog. -/
def build (c : Catalog) (id : Scalar) (category type x y : Value) : Except Fault Node := do
  let (category, type, t) ← c.require category type
  match (← ofType c id category type t x y).layOut with
  | (n, none) => return n
  | (_, some e) => .error e

/-- Takes the definition at the place of a port over into it, if there is one. -/
def syncPort (defs : List PortDef) (i : Nat) (p : Port) : Port × Option Fault :=
  match defs[i]? with
  | some d => p.sync d
  | none => (p, none)

theorem seat_syncPort (defs : List PortDef) (i : Nat) (p : Port) :
    (syncPort defs i p).1.seat = p.seat := by
  unfold syncPort
  split
  · exact p.seat_sync _
  · rfl

/-- Takes the definitions of a side over into its ports, until one fails. -/
def syncPorts {side : Side} (defs : List PortDef) (row : Port.Row side) :
    Port.Row side × Option Fault :=
  row.update (syncPort defs) (seat_syncPort defs)

/-- Takes kinds, names and templates over from a changed node type, inputs
first, until a port fails.  The number of ports never changes. -/
def sync (n : Node) (t : NodeType) : Node × Option Fault :=
  match syncPorts (t.visiblePorts .input) n.inputs with
  | (inputs, some e) => ({ n with inputs }, some e)
  | (inputs, none) =>
    let (outputs, e) := syncPorts (t.visiblePorts .output) n.outputs
    ({ n with inputs, outputs }, e)

/-- Does the value suit the slot, if there is one? -/
def accepts (n : Node) (v : Value) : Bool :=
  n.slot.all fun t => t.accepts v

/-- Stores a value in the slot.  A value that does not suit it is stored too, once
that is reported, for which the id of the node has to be written. -/
def setValue (n : Node) (v : Value) : Except Fault Node :=
  if n.slot.isNone then .error (.noValueSlot n.id n.category n.type)
  else if n.accepts v || n.id.isWritable then .ok { n with value := v }
  else .error .unwritable

/-- Does the point lie on the node?  The comparisons end at the first that
fails. -/
def contains (n : Node) (px py : Value) : Except Fault Bool := do
  let within (low size p : Value) : Except Fault Bool := do
    if ← low.le p then p.le (← low.add size) else return false
  if ← within n.x n.width px then within n.y (.int n.height) py else return false

/-- Does the point hit the port? -/
def hits (p : Port) (px py : Value) : Except Fault Bool := do
  let dx ← px.sub p.x
  let dy ← py.sub p.y
  (← (← dx.mul dx).add (← dy.mul dy)).le (.int (portRadius * portRadius))

/-- The first port of a list that the point hits. -/
def firstHit (px py : Value) : List Port → Except Fault (Option Port)
  | [] => .ok none
  | p :: rest => do if ← hits p px py then return some p else firstHit px py rest

/-- The first port that the point hits, inputs first. -/
def portAt (n : Node) (px py : Value) : Except Fault (Option PortRef) := do
  let hit ← firstHit px py (n.ports .input ++ n.ports .output)
  return hit.map fun p => n.ref p.side p.index

/-- The node as a message shows it. -/
def display (n : Node) : String :=
  s!"Node({n.id.display}, {n.category.display}/{n.type})"

/-- The ports of a side as values. -/
def portValues (spell : Scalar → String) (n : Node) (side : Side) : List Value :=
  (n.ports side).map (Port.toValue spell)

/-- The node as a value; `spell` writes the names of additional properties. -/
def toValue (spell : Scalar → String) (n : Node) : Value :=
  .obj ([("id", n.id.toValue), ("category", n.category.toValue), ("type", .str n.type),
      ("title", n.title), ("color", n.color), ("x", n.x), ("y", n.y), ("width", n.width),
      ("height", .int n.height), ("selected", n.selected),
      ("inputs", .list (n.portValues spell .input)),
      ("outputs", .list (n.portValues spell .output))] ++
    match n.slot with
    | some t => [("valueType", .str t.name), ("value", n.value)]
    | none => [])

end Node

end NodeWeave
