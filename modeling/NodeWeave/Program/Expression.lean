import NodeWeave.Bounds
import NodeWeave.Graph.Wiring
import NodeWeave.Template

/-!
# Expressions

The expression of an output is its template with the value of the node and the
expressions of the nodes that feed it filled in.  A node may be used in many
places, but not in its own expression: `path` lists the nodes whose expressions
are being made, and meeting one of them again is a data cycle.  A second guard
limits how long the path may get; `room` says how many more nodes fit on it, and
the recursion goes over `room`.

Expressions are made within bounds: each node that feeds another one lies two steps
further down, and ids, values and the texts of the faults are written with their
digits.  `expression` is the expression without bounds.
-/

namespace NodeWeave.Program

/-- The template with the value of the node, if it has one, filled in. -/
def applyValue (n : Node) (code : List Char) : List Char :=
  if n.slot.isSome && !n.value.isNull then
    Template.substitute code "value".toList (Template.renderValue n.value).toList
  else code

/-- The template with the value of the node, if it can be written. -/
def fillValue (b : Bounds) (n : Node) (code : List Char) : Except Fault (List Char) := do
  if n.slot.isSome then b.check n.value
  return applyValue n code

/-- The template with the id of the node filled in. -/
def applyId (n : Node) (code : List Char) : List Char :=
  Template.substitute code "nodeId".toList n.id.display.toList

/-- The template with the id of the node, if it can be written. -/
def fillId (b : Bounds) (n : Node) (code : List Char) : Except Fault (List Char) := do
  b.checkScalar n.id
  return applyId n code

/-- Puts a text under the name of a port.  A port without a name takes none, and
only a text is a name. -/
def applyNamed (put : List Char → List Char → List Char → List Char) (name : Value)
    (code text : List Char) : Except Fault (List Char) :=
  match name with
  | .null => .ok code
  | .str name => .ok (put code name.toList text)
  | _ => .error .unsuitable

/-- The node and the port from which a link feeds a data input, if both ends
exist and the target is no control-flow port. -/
def feed? (g : Graph) (l : Link) : Option (Port × Node × Port) := do
  let input ← g.port? l.target
  guard !input.isExec
  let producer ← g.node? l.source.node
  let output ← g.port? l.source
  return (input, producer, output)

/-- Fills in what one link brings; `express` makes the expression of an output. -/
def applyLink (g : Graph) (express : Node → Port → Except Fault (List Char))
    (code : List Char) (l : Link) : Except Fault (List Char) :=
  match feed? g l with
  | none => .ok code
  | some (input, producer, output) => do
    let text ← express producer output
    applyNamed Template.substitute input.name code text

/-- Fills in what the links into a node bring, in their order. -/
def applyInputs (g : Graph) (express : Node → Port → Except Fault (List Char))
    (n : Node) (code : List Char) : Except Fault (List Char) :=
  (g.linksInto n.id).foldlM (applyLink g express) code

/-- The node type of a node, if the catalog still has it. -/
def typeOf (c : Catalog) (n : Node) : Option NodeType :=
  c.find? n.category n.type

/-- The template of an output, if its type has one. -/
def outputTemplate? (c : Catalog) (n : Node) (p : Port) : Option (List Char) := do
  let t ← typeOf c n
  let d ← t.findOutput p.name (.str p.kind)
  let code ← d.code
  return code.toList

/-- Is the node with an id among those of a path? -/
def onPath (path : List Scalar) (id : Scalar) : Bool :=
  path.any id.same

/-- The fault of meeting a node again that is on the path. -/
def cycleFault (b : Bounds) (path : List Scalar) (id : Scalar) : Fault :=
  let cycle := path.dropWhile (fun other => !id.same other) ++ [id]
  b.naming cycle (.dataCycle cycle)

/-- What is wrong with one node more on a path that has no room for it: the
limit is reached, unless it is no number at all. -/
def limitFault (b : Bounds) (limit : Value) (path : List Scalar) : Fault :=
  match limit.number? with
  | some _ => (b.fault? limit).getD (b.naming path (.dataTooDeep limit path))
  | none => .unsuitable

/-- The expression of an output within bounds, with `room` more nodes allowed on the
path. -/
def expressionIn (c : Catalog) (g : Graph) (limit : Value) :
    Nat → Bounds → List Scalar → Node → Port → Except Fault (List Char)
  | room, b, path, n, p =>
    if onPath path n.id then .error (cycleFault b path n.id)
    else
      match room with
      | 0 => .error (limitFault b limit (path ++ [n.id]))
      | room + 1 =>
        match outputTemplate? c n p with
        | none => .ok []
        | some code => do
          let code ← fillValue b n code
          let code ← applyInputs g (fun m q => b.under 2 fun b =>
            expressionIn c g limit room b (path ++ [n.id]) m q) n code
          return Template.strip (← fillId b n code)

/-- How many nodes a path may still get under a limit.  Where the limit is
infinite or NaN, no path is longer than the graph has nodes. -/
def roomFor (g : Graph) (limit : Value) (path : List Scalar) : Nat :=
  match limit.number? with
  | none => 0
  | some n =>
    match n.ceil? with
    | some most => (most - path.length).toNat
    | none => if n.le (.int 0) then 0 else g.nodes.length + 1

/-- The expression of an output within bounds, used by the nodes on a path. -/
def expressionWithin (b : Bounds) (c : Catalog) (g : Graph) (limit : Value) (path : List Scalar)
    (n : Node) (p : Port) : Except Fault (List Char) :=
  expressionIn c g limit (roomFor g limit path) b path n p

end NodeWeave.Program
