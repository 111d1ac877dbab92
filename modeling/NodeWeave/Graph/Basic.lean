import NodeWeave.Node

/-!
# Graphs

A graph owns its nodes, in the order in which they came, and its links, which
name ports by reference.  Nodes and links are named by whole numbers as a rule,
but any scalar can name one, and scalars that are equal as values name the same
one.  The two counters give the ids of the next node and the next link; they
only move forward, so an id is never given twice.  Links are stored here without
any check; the rules for them are those of `NodeWeave.Graph.Wiring`.
-/

namespace NodeWeave

/-- A number as a name. -/
def Number.toScalar : Number → Scalar
  | int n => .int n
  | real f => .float f

/-- A counter that moves past an id, unless it is past it already.  Null moves
nothing, and a text has no place among numbers. -/
def Number.past (counter : Number) (id : Scalar) : Except Fault Number :=
  match id, id.toValue.number? with
  | .null, _ => .ok counter
  | _, some n => .ok (if counter.le n then n.next else counter)
  | _, none => .error .unsuitable

/-- A link from an output to an input, each named by reference. -/
structure Link where
  id : Scalar
  source : PortRef
  target : PortRef
  deriving DecidableEq, Inhabited

namespace Link

/-- Has the link an end on the node? -/
def touches (l : Link) (node : Scalar) : Bool :=
  l.source.node.same node || l.target.node.same node

/-- The link as a value. -/
def toValue (l : Link) : Value :=
  .obj [("id", l.id.toValue), ("from", l.source.toValue), ("to", l.target.toValue)]

/-- The link as a message shows it. -/
def display (l : Link) : String :=
  s!"Link({l.id.display}: {l.source.display} -> {l.target.display})"

/-- Can the link be shown in a message? -/
def isWritable (l : Link) : Bool :=
  l.id.isWritable && l.source.isWritable && l.target.isWritable

end Link

/-- An editable graph. -/
structure Graph where
  nodes : List Node := []
  links : List Link := []
  nextNode : Number := .int 0
  nextLink : Number := .int 0
  deriving Inhabited

namespace Graph

/-- The node with an id. -/
def node? (g : Graph) (id : Scalar) : Option Node :=
  g.nodes.find? fun n => n.id.same id

/-- The node that an arbitrary value names. -/
def lookup (g : Graph) (id : Value) : Except Fault (Option Node) := do
  return g.node? (← id.name)

/-- The port that a reference names. -/
def port? (g : Graph) (r : PortRef) : Option Port :=
  (g.node? r.node).bind fun n => n.port? r.side r.index

/-- The first link with an id. -/
def link? (g : Graph) (id : Value) : Option Link :=
  g.links.find? fun l => l.id.toValue.same id

/-- Stores a node: in place of one with the same id, or else at the end. -/
def putNode : List Node → Node → List Node
  | [], n => [n]
  | m :: rest, n => if m.id.same n.id then n :: rest else m :: putNode rest n

/-- Replaces a node by its changed form. -/
def updateNode (g : Graph) (n : Node) : Graph :=
  { g with nodes := putNode g.nodes n }

/-- Moves the counters past given ids, first that of the nodes. -/
def advance (g : Graph) (node link : Scalar) : Graph × Option Fault :=
  match g.nextNode.past node with
  | .error e => (g, some e)
  | .ok nextNode =>
    match g.nextLink.past link with
    | .error e => ({ g with nextNode }, some e)
    | .ok nextLink => ({ g with nextNode, nextLink }, none)

/-- Adds a new node, which gets the next id. -/
def addNode (c : Catalog) (g : Graph) (category type x y : Value) : Except Fault (Graph × Node) := do
  let n ← Node.build c g.nextNode.toScalar category type x y
  return ({ g with nodes := putNode g.nodes n, nextNode := g.nextNode.next }, n)

/-- Adds a node that has an id already.  An id that is no number is found out
only after the node is stored. -/
def insertNode (g : Graph) (n : Node) : Graph × Option Fault :=
  if (g.node? n.id).isSome then (g, some (.nodeExists n.id))
  else advance { g with nodes := g.nodes ++ [n] } n.id .null

/-- Adds a link under the next id. -/
def addLink (g : Graph) (source target : PortRef) : Graph × Link :=
  let link : Link := { id := g.nextLink.toScalar, source, target }
  ({ g with links := g.links ++ [link], nextLink := g.nextLink.next }, link)

/-- Adds a link under a given id. -/
def insertLink (g : Graph) (id : Scalar) (source target : PortRef) :
    Except Fault (Graph × Link) := do
  let nextLink ← g.nextLink.past id
  let link : Link := { id, source, target }
  return ({ g with links := g.links ++ [link], nextLink }, link)

/-- Removes the first link with an id. -/
def removeLink (g : Graph) (id : Value) : Except Fault (Graph × Link) :=
  match g.link? id with
  | none => .error (.noSuchLink id)
  | some l => .ok ({ g with links := g.links.eraseP fun l => l.id.toValue.same id }, l)

/-- The graph without the links at some places of the list. -/
def dropLinks (g : Graph) (places : List Nat) : Graph :=
  { g with links := (g.links.zipIdx.filter fun l => !places.contains l.2).map (·.1) }

/-- The links that end at a node. -/
def linksInto (g : Graph) (node : Scalar) : List Link :=
  g.links.filter fun l => l.target.node.same node

/-- The links that start at a node. -/
def linksOutOf (g : Graph) (node : Scalar) : List Link :=
  g.links.filter fun l => l.source.node.same node

/-- Is the port an end of the link on its own side? -/
def endsAt (r : PortRef) (l : Link) : Bool :=
  if r.isInput then l.target.same r else l.source.same r

/-- The links at a port. -/
def linksAt (g : Graph) (r : PortRef) : List Link :=
  g.links.filter (endsAt r)

/-- The graph without the links at a port. -/
def unlink (g : Graph) (r : PortRef) : Graph :=
  { g with links := g.links.filter fun l => !endsAt r l }

/-- The nodes that are selected. -/
def selectedNodes (g : Graph) : List Node :=
  g.nodes.filter fun n => n.selected.truthy

/-- An empty graph with fresh counters. -/
def empty : Graph := {}

end Graph

end NodeWeave
