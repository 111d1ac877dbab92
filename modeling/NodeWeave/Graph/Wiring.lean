import NodeWeave.Graph.Basic
import NodeWeave.Value.ScalarSet

/-!
# The rules for links

A link is sound when it goes from an output to an input of another node, both
ports exist, and their kinds are compatible.  Beyond that a control-flow output
drives one successor and a data input has one source, while a control-flow input
may be reached from many places and a data output may feed many inputs.

* `canConnect` says whether two ports may be linked now.
* `connect` links them; a control-flow output gives up its old successor.
* `autoConnect` links a port to the first suitable port of a node and removes
  the links that stand in the way.
* `repair` removes the links that break the rules and tells which they were.
-/

namespace NodeWeave

namespace Graph

/-- May the two ports, given in any order, be linked? -/
def canConnect (g : Graph) (a b : PortRef) : Bool :=
  if a.node.same b.node || a.side = b.side then false
  else
    let (o, i) := PortRef.normalize a b
    match g.port? o, g.port? i with
    | some source, some target =>
      Kind.compatible source.kind target.kind &&
      !(g.links.any fun l =>
        (l.source.same o && l.target.same i) || (l.source.same i && l.target.same o)) &&
      (target.isExec || !(g.links.any fun l => l.target.same i))
    | _, _ => false

/-- Links two ports, if they may be linked. -/
def connect (g : Graph) (a b : PortRef) : Graph × Option Link :=
  if g.canConnect a b then
    let (o, i) := PortRef.normalize a b
    let isExec := ((g.port? o).map Port.isExec).getD false
    let g := if isExec then g.unlink o else g
    let (g, l) := g.addLink o i
    (g, some l)
  else (g, none)

/-- Does a port suit a port of another kind on a given side? -/
def isSuitable (kind : String) (side : Side) (p : Port) : Bool :=
  match side with
  | .output => Kind.compatible kind p.kind
  | .input => Kind.compatible p.kind kind

/-- Links a port to the first suitable port of a node.  A data input keeps one
link and a control-flow output drives one successor, so the links that the new
one displaces are removed first. -/
def autoConnect (g : Graph) (source : PortRef) (node : Scalar) : Graph × Option Link :=
  match g.port? source, g.node? node with
  | some port, some n =>
    if source.node.same node then (g, none)
    else
      let side := source.side.opposite
      match (n.ports side).find? (isSuitable port.kind source.side) with
      | none => (g, none)
      | some target =>
        let (o, i) := PortRef.normalize source (n.ref side target.index)
        let isExec (r : PortRef) : Bool := ((g.port? r).map Port.isExec).getD false
        let execIn := isExec i
        let execOut := isExec o
        let g := if execIn then g else g.unlink i
        let g := if execOut then g.unlink o else g
        let (g, l) := g.addLink o i
        (g, some l)
  | _, _ => (g, none)

/-- Is the link sound by itself? -/
def isSound (g : Graph) (l : Link) : Bool :=
  match g.port? l.source, g.port? l.target with
  | some source, some target =>
    l.source.side == .output && l.target.side == .input && !l.source.node.same l.target.node &&
      Kind.compatible source.kind target.kind
  | _, _ => false

/-- The address of the control-flow output from which a link starts, if it does. -/
def execSource? (g : Graph) (l : Link) : Option (Key × Side × Int) :=
  if ((g.port? l.source).map Port.isExec).getD false then some l.source.address else none

/-- The address of the data input at which a link ends, if it does. -/
def dataTarget? (g : Graph) (l : Link) : Option (Key × Side × Int) :=
  if ((g.port? l.target).map Port.isExec).getD false then none else some l.target.address

/-- Of the elements that share a key all but the first, one key after the other
in the order in which the keys first come. -/
def surplus {α κ : Type} [BEq κ] (key : α → Option κ) (xs : List α) : List α :=
  let keyed := xs.filterMap fun a => (key a).map fun k => (k, a)
  (keyed.map (·.1)).eraseDups.flatMap fun k =>
    ((keyed.filter fun e => e.1 == k).map (·.2)).drop 1

/-- The links that break a rule, with their places in the list: first the
unsound ones, then those that are one too many at a control-flow output, then
those that are one too many at a data input. -/
def breaches (g : Graph) : List (Link × Nat) :=
  let placed := g.links.zipIdx
  let unsound := placed.filter fun l => !g.isSound l.1
  let sound := placed.filter fun l => g.isSound l.1
  let crowdedOut := surplus (fun l => g.execSource? l.1) sound
  let crowdedIn := surplus (fun l => g.dataTarget? l.1) sound
  unsound ++ crowdedOut ++ crowdedIn.filter fun l => !crowdedOut.contains l

/-- Removes the links that break a rule. -/
def repair (g : Graph) : Graph × List Link :=
  let bad := g.breaches
  ({ g with links := (g.links.zipIdx.filter fun l => !bad.contains l).map (·.1) }, bad.map (·.1))

/-- Is there no node with this id? -/
def lacks (g : Graph) (id : Scalar) : Bool :=
  (g.node? id).isNone

/-- The graph without some nodes and without the links that touch them. -/
def without (g : Graph) (ids : List Scalar) : Graph :=
  { g with
    nodes := g.nodes.filter fun n => !ids.any n.id.same
    links := g.links.filter fun l => !ids.any l.touches }

/-- Removes nodes and the links that touch them, if all of them are there; of
several ids that no node has, the fault names the first in the order of the set
of ids.  The removal is reported with the ids in their order: ids without an order
among each other are a fault as well, and so are ids with too many digits, but one
that shows only after the removal. -/
def removeNodes (g : Graph) (ids : List Scalar) : Graph × Except Fault (List Link) :=
  let set := (ScalarSet.ofList ids).toList
  match ids.filter g.lacks with
  | id :: _ => (g, .error (.noSuchNode ((set.find? g.lacks).getD id)))
  | [] =>
    (g.without ids,
      match Scalar.sort set with
      | .ok _ =>
        if ids.all Scalar.isWritable then .ok (g.links.filter fun l => ids.any l.touches)
        else .error .unwritable
      | .error e => .error e)

end Graph

end NodeWeave
