import NodeWeave.Nesting
import NodeWeave.Notice
import NodeWeave.Value.Writable

/-!
# Recorded edits

Edits of a graph are recorded in lines that show the nodes, the ports and the links
that they are about.  Ids can grow beyond what can be written, since each is one above
the largest so far; the line of such an id is a fault.  It is found out only when the
line is due, and so the graph is changed by then: `addNode` and `autoConnect` leave the
node and the link that they fail to report, and `connect` may leave neither the links
that gave way nor the new one.

A new node gets a copy of the first value of its type.  Where that goes too deep
there is no node, and nothing to record.
-/

namespace NodeWeave.Graph.Recorded

/-- The end of an edit with its result, once its line is written. -/
def record {α : Type} (g : Graph) (isWritable : Bool) (result : α) : Outcome Graph α :=
  ⟨g, [], if isWritable then .ok result else .error .unwritable⟩

/-- Adds a node of a type, unless its first value goes too deep. -/
def addNode (limit : Nesting) (c : Catalog) (g : Graph) (category type x y : Value) :
    Outcome Graph Node :=
  match g.addNode c category type x y with
  | .error fault => ⟨g, [], .error fault⟩
  | .ok (added, n) =>
    if limit.builds c n then record added (n.id.isWritable && n.category.isWritable) n
    else ⟨g, [], .error .tooDeep⟩

/-- The links that give way when two ports are linked. -/
def replaced (g : Graph) (a b : PortRef) : List Link :=
  let (o, _) := PortRef.normalize a b
  if ((g.port? o).map Port.isExec).getD false then g.linksAt o else []

/-- Can the line be written that tells which links gave way at a port?  Without such
links there is no line. -/
def canReplace (links : List Link) (o : PortRef) : Bool :=
  links.isEmpty || (links.all (fun l => l.id.isWritable) && o.isWritable)

/-- Links two ports, if they may be linked.  There is a line for a pair that may not,
and else one for the links that give way and then one for the new link. -/
def connect (g : Graph) (a b : PortRef) : Outcome Graph (Option Link) :=
  if g.canConnect a b then
    let (o, _) := PortRef.normalize a b
    if canReplace (replaced g a b) o then
      let (g, link) := g.connect a b
      record g (link.all Link.isWritable) link
    else ⟨g.unlink o, [], .error .unwritable⟩
  else record g (a.isWritable && b.isWritable) none

/-- Links a port to the first suitable port of a node. -/
def autoConnect (g : Graph) (source : PortRef) (node : Scalar) : Outcome Graph (Option Link) :=
  let (g, link) := g.autoConnect source node
  record g (link.all Link.isWritable) link

/-- Removes the links that break a rule. -/
def repair (g : Graph) : Outcome Graph (List Link) :=
  let (g, removed) := g.repair
  if removed.all fun l => l.id.isWritable then ⟨g, Notice.ofRemoved removed, .ok removed⟩
  else ⟨g, [], .error .unwritable⟩

/-- Takes the catalog's node types over into the ports of the nodes, one node
after the other until one fails. -/
def syncNodes (c : Catalog) : List Node → List Node × List Notice × Option Fault
  | [] => ([], [], none)
  | n :: rest =>
    match c.find? n.category n.type with
    | none =>
      if n.id.isWritable && n.category.isWritable then
        let (rest, notices, e) := syncNodes c rest
        (n :: rest, .typeGone n.id n.category n.type :: notices, e)
      else (n :: rest, [], some .unwritable)
    | some t =>
      match n.sync t with
      | (n, some e) => (n :: rest, [], some e)
      | (n, none) =>
        let (rest, notices, e) := syncNodes c rest
        (n :: rest, notices, e)

/-- Takes the catalog's node types over into the ports of the nodes, and repairs
the links. -/
def refresh (c : Catalog) (g : Graph) : Outcome Graph (List Link) :=
  match syncNodes c g.nodes with
  | (nodes, notices, some e) => ⟨{ g with nodes }, notices, .error e⟩
  | (nodes, notices, none) =>
    let repaired := repair { g with nodes }
    ⟨repaired.state, notices ++ repaired.notices, repaired.result⟩

/-- Recording a repair does not change what it leaves. -/
theorem repair_state (g : Graph) : (repair g).state = g.repair.1 := by
  simp only [repair]
  split <;> rfl

theorem repair_eq_ok {g : Graph} {removed : List Link} (h : (repair g).result = .ok removed) :
    removed = g.repair.2 := by
  unfold repair at h
  dsimp only at h
  split at h
  · cases h
    rfl
  · cases h

/-- Only an id of a link that was removed can make the recording of a repair fail. -/
theorem repair_eq_error {g : Graph} {fault : Fault} (h : (repair g).result = .error fault) :
    fault = .unwritable ∧ ∃ l ∈ g.repair.2, l.id.isWritable = false := by
  unfold repair at h
  dsimp only at h
  split at h
  · cases h
  · rename_i hlong
    cases h
    exact ⟨rfl, by simpa using hlong⟩

/-- Recording a link to a node does not change what it leaves. -/
theorem autoConnect_state (g : Graph) (source : PortRef) (node : Scalar) :
    (autoConnect g source node).state = (g.autoConnect source node).1 := rfl

end NodeWeave.Graph.Recorded
