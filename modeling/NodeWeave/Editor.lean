import NodeWeave.Catalog.File
import NodeWeave.Document.Export
import NodeWeave.Document.Load
import NodeWeave.Graph.Recorded
import NodeWeave.Program.Statement
import NodeWeave.Settings

/-!
# The editor

An editor holds one catalog and one graph.  Its operations keep the rules for
links: whatever changes the nodes or the links repairs the graph afterwards and
reports what that removed.
-/

namespace NodeWeave

/-- A catalog and the graph that is edited with it. -/
structure Editor where
  catalog : Catalog := {}
  graph : Graph := {}
  /-- The longest chain of expressions that is followed. -/
  dataLimit : Int := Program.defaultLimit
  /-- How deep the values may go that the editor works with. -/
  nesting : Nesting := .served

namespace Editor

/-- Merges catalog files; what was refused, or cannot be read, is reported and
left out, while another fault ends the merging. -/
def mergeFiles (files : FileTree) (s : Catalog × List Notice) (path : String) :
    (Catalog × List Notice) × Option Fault :=
  match s.1.mergeFile files path with
  | (c, none) => ((c, s.2), none)
  | (c, some fault) =>
    let isReported := match fault with
      | .file .. => true
      | _ => fault.isRefusal
    if isReported then ((c, s.2 ++ [.catalogUnreadable path fault]), none)
    else ((c, s.2), some fault)

/-- A new editor with the catalog files of the settings, and what there is to
report. -/
def start (files : FileTree) (s : Settings) : List Notice × Except Fault Editor :=
  match runUntil (mergeFiles files) ({}, []) s.catalogPaths with
  | ((_, notices), some fault) => (notices, .error fault)
  | ((catalog, notices), none) => (notices, .ok { catalog, dataLimit := s.dataLimit })

/-- An operation that changed the graph. -/
def edited {α : Type} (e : Editor) (graph : Graph) (notices : List Notice)
    (result : Except Fault α) : Outcome Editor α :=
  ⟨{ e with graph }, notices, result⟩

/-- An operation that failed without effect. -/
def failed {α : Type} (e : Editor) (fault : Fault) : Outcome Editor α :=
  ⟨e, [], .error fault⟩

/-- Ends an operation with a repair of the links, unless it failed. -/
def repaired {α : Type} (e : Editor) (edit : Outcome Graph α) : Outcome Editor α :=
  match edit.result with
  | .error fault => e.edited edit.state edit.notices (.error fault)
  | .ok result =>
    let repair := Graph.Recorded.repair edit.state
    e.edited repair.state (edit.notices ++ repair.notices) (repair.result.map fun _ => result)

/-- Merges a catalog document and takes it over into the graph. -/
def addCatalog (e : Editor) (doc : Value) : Outcome Editor (List Link) :=
  match e.catalog.merge doc with
  | (catalog, some fault) => ⟨{ e with catalog }, [], .error fault⟩
  | (catalog, none) =>
    let refreshed := Graph.Recorded.refresh catalog e.graph
    ⟨{ e with catalog, graph := refreshed.state }, refreshed.notices, refreshed.result⟩

/-- The document of the graph. -/
def document (e : Editor) : Value :=
  Document.ofGraph e.graph .null

/-- Replaces the graph by that of a document. -/
def load (e : Editor) (doc : Value) : Outcome Editor Document.Report :=
  let loaded := Document.loadWithin e.nesting e.catalog e.graph doc
  e.edited loaded.state loaded.notices loaded.result

/-- Empties the graph. -/
def clear (e : Editor) : Editor :=
  { e with graph := Graph.empty }

/-- The node with an id. -/
def node (e : Editor) (id : Scalar) : Except Fault Node :=
  match e.graph.node? id with
  | some n => .ok n
  | none => .error (.noSuchNode id)

/-- Adds a node. -/
def createNode (e : Editor) (category type x y : Value) : Outcome Editor Node :=
  e.repaired (Graph.Recorded.addNode e.nesting e.catalog e.graph category type x y)

/-- Removes a node and tells which links went with it. -/
def deleteNode (e : Editor) (id : Scalar) : Outcome Editor (List Link) :=
  let (graph, removed) := e.graph.removeNodes [id]
  e.repaired ⟨graph, [], removed⟩

/-- Moves a node. -/
def moveNode (e : Editor) (id : Scalar) (x y : Value) : Outcome Editor Node :=
  match e.node id with
  | .error fault => e.failed fault
  | .ok n =>
    let (n, fault) := n.moveTo x y
    let result := match fault with
      | some fault => .error fault
      | none => .ok n
    e.edited (e.graph.updateNode n) [] result

/-- Stores a value in a node. -/
def setValue (e : Editor) (id : Scalar) (v : Value) : Outcome Editor Node :=
  match e.node id with
  | .error fault => e.failed fault
  | .ok n =>
    match n.setValue v with
    | .error fault => e.failed fault
    | .ok changed => e.edited (e.graph.updateNode changed) (Notice.ofStored n v) (.ok changed)

/-- Links two ports, if they may be linked. -/
def createLink (e : Editor) (a b : PortRef) : Outcome Editor (Option Link) :=
  let edit := Graph.Recorded.connect e.graph a b
  match edit.result with
  | .ok none => ⟨e, [], .ok none⟩
  | _ => e.repaired edit

/-- Links a port to the first suitable port of a node. -/
def autoConnect (e : Editor) (source : PortRef) (node : Scalar) :
    Outcome Editor (Option Link) :=
  e.repaired (Graph.Recorded.autoConnect e.graph source node)

/-- Removes a link. -/
def deleteLink (e : Editor) (id : Value) : Outcome Editor Link :=
  match e.graph.removeLink id with
  | .error fault => e.failed fault
  | .ok (graph, l) => e.repaired ⟨graph, [], .ok l⟩

/-- The text of the program. -/
def generate (e : Editor) (now : Moment) : Except Fault String :=
  Program.sourceWithin e.nesting.ofText e.catalog e.graph (.int e.dataLimit) now

end Editor

end NodeWeave
