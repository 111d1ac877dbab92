import NodeWeave.Graph.Recorded

/-!
# Loading a graph document

Loading replaces the contents of a graph.  It forgives entry by entry: a node or
a connection that cannot be admitted is skipped and the report says why, while
the rest of the document loads.  Only a wrong outline refuses a document as a
whole, and then the graph stays as it was.

Each entry that is left out has a line in the log, which shows the id that it gave.  An
id that cannot be shown there ends the loading, as other faults in between do, and the
graph keeps what was loaded by then.
-/

namespace NodeWeave.Document

/-- An entry that was left out. -/
structure Skipped where
  /-- The place in the list of the document. -/
  index : Nat
  /-- The id, if the entry gave a whole number. -/
  id : Option Int
  reason : SkipReason

/-- The entry as a value. -/
def Skipped.toValue (s : Skipped) : Value :=
  .obj [("index", .int s.index), ("id", (s.id.map Value.int).getD .null),
    ("reason", .str s.reason.text)]

/-- The line that warns of a left-out entry. -/
def Skipped.warning (kind : EntryKind) (s : Skipped) : String :=
  let id := (s.id.map toString).getD "None"
  s!"{kind.name} #{s.index} (id={id}) skipped: {s.reason.text}"

/-- What became of a document. -/
structure Report where
  nodesLoaded : Nat := 0
  linksLoaded : Int := 0
  skippedNodes : List Skipped := []
  skippedLinks : List Skipped := []
  /-- The ids of links that were loaded and then broke a rule. -/
  removed : List Scalar := []
  metadata : List (String × Value) := []

namespace Report

/-- Was everything loaded? -/
def ok (r : Report) : Bool :=
  r.skippedNodes.isEmpty && r.skippedLinks.isEmpty && r.removed.isEmpty

/-- The report with one entry more that was left out. -/
def skip (r : Report) (s : Skipped) : EntryKind → Report
  | .node => { r with skippedNodes := r.skippedNodes ++ [s] }
  | .connection => { r with skippedLinks := r.skippedLinks ++ [s] }

/-- The lines that warn of what is missing. -/
def warnings (r : Report) : List String :=
  r.skippedNodes.map (Skipped.warning .node) ++
  r.skippedLinks.map (Skipped.warning .connection) ++
  if r.removed.isEmpty then []
  else [s!"removed {r.removed.length} invalid connection(s): " ++ Notice.idList r.removed]

/-- The report as a value. -/
def toValue (r : Report) : Value :=
  .obj [("nodesLoaded", .int r.nodesLoaded), ("connectionsLoaded", .int r.linksLoaded),
    ("skippedNodes", .list (r.skippedNodes.map Skipped.toValue)),
    ("skippedConnections", .list (r.skippedLinks.map Skipped.toValue)),
    ("removedLinks", .list (r.removed.map Scalar.toValue))]

end Report

/-- The graph, the notices and the report while a document loads. -/
structure Loading where
  graph : Graph
  notices : List Notice
  report : Report

/-- The id of an entry as it was given, or null. -/
def entryId (v : Value) : Value :=
  v.field "id"

/-- Records an entry that is left out, if the line that tells so can be written. -/
def Loading.skip (limit : Nesting) (s : Loading) (kind : EntryKind) (index : Nat) (entry : Value)
    (reason : SkipReason) : Loading × Option Fault :=
  let given := entryId entry
  let id := match given with
    | .int id => some id
    | _ => none
  match reason.fault?.or (limit.ofLine.fault? given) with
  | some fault => (s, some fault)
  | none =>
    ({ s with
       notices := s.notices ++ [.skipped kind index given reason]
       report := s.report.skip { index, id, reason } kind }, none)

/-- The node of an entry, unless the first value of its type goes too deep.  A value
for a node without a slot is ignored; there is a line for that, and one for a value
that does not suit the slot. -/
def NodeEntry.build (limit : Nesting) (c : Catalog) (e : NodeEntry) :
    Except Fault (Node × List Notice) := do
  let n ← Node.build c (.int e.id) (.str e.category) (.str e.type) e.x e.y
  if !limit.builds c n then .error .tooDeep
  else
    match e.value with
    | none => return (n, [])
    | some v =>
      if n.slot.isSome then return (← n.setValue v, Notice.ofStored n v)
      else if n.id.isWritable then return (n, [.valueIgnored n.id n.category n.type])
      else .error .unwritable

/-- Loads a node entry.  What was refused is skipped; other faults end the
loading. -/
def Loading.addNode (limit : Nesting) (c : Catalog) (s : Loading) (entry : Value × Nat) :
    Loading × Option Fault :=
  let skip (reason : SkipReason) := s.skip limit .node entry.2 entry.1 reason
  match NodeEntry.ofValue entry.1 with
  | .error problems => skip (.malformed problems)
  | .ok e =>
    if (s.graph.node? (.int e.id)).isSome then skip .duplicateNode
    else
      match e.build limit c with
      | .error fault => if fault.isRefusal then skip (.refused fault) else (s, some fault)
      | .ok (n, notices) =>
        match s.graph.insertNode n with
        | (_, some fault) => skip (.refused fault)
        | (graph, none) =>
          ({ graph
             notices := s.notices ++ notices
             report := { s.report with nodesLoaded := s.report.nodesLoaded + 1 } }, none)

/-- The ends of a connection from output to input, if it can be admitted. -/
def LinkEntry.admit (g : Graph) (e : LinkEntry) : Except SkipReason (PortRef × PortRef) :=
  match [e.source.node, e.target.node].find? fun id => (g.node? id).isNone with
  | some id => .error (.missingNode id)
  | none =>
    if (g.port? e.source).isNone || (g.port? e.target).isNone then .error .missingPort
    else if e.source.side = e.target.side then .error (.sameSide e.source.side)
    else if (g.link? (.int e.id)).isSome then .error .duplicateLink
    else .ok (PortRef.normalize e.source e.target)

/-- Loads a connection entry. -/
def Loading.addLink (limit : Nesting) (s : Loading) (entry : Value × Nat) : Loading × Option Fault :=
  let skip (reason : SkipReason) := s.skip limit .connection entry.2 entry.1 reason
  match LinkEntry.ofValue entry.1 with
  | .error problems => skip (.malformed problems)
  | .ok e =>
    match e.admit s.graph with
    | .error reason => skip reason
    | .ok (source, target) =>
      match s.graph.insertLink (.int e.id) source target with
      | .error fault => skip (.refused fault)
      | .ok (graph, _) =>
        ({ s with
           graph
           report := { s.report with linksLoaded := s.report.linksLoaded + 1 } }, none)

/-- Removes the links that break a rule and finishes the report. -/
def Loading.finish (s : Loading) : Outcome Graph Report :=
  let repaired := Graph.Recorded.repair s.graph
  { state := repaired.state
    notices := s.notices ++ repaired.notices
    result := repaired.result.map fun removed =>
      { s.report with
        linksLoaded := s.report.linksLoaded - removed.length
        removed := removed.map Link.id } }

/-- The end of a loading that a fault stopped. -/
def Loading.stopped (s : Loading) (fault : Fault) : Outcome Graph Report :=
  ⟨s.graph, s.notices, .error fault⟩

/-- Replaces the contents of a graph by those of a document. -/
def loadWithin (limit : Nesting) (c : Catalog) (g : Graph) (doc : Value) : Outcome Graph Report :=
  match Outline.ofValue doc with
  | .error cause => ⟨g, [], .error (.outline cause)⟩
  | .ok outline =>
    let start : Loading := ⟨Graph.empty, [], { metadata := outline.metadata }⟩
    match runUntil (Loading.addNode limit c) start outline.nodes.zipIdx with
    | (s, some fault) => s.stopped fault
    | (s, none) =>
      match runUntil (Loading.addLink limit) s outline.connections.zipIdx with
      | (s, some fault) => s.stopped fault
      | (s, none) => s.finish

/-- Replaces the contents of a graph by those of a document file. -/
def loadText (limit : Nesting) (c : Catalog) (g : Graph) (text : List Char) :
    Outcome Graph Report :=
  match Json.parse text with
  | .error e => ⟨g, [], .error (.ofJson e)⟩
  | .ok doc => loadWithin limit c g doc

end NodeWeave.Document
