import NodeWeave.Editor

/-!
# Answering requests

The service edits one graph.  Its editor is made from the settings at the first
request that needs it, and again at the next one if that failed.

How a request is understood and how an answer is sent is not settled here: `Web` stands
for any way to do it.  A request that is understood is a command, and `perform` carries
it out.
-/

namespace NodeWeave.Service

/-- A request.  The body is a text that should be JSON, and empty when there is
none. -/
structure Request where
  method : String
  address : String
  body : String := ""

/-- What a request asks for. -/
inductive Command where
  | showCatalog
  | addCatalog (doc : Value)
  | listTypes
  | showDocument
  | loadDocument (doc : Value)
  | clear
  | createNode (category type : String) (x y : Value) (source : Option PortRef)
  | showNode (id : Int)
  | deleteNode (id : Int)
  | moveNode (id : Int) (x y : Value)
  | setValue (id : Int) (v : Value)
  | createLink (a b : PortRef)
  | deleteLink (id : Int)
  | generate

/-- What an answer holds. -/
inductive Content where
  | empty
  | json (v : Value)
  /-- The locations in the request that could not be read. -/
  | invalid (locations : List String)

/-- An answer to a request. -/
structure Response where
  status : Nat
  content : Content
  notices : List Notice := []

/-- What is made of a request. -/
inductive Reading where
  /-- It is answered before anything is asked of the service. -/
  | answered (r : Response)
  /-- It asks whether the service is there, for which no editor is needed. -/
  | health
  /-- It is refused, but the editor is made before that. -/
  | refused (r : Response)
  | command (c : Command)

/-- How requests are understood and answers are sent. -/
structure Web where
  read : Request → Reading
  /-- A value as an answer gives it, if it can be sent. -/
  present : Value → Option Value
  /-- The name of a field that a scalar becomes in an answer. -/
  spell : Scalar → String

/-- The service: what it starts from, and its editor once there is one. -/
structure Server where
  web : Web
  variableFiles : VariableFiles
  files : FileTree
  env : Table String String
  now : Moment
  editor : Option Editor := none

namespace Response

/-- The answer to a fault that was not foreseen. -/
def broken (notices : List Notice) : Response :=
  { status := 500, content := .empty, notices }

/-- An answer with a value, if it can be sent. -/
def give (present : Value → Option Value) (status : Nat) (v : Value) (notices : List Notice) :
    Response :=
  match present v with
  | some shown => { status, content := .json shown, notices }
  | none => broken notices

end Response

namespace Web

/-- An answer with a value, if it can be sent. -/
def give (w : Web) (status : Nat) (v : Value) (notices : List Notice) : Response :=
  .give w.present status v notices

/-- An answer that says what went wrong. -/
def refuse (w : Web) (status : Nat) (detail : String) (notices : List Notice) : Response :=
  w.give status (.obj [("detail", .str detail)]) notices

/-- The answer that the service is there. -/
def healthy (w : Web) : Response :=
  w.give 200 (.obj [("status", .str "ok")]) []

end Web

/-- The ids of links as a value. -/
def linkIds (links : List Link) : Value :=
  .list (links.map fun l => l.id.toValue)

/-- A node type as the list of types shows it. -/
def typeEntry (c : Catalog) (category : Scalar) (type : String) (t : NodeType) : Value :=
  let port (d : PortDef) : Value := .obj [("type", .str d.kind), ("name", d.name)]
  .obj [("category", category.toValue), ("type", .str type), ("title", t.title),
    ("color", c.nodeColor category t), ("description", t.description),
    ("inputs", .list ((t.visiblePorts .input).map port)),
    ("outputs", .list ((t.visiblePorts .output).map port)),
    ("valueType", .ofText? (t.slot.map fun s => s.type.name))]

/-- How a catalog document that failed is answered. -/
def catalogFault (w : Web) (fault : Fault) (notices : List Notice) : Response :=
  let isAnswered := match fault with
    | .missingField _ => true
    | _ => fault.isRefusal
  if isAnswered then w.refuse 400 ("Invalid registry document: " ++ fault.message) notices
  else .broken notices

/-- How a fault in an operation on a node is answered. -/
def nodeFault (w : Web) (fault : Fault) (notices : List Notice) : Response :=
  match fault with
  | .noSuchNode id =>
    if id.isWritable then w.refuse 404 s!"Node {id.display} not found" notices else .broken notices
  | .unknownNodeType .. => w.refuse 404 fault.message notices
  | _ => .broken notices

/-- How a fault in storing a value is answered. -/
def valueFault (w : Web) (fault : Fault) (notices : List Notice) : Response :=
  match fault with
  | .noSuchNode _ => nodeFault w fault notices
  | _ => if fault.isRefusal then w.refuse 400 fault.message notices else .broken notices

/-- The answer with a node, where `failed` answers a fault. -/
def nodeAnswer (w : Web) (failed : Fault → List Notice → Response) (o : Outcome Editor Node) :
    Editor × Response :=
  match o.result with
  | .ok n => (o.state, w.give 200 (n.toValue w.spell) o.notices)
  | .error fault => (o.state, failed fault o.notices)

/-- Adds a node and links it to the port that waits for it, if there is one. -/
def createNode (w : Web) (e : Editor) (category type : String) (x y : Value)
    (source : Option PortRef) : Editor × Response :=
  let o := e.createNode (.str category) (.str type) x y
  match o.result, source with
  | .error fault, _ => (o.state, nodeFault w fault o.notices)
  | .ok n, none => (o.state, w.give 201 (n.toValue w.spell) o.notices)
  | .ok n, some r =>
    let linked := o.state.autoConnect r n.id
    let notices := o.notices ++ linked.notices
    let fields := match n.toValue w.spell with
      | .obj fields => fields
      | _ => []
    (linked.state,
      match linked.result with
      | .ok link =>
        w.give 201 (.obj (fields ++ [("link", (link.map Link.toValue).getD .null)])) notices
      | .error _ => .broken notices)

/-- Carries out a command. -/
def perform (w : Web) (e : Editor) (now : Moment) : Command → Editor × Response
  | .showCatalog => (e, w.give 200 (e.catalog.summary w.spell) [])
  | .addCatalog doc =>
    let o := e.addCatalog doc
    match o.result with
    | .ok removed =>
      (o.state, w.give 200 (.obj [("registry", o.state.catalog.summary w.spell),
        ("removedLinks", linkIds removed)]) o.notices)
    | .error fault => (o.state, catalogFault w fault o.notices)
  | .listTypes =>
    (e, w.give 200 (.list (e.catalog.entries.map fun (category, type, t) =>
      typeEntry e.catalog category type t)) [])
  | .showDocument => (e, w.give 200 e.document [])
  | .loadDocument doc =>
    let o := e.load doc
    match o.result with
    | .ok report => (o.state, w.give 200 report.toValue o.notices)
    | .error (.outline cause) => (o.state, w.refuse 400 cause.message o.notices)
    | .error _ => (o.state, .broken o.notices)
  | .clear => (e.clear, { status := 204, content := .empty })
  | .createNode category type x y source => createNode w e category type x y source
  | .showNode id => nodeAnswer w (nodeFault w) ⟨e, [], e.node (.int id)⟩
  | .deleteNode id =>
    let o := e.deleteNode (.int id)
    match o.result with
    | .ok removed => (o.state, w.give 200 (.obj [("removedLinks", linkIds removed)]) o.notices)
    | .error fault => (o.state, nodeFault w fault o.notices)
  | .moveNode id x y => nodeAnswer w (nodeFault w) (e.moveNode (.int id) x y)
  | .setValue id v => nodeAnswer w (valueFault w) (e.setValue (.int id) v)
  | .createLink a b =>
    let o := e.createLink a b
    match o.result with
    | .ok (some l) => (o.state, w.give 201 l.toValue o.notices)
    | .ok none => (o.state, w.refuse 409 "Connection rejected" o.notices)
    | .error _ => (o.state, .broken o.notices)
  | .deleteLink id =>
    let o := e.deleteLink (.int id)
    match o.result with
    | .ok l => (o.state, w.give 200 l.toValue o.notices)
    | .error (.noSuchLink _) =>
      (o.state, if Number.isWritable id then w.refuse 404 s!"Link {id} not found" o.notices
        else .broken o.notices)
    | .error _ => (o.state, .broken o.notices)
  | .generate =>
    match e.generate now with
    | .ok source => (e, w.give 200 (.obj [("code", .str source)]) [])
    | .error fault =>
      (e, if fault.isGeneration then w.refuse 422 fault.message [] else .broken [])

namespace Server

/-- The editor, made now if there is none, and what there is to report. -/
def ready (s : Server) : List Notice × Except Fault Editor :=
  match s.editor with
  | some e => ([], .ok e)
  | none =>
    match Settings.load s.variableFiles s.files s.env none with
    | .error fault => ([], .error fault)
    | .ok settings => Editor.start s.files settings

/-- Answers with the editor. -/
def answer (s : Server) (reply : Editor → Editor × Response) : Server × Response :=
  match s.ready with
  | (notices, .error _) => (s, .broken notices)
  | (notices, .ok e) =>
    let (e, r) := reply e
    ({ s with editor := some e }, { r with notices := notices ++ r.notices })

/-- Answers a request. -/
def handle (s : Server) (r : Request) : Server × Response :=
  match s.web.read r with
  | .answered response => (s, response)
  | .health => (s, s.web.healthy)
  | .refused response => s.answer fun e => (e, response)
  | .command c => s.answer fun e => perform s.web e s.now c

end Server

end NodeWeave.Service
