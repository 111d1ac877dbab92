import NodeWeave.Json.Bytes
import NodeWeave.Service.Address
import NodeWeave.Service.Field
import NodeWeave.Service.Handler

/-!
# Requests

A request names a method and an address.  The method and the path of the address
select an endpoint; the endpoint with what stands in the path and in the body
makes a command.  A request is read in this order: unknown paths and methods; bodies
that are no JSON; fields that cannot be read.

This is the outermost layer, the way in which requests really come: `web` is the one
`Web` with which the service runs.  What is proved of the service holds for every other
one as well.
-/

namespace NodeWeave.Service

/-- What a path and a method select.  The ids are still texts. -/
inductive Endpoint where
  | showCatalog
  | addCatalog
  | listTypes
  | showDocument
  | loadDocument
  | clear
  | createNode
  | showNode (id : String)
  | deleteNode (id : String)
  | moveNode (id : String)
  | setValue (id : String)
  | createLink
  | deleteLink (id : String)
  | generate
  deriving DecidableEq

/-- What there is at a path for a method. -/
inductive Target where
  | health
  /-- A page about the service itself. -/
  | page
  | endpoint (e : Endpoint)

/-- The methods that the resource at a path has. -/
def resource : List String → List (String × Target)
  | ["health"] => [("GET", .health)]
  | ["openapi.json"] => [("GET", .page), ("HEAD", .page)]
  | ["docs"] => [("GET", .page), ("HEAD", .page)]
  | ["docs", "oauth2-redirect"] => [("GET", .page), ("HEAD", .page)]
  | ["redoc"] => [("GET", .page), ("HEAD", .page)]
  | "api" :: rest => (endpoints rest).map fun (method, e) => (method, .endpoint e)
  | _ => []
where
  /-- The methods that a resource of the editor has. -/
  endpoints : List String → List (String × Endpoint)
    | ["registry"] => [("GET", .showCatalog), ("POST", .addCatalog)]
    | ["node-types"] => [("GET", .listTypes)]
    | ["graph"] => [("GET", .showDocument), ("PUT", .loadDocument), ("DELETE", .clear)]
    | ["nodes"] => [("POST", .createNode)]
    | ["nodes", id] =>
      if id.isEmpty then [] else [("GET", .showNode id), ("DELETE", .deleteNode id)]
    | ["nodes", id, "position"] => if id.isEmpty then [] else [("PUT", .moveNode id)]
    | ["nodes", id, "value"] => if id.isEmpty then [] else [("PUT", .setValue id)]
    | ["links"] => [("POST", .createLink)]
    | ["links", id] => if id.isEmpty then [] else [("DELETE", .deleteLink id)]
    | ["generate"] => [("POST", .generate)]
    | _ => []

/-- The parts of a path; a slash in front starts none. -/
def pathParts (path : String) : List String :=
  match Text.split '/' path with
  | "" :: parts => parts
  | parts => parts

/-- The methods of the resource at a path.  A newline at the end of a fixed part
does not matter. -/
def methodsOf (path : String) : List (String × Target) :=
  match resource (pathParts path), path.toList.reverse with
  | [], '\n' :: rest => resource (pathParts (String.ofList rest.reverse))
  | methods, _ => methods

/-- The methods of the resource at a path.  When there is none, the path without
the slashes at its end is asked for instead, if there is something at it; it is
resolved and decoded once more.  That happens so many times at most. -/
def methodsAt (redirects : Nat) (path : String) : Option (List (String × Target)) :=
  match methodsOf path with
  | [] =>
    let shorter := String.ofList ((path.toList.reverse.dropWhile (· == '/')).reverse)
    if (methodsOf shorter).isEmpty then some []
    else
      match redirects with
      | 0 => none
      | redirects + 1 => (percentDecoded? (resolvePath shorter)).bind (methodsAt redirects)
  | methods => some methods

/-- How many times a request is sent to another path. -/
def maxRedirects : Nat := 20

/-- The methods of the resource that a request is for, if it can be sent. -/
def Request.methods? (r : Request) : Option (List (String × Target)) :=
  (requestPath? r.address).bind (methodsAt maxRedirects)

/-- Does the endpoint read the body? -/
def Endpoint.takesBody : Endpoint → Bool
  | addCatalog => true
  | loadDocument => true
  | createNode => true
  | moveNode _ => true
  | setValue _ => true
  | createLink => true
  | _ => false

/-- Why a body is no value. -/
inductive BodyFault where
  /-- It is no JSON from a position on. -/
  | malformed (position : Nat)
  /-- It is no text, or holds numbers or nesting beyond what is read. -/
  | unreadable

/-- How deep lists and objects may lie in each other in a body. -/
def bodyDepth : Nat := 958

/-- Reads a body as JSON.  An empty body is null. -/
def readBody (bytes : ByteArray) : Except BodyFault Value :=
  if bytes.isEmpty then .ok .null
  else
    match Json.readBytes? bodyDepth bytes.toList with
    | some (.ok v) => .ok v
    | some (.error (.malformed _ position)) => .error (.malformed position)
    | _ => .error .unreadable

/-- The object that a body has to be. -/
def objectBody (v : Value) : Checked Value :=
  match v with
  | .obj _ => .ok v
  | _ => .error [⟨"body", v⟩]

/-- Reads a field of the body under the first of two names that it has. -/
def endOfLink (v : Value) (name other : String) : Checked PortRef :=
  match v.field? name, v.field? other with
  | some w, _ => portRef ("body." ++ name) w
  | none, some w => portRef ("body." ++ other) w
  | none, none => .error [⟨"body." ++ name, v⟩]

/-- Reads the port that a new node is to be linked to, if one is given. -/
def pendingPort (v : Value) : Checked (Option PortRef) :=
  match v.field "connectFrom" with
  | .null => .ok none
  | w => (portRef "body.connectFrom" w).map some

/-- The command of an endpoint and a body. -/
def Endpoint.command (body : Value) : Endpoint → Checked Command
  | showCatalog => .ok .showCatalog
  | addCatalog => (objectBody body).map .addCatalog
  | listTypes => .ok .listTypes
  | showDocument => .ok .showDocument
  | loadDocument => (objectBody body).map .loadDocument
  | clear => .ok .clear
  | createNode => do
    let v ← objectBody body
    let ((category, type), ((x, y), source)) ← Checked.both
      (Checked.both (required text? "body" "category" v) (required text? "body" "type" v))
      (Checked.both (Checked.both (coordinate "body" "x" v) (coordinate "body" "y" v))
        (pendingPort v))
    return .createNode category type x y source
  | showNode id => (node id).map .showNode
  | deleteNode id => (node id).map .deleteNode
  | moveNode id => do
    let (id, x, y) ← Checked.both (node id) (do
      let v ← objectBody body
      Checked.both (required double? "body" "x" v) (required double? "body" "y" v))
    return .moveNode id (.float x) (.float y)
  | setValue id => do
    let (id, v) ← Checked.both (node id) (objectBody body)
    return .setValue id (v.field "value")
  | createLink => do
    let v ← objectBody body
    let (a, b) ← Checked.both (endOfLink v "from" "source") (endOfLink v "to" "target")
    return .createLink a b
  | deleteLink id => (Checked.ofOption "path.link_id" (.str id) (wholeOfText? id)).map .deleteLink
  | generate => .ok .generate
where
  /-- The id of a node in a path. -/
  node (id : String) : Checked Int :=
    Checked.ofOption "path.node_id" (.str id) (wholeOfText? id)

/-! ## Answers -/

mutual

/-- A value as an answer gives it: doubles that are no numbers become null. -/
def presentable : Value → Value
  | .float f => if Binary64.isFinite f then .float f else .null
  | .nan _ => .null
  | .list items => .list (presentableItems items)
  | .obj fields => .obj (presentableFields fields)
  | v => v

/-- The items of a list as an answer gives them. -/
def presentableItems : List Value → List Value
  | [] => []
  | v :: rest => presentable v :: presentableItems rest

/-- The fields of an object as an answer gives them. -/
def presentableFields : List (String × Value) → List (String × Value)
  | [] => []
  | (name, v) :: rest => (name, presentable v) :: presentableFields rest

end

mutual

/-- Does a test hold for every text and every double in a value? -/
def allParts (text : String → Bool) (double : Float → Bool) : Value → Bool
  | .str s => text s
  | .float f => double f
  | .nan _ => double (0 / 0)
  | .list items => allItems text double items
  | .obj fields => allFields text double fields
  | _ => true

/-- Does a test hold for every text and every double in the items of a list? -/
def allItems (text : String → Bool) (double : Float → Bool) : List Value → Bool
  | [] => true
  | v :: rest => allParts text double v && allItems text double rest

/-- Does a test hold for every text and every double in the fields of an
object, and for their names? -/
def allFields (text : String → Bool) (double : Float → Bool) : List (String × Value) → Bool
  | [] => true
  | (name, v) :: rest => text name && allParts text double v && allFields text double rest

end

/-- How deep an object of an answer may go, itself and what lies in it included. -/
def answerDepth : Nat := 256

/-- Is the answer, or every object of a list of them, low enough to be written? -/
def isLow : Value → Bool
  | .list items => Value.depthOfItems 1 1 items ≤ answerDepth
  | v => v.depth 1 1 ≤ answerDepth

/-- How deep lists and objects may lie in each other in what an answer quotes from
a request that could not be read. -/
def quoteDepth : Nat := 953

/-- A value as an answer gives it, if it can be sent. -/
def present (v : Value) : Option Value :=
  if allParts Text.isWhole (fun _ => true) v && isLow v && v.isWritable then some (presentable v)
  else none

/-- The name of a field that a scalar becomes in an answer. -/
def fieldName : Scalar → String
  | .bool b => if b then "true" else "false"
  | .float f => if Binary64.isFinite f then (Scalar.float f).display else "None"
  | .nan _ => "None"
  | s => s.display

/-- The answer to a request that could not be read: where that is, if what stands
there can be written. -/
def unreadable (wrongs : List Wrong) : Response :=
  let isQuotable (v : Value) : Bool :=
    allParts Text.isWhole Binary64.isFinite v && v.height ≤ quoteDepth
  if wrongs.all fun w => isQuotable w.given then
    { status := 422, content := .invalid (wrongs.map Wrong.location) }
  else .broken []

/-- An answer that says what is wrong with a request. -/
def rejection (status : Nat) (detail : String) : Response :=
  .give present status (.obj [("detail", .str detail)]) []

/-- The answer to a body that is no value. -/
def noValue : BodyFault → Response
  | .malformed position => unreadable [⟨s!"body.{position}", .null⟩]
  | .unreadable => rejection 400 "There was an error parsing the body"

/-! ## Reading a request -/

/-- What an endpoint makes of a body. -/
def Endpoint.reading (body : ByteArray) (e : Endpoint) : Reading :=
  match if e.takesBody then readBody body else .ok .null with
  | .error fault => .answered (noValue fault)
  | .ok v =>
    match e.command v with
    | .error wrongs => .refused (unreadable wrongs)
    | .ok c => .command c

/-- The answer without what it holds, for a request for the head alone. -/
def Reading.head : Reading → Reading
  | answered r => answered { r with content := .empty }
  | reading => reading

/-- What is made of a request.  One that cannot be sent has no answer but failure. -/
def readRequest (r : Request) : Reading :=
  let method := Text.upper r.method
  let reading : Reading :=
    match Utf8.encode? r.body, r.methods? with
    | some _, some [] => .answered (rejection 404 "Not Found")
    | some body, some methods =>
      match Table.get? methods method with
      | none => .answered (rejection 405 "Method Not Allowed")
      | some .health => .health
      | some .page => .answered { status := 200, content := .empty }
      | some (.endpoint e) => e.reading body
    | _, _ => .answered (.broken [])
  if method = "HEAD" then reading.head else reading

/-- How requests come and answers go. -/
def web : Web where
  read := readRequest
  present := present
  spell := fieldName

end NodeWeave.Service
