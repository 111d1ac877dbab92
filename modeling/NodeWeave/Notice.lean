import NodeWeave.Document.Entry
import NodeWeave.Graph.Wiring

/-!
# Notices

Operations that mend or skip something say so.  A notice is the cause with all
that its wording needs; `Outcome` is what an operation leaves behind: the state
it reached, the notices on the way, and a result or a fault.
-/

namespace NodeWeave

/-- The two kinds of entries of a document. -/
inductive EntryKind where
  | node
  | connection
  deriving DecidableEq

/-- The word for a kind of entries. -/
def EntryKind.name : EntryKind → String
  | node => "node"
  | connection => "connection"

/-- Why an entry of a document was left out. -/
inductive SkipReason where
  | malformed (problems : List Document.EntryProblem)
  | duplicateNode
  | refused (fault : Fault)
  | missingNode (id : Scalar)
  | missingPort
  | sameSide (side : Side)
  | duplicateLink

/-- What stops the wording of a reason: an id with too many digits. -/
def SkipReason.fault? : SkipReason → Option Fault
  | missingNode id => if id.isWritable then none else some .unwritable
  | _ => none

theorem SkipReason.eq_unwritable {reason : SkipReason} {fault : Fault}
    (h : reason.fault? = some fault) : fault = .unwritable := by
  unfold SkipReason.fault? at h
  split at h
  · split at h
    · cases h
    · cases h
      rfl
  · cases h

/-- The wording of a reason. -/
def SkipReason.text : SkipReason → String
  | malformed problems => "; ".intercalate (problems.map Document.EntryProblem.message)
  | duplicateNode => "duplicate node id"
  | refused fault => fault.message
  | missingNode id => s!"missing node {id.display}"
  | missingPort => "missing port index"
  | sameSide side => s!"both endpoints are {side.name} ports"
  | duplicateLink => "duplicate connection id"

/-- Something an operation has to report. -/
inductive Notice where
  /-- An entry of a document was left out; the id is what the entry gave. -/
  | skipped (kind : EntryKind) (index : Nat) (id : Value) (reason : SkipReason)
  /-- A document has a value for a node without a slot. -/
  | valueIgnored (id : Scalar) (category : Scalar) (type : String)
  /-- A value that does not suit the slot was stored. -/
  | unexpectedValue (id : Scalar) (slot : SlotType) (given : String)
  /-- Links that broke a rule were removed. -/
  | linksRemoved (ids : List Scalar)
  /-- The type of a node is no longer in the catalog. -/
  | typeGone (id : Scalar) (category : Scalar) (type : String)
  /-- A catalog file could not be used. -/
  | catalogUnreadable (path : String) (fault : Fault)

namespace Notice

/-- Ids in brackets. -/
def idList (ids : List Scalar) : String :=
  "[" ++ ", ".intercalate (ids.map fun id => id.toValue.display) ++ "]"

/-- How grave a notice is. -/
def level : Notice → String
  | catalogUnreadable .. => "ERROR"
  | _ => "WARNING"

/-- The wording of a notice. -/
def text : Notice → String
  | skipped kind index id reason =>
    s!"Failed to create {kind.name} #{index} (id=" ++ id.display ++ "): " ++ reason.text
  | valueIgnored id category type =>
    s!"Node {id.display} ({category.display}/{type}) has no value slot; ignoring stored value"
  | unexpectedValue id slot given => s!"Node {id.display} value expected {slot.name}, got {given}"
  | linksRemoved ids => s!"Removed {ids.length} invalid connection(s): " ++ idList ids
  | typeGone id category type =>
    s!"Node {id.display}: definition {category.display}/{type} no longer in registry"
  | catalogUnreadable path fault =>
    s!"Could not load node registry {path}: " ++ fault.message

/-- The notice of a line of a log. -/
def line (n : Notice) : String :=
  n.level ++ " " ++ n.text

/-- What is to be said about removed links. -/
def ofRemoved (links : List Link) : List Notice :=
  if links.isEmpty then [] else [.linksRemoved (links.map Link.id)]

/-- What is to be said about storing a value in a node. -/
def ofStored (n : Node) (v : Value) : List Notice :=
  match n.slot with
  | some t => if t.accepts v then [] else [.unexpectedValue n.id t v.kindName]
  | none => []

end Notice

/-- What an operation leaves behind: the state it reached, what it had to report
on the way, and its result. -/
structure Outcome (σ α : Type) where
  state : σ
  notices : List Notice
  result : Except Fault α

end NodeWeave
