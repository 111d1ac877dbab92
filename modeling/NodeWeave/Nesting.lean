import NodeWeave.Bounds
import NodeWeave.Graph.Basic

/-!
# Limits of nesting

Values may hold lists and objects in each other, and what is done with a value
goes down into it step by step.  There is room for a number of steps only, and
less of it where an operation is itself reached through many others.
-/

namespace NodeWeave

/-- How deep values may go where they are used. -/
structure Nesting where
  /-- For the first value of a slot, which is copied into each new node; lists
  and objects count twice, and what lies in them once. -/
  copy : Nat
  /-- For what a program is made of, from node to node and into their values. -/
  text : Nat
  /-- For a value that is shown in a line of the log. -/
  line : Nat
  deriving DecidableEq

namespace Nesting

/-- The limits for a caller of the library itself, such as the command line. -/
def direct : Nesting := { copy := 990, text := 984, line := 990 }

/-- The limits behind the service. -/
def served : Nesting := { copy := 955, text := 949, line := 955 }

/-- The bounds of the text of a program. -/
def ofText (limit : Nesting) : Bounds :=
  { depth := some limit.text, digits := true }

/-- The bounds of a line of the log. -/
def ofLine (limit : Nesting) : Bounds :=
  { depth := some limit.line, digits := true }

/-- Can the value be copied? -/
def copies (limit : Nesting) (v : Value) : Bool :=
  v.depth 2 1 ≤ limit.copy

/-- Can a node of this type get its first value? -/
def builds (limit : Nesting) (c : Catalog) (n : Node) : Bool :=
  match (c.find? n.category n.type).bind NodeType.slot with
  | some slot => limit.copies slot.default
  | none => true

end Nesting

end NodeWeave
