import NodeWeave.Value

/-!
# How deep values go

The depth of a value is the length of the longest way into it.  What counts as a
step differs from one use to the next, so two weights are given: one for each
list or object on the way, and one for the plain value at its end.
-/

namespace NodeWeave.Value

mutual

/-- The longest way into a value, where a list or an object counts `outer` and a
plain value `inner`. -/
def depth (outer inner : Nat) : Value → Nat
  | .list items => outer + depthOfItems outer inner items
  | .obj fields => outer + depthOfFields outer inner fields
  | _ => inner

/-- The longest way into the items of a list. -/
def depthOfItems (outer inner : Nat) : List Value → Nat
  | [] => 0
  | v :: rest => max (depth outer inner v) (depthOfItems outer inner rest)

/-- The longest way into the fields of an object. -/
def depthOfFields (outer inner : Nat) : List (String × Value) → Nat
  | [] => 0
  | (_, v) :: rest => max (depth outer inner v) (depthOfFields outer inner rest)

end

/-- How many lists and objects lie in each other. -/
def height (v : Value) : Nat :=
  v.depth 1 0

end NodeWeave.Value
