import NodeWeave.Table

/-!
# Document values

Catalogs, graph documents and node values arrive as trees of plain data.  A
whole number and a number with a fraction part are different values even when
they are equal as numbers, and the fields of an object keep their order.  A NaN
that was read has a mark, by which it can be told from others.

* `Value.truthy` says which values count as given: null, false, zero and
  everything empty do not.
* `Value.same` is equality of contents: numbers are compared as numbers, truth
  values count as 0 and 1, and objects are compared without regard to order.
* `Scalar` is a value that can serve as a key of a table, and `Scalar.key` is
  the normal form under which equal scalars meet.
-/

namespace NodeWeave

/-- A tree of plain data. -/
inductive Value where
  | null
  | bool (b : Bool)
  | int (n : Int)
  | float (f : Float)
  /-- A double that is no number, and which one of those. -/
  | nan (mark : Nat)
  | str (s : String)
  | list (items : List Value)
  | obj (fields : List (String × Value))
  deriving Inhabited

/-- A value without parts. -/
inductive Scalar where
  | null
  | bool (b : Bool)
  | int (n : Int)
  | float (f : Float)
  | nan (mark : Nat)
  | text (s : String)
  deriving Inhabited, DecidableEq

namespace Scalar

/-- The scalar as a value. -/
def toValue : Scalar → Value
  | null => .null
  | bool b => .bool b
  | int n => .int n
  | float f => .float f
  | nan mark => .nan mark
  | text s => .str s

end Scalar

namespace Value

/-- The scalar that a value without parts is; lists and objects are none. -/
def scalar? : Value → Option Scalar
  | null => some .null
  | bool b => some (.bool b)
  | int n => some (.int n)
  | float f => some (.float f)
  | nan mark => some (.nan mark)
  | str s => some (.text s)
  | list _ => none
  | obj _ => none

theorem scalar?_toValue (s : Scalar) : s.toValue.scalar? = some s := by
  cases s <;> rfl

/-- Does the value count as given?  Null, false, zero and everything empty do
not. -/
def truthy : Value → Bool
  | null => false
  | bool b => b
  | int n => n != 0
  | float f => !(f == 0)
  | nan _ => true
  | str s => !s.isEmpty
  | list items => !items.isEmpty
  | obj fields => !fields.isEmpty

/-- The first of two values, unless it does not count as given. -/
def orElse (v w : Value) : Value :=
  if v.truthy then v else w

/-- Is the value null? -/
def isNull : Value → Bool
  | null => true
  | _ => false

/-- The field of an object; other values have no fields. -/
def field? : Value → String → Option Value
  | obj fields, name => Table.get? fields name
  | _, _ => none

/-- The field of an object, or null when it is missing. -/
def field (v : Value) (name : String) : Value :=
  (v.field? name).getD null

/-- Does the object have the field? -/
def hasField (v : Value) (name : String) : Bool :=
  (v.field? name).isSome

/-- The word for the kind of a value, as reports name it. -/
def kindName : Value → String
  | null => "NoneType"
  | bool _ => "bool"
  | int _ => "int"
  | float _ => "float"
  | nan _ => "float"
  | str _ => "str"
  | list _ => "list"
  | obj _ => "dict"

/-- A whole number that is not a truth value. -/
def isInt : Value → Bool
  | int _ => true
  | _ => false

/-- A number; truth values count as numbers. -/
def isNumber : Value → Bool
  | bool _ => true
  | int _ => true
  | float _ => true
  | nan _ => true
  | _ => false

/-- Is the value a text? -/
def isStr : Value → Bool
  | str _ => true
  | _ => false

/-- Is the value an object? -/
def isObj : Value → Bool
  | obj _ => true
  | _ => false

/-- The value of an optional text. -/
def ofText? : Option String → Value
  | none => null
  | some s => str s

end Value

end NodeWeave
