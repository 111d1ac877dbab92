import NodeWeave.Fault
import NodeWeave.Text.Point
import NodeWeave.Value.Equality

/-!
# Sums, differences and order of values

Positions and sizes are numbers as a rule, but nothing keeps a document from
giving other values for them.  Numbers are added and compared as numbers; texts
and lists are joined and compared item by item; for all other pairs of values an
operation has no meaning.
-/

namespace NodeWeave.Value

/-- An operation on two numbers, which may be out of range. -/
def onNumbers (op : Number → Number → Option Number) (v w : Value) : Except Fault Value :=
  match v.number?, w.number? with
  | some a, some b =>
    match op a b with
    | some c => .ok (ofNumber c)
    | none => .error .outOfRange
  | _, _ => .error .unsuitable

/-- The sum of two numbers; texts and lists are joined. -/
def add : Value → Value → Except Fault Value
  | str s, str t => .ok (str (s ++ t))
  | list xs, list ys => .ok (list (xs ++ ys))
  | v, w => onNumbers Number.add? v w

/-- The difference of two numbers. -/
def sub : Value → Value → Except Fault Value :=
  onNumbers Number.sub?

/-- The product of two numbers. -/
def mul : Value → Value → Except Fault Value :=
  onNumbers Number.mul?

mutual

/-- Is the first value at most the second? -/
def le : Value → Value → Except Fault Bool
  | str s, str t => .ok (Text.le s t)
  | list xs, list ys => leItems xs ys
  | bool b, w => leNumber (bool b) w
  | int n, w => leNumber (int n) w
  | float f, w => leNumber (float f) w
  | nan mark, w => leNumber (nan mark) w
  | _, _ => .error .unsuitable
where
  leNumber (v w : Value) : Except Fault Bool :=
    match v.number?, w.number? with
    | some a, some b => .ok (a.le b)
    | _, _ => .error .unsuitable

/-- The order of two lists is that of the first items that differ; a list comes
after its own beginnings. -/
def leItems : List Value → List Value → Except Fault Bool
  | [], _ => .ok true
  | _ :: _, [] => .ok false
  | x :: xs, y :: ys => if x.sameNan y || x.same y then leItems xs ys else x.le y

end

/-- The items of a value: those of a list, the code points of a text, the
field names of an object. -/
def items : Value → Except Fault (List Value)
  | list items => .ok items
  | str s => .ok ((Text.pieces s).map str)
  | obj fields => .ok (fields.map fun f => str f.1)
  | _ => .error .unsuitable

/-- The scalar that a value names something by.  Lists and objects cannot name
anything. -/
def name (v : Value) : Except Fault Scalar :=
  match v.scalar? with
  | none => .error .unsuitable
  | some s => .ok s

/-- The fields of an object, or of an absent one. -/
def fields : Value → Except Fault (List (String × Value))
  | obj fields => .ok fields
  | _ => .error .notObject

/-- Reads the items of a list as pairs of a key and a value. -/
def pairsFrom (i : Nat) (done : ScalarTable Value) :
    List Value → Except Fault (ScalarTable Value)
  | [] => .ok done
  | item :: rest => do
    match ← item.items with
    | [k, v] =>
      match k.scalar? with
      | some k => pairsFrom (i + 1) (done.put k v) rest
      | none => .error .unsuitable
    | parts => .error (.notPair i parts.length)

/-- The value as a table: an object, or anything whose items are pairs. -/
def pairs : Value → Except Fault (ScalarTable Value)
  | obj fields => .ok (fields.map fun (k, v) => (.text k, v))
  | v => do pairsFrom 0 [] (← v.items)

end NodeWeave.Value
