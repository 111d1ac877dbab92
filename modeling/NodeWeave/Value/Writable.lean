import NodeWeave.Number
import NodeWeave.Value

/-!
# Values that can be written

A whole number is written with all its digits, but only up to a number of them:
`Number.maxDigits` holds for writing as it does for reading.  Sums may lead
beyond it, so a value that was computed need not be writable.
-/

namespace NodeWeave

/-- The least whole number that has too many digits to be written. -/
def Number.writeBound : Nat := Nat.pow 10 maxDigits

/-- Can a whole number be written? -/
def Number.isWritable (n : Int) : Bool :=
  n.natAbs < writeBound

/-- Can the scalar be written? -/
def Scalar.isWritable : Scalar → Bool
  | .int n => Number.isWritable n
  | _ => true

namespace Value

mutual

/-- Can the value be written? -/
def isWritable : Value → Bool
  | .int n => Number.isWritable n
  | .list items => areWritable items
  | .obj fields => areWritableFields fields
  | _ => true

/-- Can all items of a list be written? -/
def areWritable : List Value → Bool
  | [] => true
  | v :: rest => isWritable v && areWritable rest

/-- Can all fields of an object be written? -/
def areWritableFields : List (String × Value) → Bool
  | [] => true
  | (_, v) :: rest => isWritable v && areWritableFields rest

end

end Value

/-- A number is writable together with its negative. -/
theorem Number.isWritable_neg (n : Int) : isWritable (-n) = isWritable n := by
  simp [isWritable]

/-- Whatever is nearer to zero than a writable number is writable. -/
theorem Number.isWritable_of_le {m n : Int} (h : m.natAbs ≤ n.natAbs) (hn : isWritable n) :
    isWritable m := by
  simp only [isWritable, decide_eq_true_eq] at *
  omega

/-- As a value, a scalar is writable in the same cases. -/
theorem Scalar.isWritable_toValue (s : Scalar) : s.toValue.isWritable = s.isWritable := by
  cases s <;> simp [Scalar.toValue, Scalar.isWritable, Value.isWritable]

end NodeWeave
