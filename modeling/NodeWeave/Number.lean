import NodeWeave.Number.Binary64

/-!
# Whole numbers and doubles together

Coordinates and node values may be whole numbers of any size or doubles.
Arithmetic on whole numbers is exact.  As soon as a double takes part, the other
operand becomes a double too, which fails for a whole number beyond the largest
double.  Comparison never converts: it is exact for any two numbers.
-/

namespace NodeWeave

/-- A whole number of any size, or a double. -/
inductive Number where
  | int (n : Int)
  | real (f : Float)
  deriving DecidableEq

namespace Number

open Binary64

/-- The most digits with which a whole number is read or written. -/
def maxDigits : Nat := 4300

/-- The number as a double, if it is not too large for one. -/
def toFloat? : Number → Option Float
  | int n => ofInt? n
  | real f => some f

/-- An operation given for whole numbers and for doubles, on any two numbers.
There is no result when a whole number is too large to become a double. -/
def combine (onInt : Int → Int → Int) (onReal : Float → Float → Float) :
    Number → Number → Option Number
  | int m, int n => some (int (onInt m n))
  | a, b => do
    let f ← a.toFloat?
    let g ← b.toFloat?
    return real (onReal f g)

/-- The sum of two numbers. -/
def add? : Number → Number → Option Number :=
  combine (· + ·) (· + ·)

/-- The difference of two numbers. -/
def sub? : Number → Number → Option Number :=
  combine (· - ·) (· - ·)

/-- The product of two numbers. -/
def mul? : Number → Number → Option Number :=
  combine (· * ·) (· * ·)

/-- The number one above. -/
def next : Number → Number
  | int n => int (n + 1)
  | real f => real (f + 1)

/-- The least whole number that is not below; infinity and NaN have none. -/
def ceil? : Number → Option Int
  | int n => some n
  | real f => Binary64.ceil? f

/-- The order of a whole number and a double, or none when the double is NaN. -/
def compareIntReal (n : Int) (f : Float) : Option Ordering :=
  match decode f with
  | .nan => none
  | .infinite neg => some (if neg then .gt else .lt)
  | .finite neg m q =>
    let size : Int := if neg then -(m : Int) else m
    if 0 ≤ q then some (compare n (size * Nat.pow 2 q.toNat))
    else some (compare (n * Nat.pow 2 (-q).toNat) size)

/-- The order of two numbers, or none when one of them is NaN. -/
def compare? : Number → Number → Option Ordering
  | int m, int n => some (compare m n)
  | int n, real f => compareIntReal n f
  | real f, int n => (compareIntReal n f).map Ordering.swap
  | real f, real g =>
    if f < g then some .lt else if f == g then some .eq else if g < f then some .gt else none

/-- Is the first number at most the second? -/
def le (a b : Number) : Bool :=
  match a.compare? b with
  | some .lt => true
  | some .eq => true
  | _ => false

/-- Are the two numbers equal? -/
def eq (a b : Number) : Bool :=
  match a.compare? b with
  | some .eq => true
  | _ => false

end Number

end NodeWeave
