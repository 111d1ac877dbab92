/-!
# Double precision numbers as exact fractions

A finite double is `± m · 2 ^ q` with whole `m` and `q`.  `decode` reads these
parts from the bits, and `nearest` goes the other way: it takes any fraction to
the double next to it, a half going to the even neighbour.  Everything here is
whole-number arithmetic, so no rounding is hidden in it.
-/

namespace NodeWeave.Binary64

/-- What the bits of a double say. -/
inductive Parts where
  | nan
  | infinite (neg : Bool)
  | finite (neg : Bool) (m : Nat) (q : Int)
  deriving DecidableEq

/-- The parts of a double; a finite one is `± m · 2 ^ q`. -/
def decode (f : Float) : Parts :=
  let bits := f.toBits.toNat
  let neg := bits / Nat.pow 2 63 == 1
  let e : Nat := bits / Nat.pow 2 52 % 2048
  let frac : Nat := bits % Nat.pow 2 52
  if e = 2047 then
    if frac = 0 then .infinite neg else .nan
  else if e = 0 then .finite neg frac (-1074)
  else .finite neg (frac + Nat.pow 2 52) ((e : Int) - 1075)

/-- The quotient of two whole numbers, rounded to the nearest one; a half goes
to the even neighbour. -/
def roundDiv (num den : Nat) : Nat :=
  let low := num / den
  let twice := 2 * (num % den)
  if twice < den then low
  else if den < twice then low + 1
  else if low % 2 = 0 then low else low + 1

/-- The exponent `e` with `2 ^ e ≤ num / den < 2 ^ (e + 1)`, for positive
numbers. -/
def floorLog2 (num den : Nat) : Int :=
  let e : Int := (num.log2 : Int) - (den.log2 : Int)
  let fits := if 0 ≤ e then den * Nat.pow 2 e.toNat ≤ num else den ≤ num * Nat.pow 2 (-e).toNat
  if fits then e else e - 1

/-- The bits of the double nearest to `num / den`, without its sign. -/
def nearestBits (num den : Nat) : Nat :=
  if num = 0 then 0
  else
    let q := max (floorLog2 num den - 52) (-1074)
    let m := if 0 ≤ q then roundDiv num (den * Nat.pow 2 q.toNat)
      else roundDiv (num * Nat.pow 2 (-q).toNat) den
    let bits := if m < Nat.pow 2 52 then m else (q + 1074).toNat * Nat.pow 2 52 + m
    min bits (2047 * Nat.pow 2 52)

/-- The double nearest to `± num / den`; beyond the largest one lies infinity. -/
def nearest (neg : Bool) (num den : Nat) : Float :=
  let bits := nearestBits num den
  Float.ofBits (UInt64.ofNat (if neg then bits + Nat.pow 2 63 else bits))

/-- Is the double neither infinite nor NaN? -/
def isFinite (f : Float) : Bool :=
  match decode f with
  | .finite .. => true
  | _ => false

/-- The double nearest to a whole number, if one is near enough. -/
def ofInt? (n : Int) : Option Float :=
  let f := nearest (n < 0) n.natAbs 1
  if isFinite f then some f else none

/-- `± m · 2 ^ q` without its fraction part. -/
def truncParts (neg : Bool) (m : Nat) (q : Int) : Int :=
  let size : Nat := if 0 ≤ q then m * Nat.pow 2 q.toNat else m / Nat.pow 2 (-q).toNat
  if neg then -(size : Int) else size

/-- The whole number that is left when the fraction part of a finite double is
cut off. -/
def trunc? (f : Float) : Option Int :=
  match decode f with
  | .finite neg m q => some (truncParts neg m q)
  | _ => none

/-- The whole number that a double is, if it is one. -/
def whole? (f : Float) : Option Int :=
  match decode f with
  | .finite neg m q =>
    if 0 ≤ q || m % Nat.pow 2 (-q).toNat = 0 then some (truncParts neg m q) else none
  | _ => none

/-- The least whole number that is not below a finite double. -/
def ceil? (f : Float) : Option Int :=
  match decode f with
  | .finite neg m q =>
    let low := truncParts neg m q
    some (if neg || (whole? f).isSome then low else low + 1)
  | _ => none

end NodeWeave.Binary64
