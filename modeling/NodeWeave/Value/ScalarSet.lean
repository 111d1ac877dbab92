import NodeWeave.Value.Arithmetic

/-!
# Sets of scalars

A set of scalars is an open-addressing table: every scalar has a place of its
own by its hash, and when that is taken a fixed sequence of other places is
tried.  The places give the set an order, which shows when a message names the
first of several scalars.

The hash of a number is its residue modulo the prime `2 ^ 61 - 1`, with the sign
of the number, so that equal numbers of different kinds meet.
-/

namespace NodeWeave

namespace Scalar

/-- The modulus of the hash. -/
def hashModulus : Nat := 2305843009213693951

/-- The hash of a residue with a sign; -1 is not used. -/
def signedHash (neg : Bool) (residue : Nat) : Int :=
  let h : Int := if neg then -(residue : Int) else residue
  if h = -1 then -2 else h

/-- The hash of a scalar.  A power of two counts by its exponent modulo 61. -/
def hash : Scalar → Int
  | null => 0
  | bool b => if b then 1 else 0
  | int n => signedHash (n < 0) (n.natAbs % hashModulus)
  | float f =>
    match Binary64.decode f with
    | .nan => 0
    | .infinite neg => if neg then -314159 else 314159
    | .finite neg m q => signedHash neg (m * Nat.pow 2 (q % 61).toNat % hashModulus)
  | nan _ => 0
  | text _ => 0

/-- The hash as a word of 64 bits. -/
def hashWord (s : Scalar) : Nat :=
  (s.hash % (Nat.pow 2 64 : Nat)).toNat

end Scalar

/-- The places of a set: their number is a power of two. -/
abbrev ScalarSet := List (Option Scalar)

namespace ScalarSet

/-- A set without elements. -/
def empty : ScalarSet :=
  List.replicate 8 none

/-- The elements in the order of their places. -/
def toList (s : ScalarSet) : List Scalar :=
  s.filterMap id

/-- Is the scalar an element? -/
def contains (s : ScalarSet) (a : Scalar) : Bool :=
  s.toList.any (·.same a)

/-- The first free place among those tried from place `i` on: nine neighbours
when they are all there, and then places that depend on the rest of the hash. -/
def freePlace (s : ScalarSet) : Nat → Nat → Nat → Nat
  | 0, i, _ => i
  | fuel + 1, i, rest =>
    let tried := if i + 9 < s.length then (List.range 10).map (i + ·) else [i]
    match tried.find? fun j => (s.getD j none).isNone with
    | some j => j
    | none => freePlace s fuel ((i * 5 + 1 + rest / 32) % s.length) (rest / 32)

/-- Puts a scalar at its place. -/
def place (s : ScalarSet) (a : Scalar) : ScalarSet :=
  s.set (freePlace s (s.length + 16) (a.hashWord % s.length) a.hashWord) (some a)

/-- The set with more places, as many as four times the elements need. -/
def widen (s : ScalarSet) : ScalarSet :=
  let elements := s.toList
  let size := Nat.pow 2 (max 3 ((4 * elements.length).log2 + 1))
  elements.foldl place (List.replicate size none)

/-- Adds a scalar.  A set that is three fifths full gets more places. -/
def insert (s : ScalarSet) (a : Scalar) : ScalarSet :=
  if s.contains a then s
  else
    let s := s.place a
    if s.toList.length * 5 < (s.length - 1) * 3 then s else s.widen

/-- The set of the scalars of a list. -/
def ofList (xs : List Scalar) : ScalarSet :=
  xs.foldl insert empty

/-- The set of the items of a value, which all have to be scalars. -/
def ofValue (v : Value) : Except Fault ScalarSet := do
  return ofList (← (← v.items).mapM Value.name)

end ScalarSet

namespace Scalar

/-- The scalars from the least to the greatest.  Numbers have an order, and so
have texts; other scalars are in order only when they are alone. -/
def sort (xs : List Scalar) : Except Fault (List Scalar) :=
  let le (a b : Scalar) : Bool :=
    match a.toValue.le b.toValue with
    | .ok isLe => isLe
    | .error _ => false
  let isText : Scalar → Bool
    | text _ => true
    | _ => false
  let isNumber (a : Scalar) : Bool := a.toValue.isNumber
  if xs.length ≤ 1 || xs.all isText || xs.all isNumber then .ok (xs.mergeSort le)
  else .error .unsuitable

end Scalar

end NodeWeave
