import NodeWeave.Number.Binary64

/-!
# The fewest digits that read back

Of all decimals with the fewest digits that read back as a given double,
`shortest` picks the one nearest to it.  For one digit, two digits, and so on
up to seventeen, the two neighbours of the value among the decimals of that
length are tried; seventeen digits always suffice.

`Style` holds the choices of a written form: where positional notation ends
and how the numbers that are no decimals are spelled.
-/

namespace NodeWeave.Decimal

open Binary64

/-- The decimal `digits · 10 ^ (point - length of digits)`, that is, with the
point after `point` digits. -/
structure Digits where
  digits : List Char
  point : Int

/-- `num / den` times `10 ^ e` as a fraction. -/
def scale (num den : Nat) (e : Int) : Nat × Nat :=
  if 0 ≤ e then (num * Nat.pow 10 e.toNat, den) else (num, den * Nat.pow 10 (-e).toNat)

/-- The number of digits before the point of `num / den ≥ 1`, and in general
the exponent `p` with `10 ^ (p - 1) ≤ num / den < 10 ^ p`.  The logarithm to
base two gives a guess that is at most two too small. -/
def pointOf (num den : Nat) : Int :=
  let guess : Int := (floorLog2 num den * 30103).fdiv 100000
  let reaches (p : Int) : Bool :=
    let (n, d) := scale num den (-p)
    n < d
  if reaches guess then guess
  else if reaches (guess + 1) then guess + 1
  else guess + 2

/-- The decimals of `k` digits below and above `num / den`, the nearer first;
of two equally near ones, the even one. -/
def neighbours (num den : Nat) (point : Int) (k : Nat) : List Nat :=
  let (n, d) := scale num den (k - point)
  let low := n / d
  let rest := n % d
  if rest = 0 then [low]
  else if 2 * rest < d || (2 * rest == d && low % 2 == 0) then [low, low + 1]
  else [low + 1, low]

/-- Does the decimal `c · 10 ^ (point - k)` read back as the double with these
bits? -/
def readsBack (bits : Nat) (point : Int) (k c : Nat) : Bool :=
  let (n, d) := scale c 1 (point - k)
  nearestBits n d == bits

/-- Tries `k`, `k + 1`, … digits, `fuel` times at most. -/
def shortestFrom (num den bits : Nat) (point : Int) : Nat → Nat → Nat × Nat
  | 0, k => (num, k)
  | fuel + 1, k =>
    match (neighbours num den point k).find? (readsBack bits point k) with
    | some c => (c, k)
    | none => shortestFrom num den bits point fuel (k + 1)

/-- Cuts the zeros at the end of a list of digits. -/
def trimZeros (digits : List Char) : List Char :=
  (digits.reverse.dropWhile (· == '0')).reverse

/-- The shortest digits of the positive double `m · 2 ^ q`. -/
def shortest (m : Nat) (q : Int) : Digits :=
  let (num, den) := if 0 ≤ q then (m * Nat.pow 2 q.toNat, 1) else (m, Nat.pow 2 (-q).toNat)
  let point := pointOf num den
  let (c, k) := shortestFrom num den (nearestBits num den) point 17 1
  let digits := Nat.toDigits 10 c
  { digits := trimZeros digits, point := point + digits.length - k }

/-- The choices of a written form of numbers. -/
structure Style where
  /-- Decimals with a smaller power of ten than this have an exponent. -/
  positionalFrom : Int
  /-- Decimals with at least this power of ten have an exponent. -/
  positionalBelow : Int
  nan : String
  infinity : String

/-- A power of ten with its sign and at least two digits. -/
def exponentText (e : Int) : String :=
  let digits := toString e.natAbs
  (if e < 0 then "e-" else "e+") ++ (if digits.length < 2 then "0" ++ digits else digits)

/-- The text of a positive decimal: positional with at least one digit after
the point, or with an exponent and no needless point. -/
def Style.positive (n : Style) (d : Digits) : String :=
  let e := d.point - 1
  let count : Int := d.digits.length
  if n.positionalFrom ≤ e && e < n.positionalBelow then
    if d.point ≤ 0 then
      "0." ++ String.ofList (List.replicate (-d.point).toNat '0' ++ d.digits)
    else if count ≤ d.point then
      String.ofList (d.digits ++ List.replicate (d.point - count).toNat '0') ++ ".0"
    else
      String.ofList (d.digits.take d.point.toNat) ++ "." ++
        String.ofList (d.digits.drop d.point.toNat)
  else
    let tail := d.digits.drop 1
    String.ofList (d.digits.take 1) ++ (if tail.isEmpty then "" else "." ++ String.ofList tail) ++
      exponentText e

/-- The text of a double. -/
def Style.text (n : Style) (f : Float) : String :=
  match decode f with
  | .nan => n.nan
  | .infinite neg => if neg then "-" ++ n.infinity else n.infinity
  | .finite neg m q =>
    (if neg then "-" else "") ++ (if m = 0 then "0.0" else n.positive (shortest m q))

/-- Numbers in messages: positional from `10 ^ -4` up to `10 ^ 16`. -/
def plain : Style := ⟨-4, 16, "nan", "inf"⟩

/-- Numbers in documents: the same digits, other words for what is no decimal. -/
def document : Style := ⟨-4, 16, "NaN", "Infinity"⟩

/-- The double nearest to `± digits · 10 ^ e`.  Far outside the range of doubles
the power of ten is not worked out. -/
def read (neg : Bool) (digits : Nat) (e : Int) : Float :=
  let size : Int := (Nat.toDigits 10 digits).length + e
  if digits = 0 || size < -400 then nearest neg 0 1
  else if 400 < size then nearest neg (Nat.pow 2 2000) 1
  else
    let (n, d) := scale digits 1 e
    nearest neg n d

end NodeWeave.Decimal
