import NodeWeave.Number.Shortest
import NodeWeave.Port
import NodeWeave.Value.Equality

/-!
# Reading the fields of requests

Requests are read leniently: a whole number may come as a double without a
fraction part or as a text, and any number may come as a text.  What cannot be
read is reported by its location, a path of names with dots, and all wrong
locations of a request are reported together in the order of the fields.
-/

namespace NodeWeave.Service

/-- A part of a request that cannot be read. -/
structure Wrong where
  location : String
  /-- What the request has there; for a missing field, the object without it. -/
  given : Value

/-- What was read, or what is wrong. -/
abbrev Checked := Except (List Wrong)

namespace Checked

/-- Joins two readings; when both fail all locations are kept. -/
def both {α β : Type} (a : Checked α) (b : Checked β) : Checked (α × β) :=
  match a, b with
  | .ok x, .ok y => .ok (x, y)
  | .error p, .ok _ => .error p
  | .ok _, .error q => .error q
  | .error p, .error q => .error (p ++ q)

/-- A reading that may fail at one location. -/
def ofOption {α : Type} (location : String) (given : Value) : Option α → Checked α
  | some x => .ok x
  | none => .error [⟨location, given⟩]

end Checked

/-- Is the character a decimal digit? -/
def isDigit (c : Char) : Bool :=
  '0' ≤ c && c ≤ '9'

/-- Are there two underscores in a row? -/
def hasDoubleUnderscore : List Char → Bool
  | '_' :: '_' :: _ => true
  | _ :: rest => hasDoubleUnderscore rest
  | [] => false

/-- Removes the underscores, if there are some: none may stand at an end or
beside another. -/
def dropUnderscores? (cs : List Char) : Option (List Char) :=
  if !cs.contains '_' || cs.head? == some '_' || cs.getLast? == some '_' ||
      hasDoubleUnderscore cs then none
  else some (cs.filter (· != '_'))

/-- The value of a row of digits. -/
def digitsValue (cs : List Char) : Nat :=
  cs.foldl (fun n c => 10 * n + (c.toNat - '0'.toNat)) 0

/-- The whole number that a text spells in the way of JSON. -/
def plainWhole? (cs : List Char) : Option Int :=
  let (neg, ds) := match cs with
    | '-' :: rest => (true, rest)
    | _ => (false, cs)
  if ds.isEmpty || !ds.all isDigit || (ds.head? == some '0' && ds != ['0']) ||
      Number.maxDigits < ds.length then none
  else
    let n : Int := digitsValue ds
    some (if neg then -n else n)

/-- The part of a number after zeros and underscores that follow a zero;
`previous` is the character before. -/
def skipZeros (previous : Char) : List Char → Option (List Char)
  | [] => some [previous]
  | c :: rest =>
    if c = '0' || c = '_' then skipZeros c rest
    else if isDigit c || c = '-' then some (c :: rest)
    else if c = '.' then some (previous :: c :: rest)
    else none

/-- A number without the zeros in front. -/
def dropZeros? (cs : List Char) : Option (List Char) :=
  match cs with
  | '0' :: rest => skipZeros '0' rest
  | c :: _ => if isDigit c || c = '-' then some cs else none
  | [] => none

/-- A number without a fraction part of zeros. -/
def dropFraction (cs : List Char) : List Char :=
  let whole := cs.takeWhile (· != '.')
  match cs.drop whole.length with
  | _ :: zeros => if !zeros.isEmpty && zeros.all (· == '0') then whole else cs
  | [] => cs

/-- The plain spelling of a whole number after its sign: without zeros in front,
a fraction part of zeros, and underscores. -/
def cleanDigits? (cs : List Char) : Option (List Char) := do
  let cs := dropFraction (← dropZeros? cs)
  return (dropUnderscores? cs).getD cs

/-- The plain spelling of a whole number, without blanks and a plus sign too. -/
def cleanWhole? (cs : List Char) : Option (List Char) :=
  match Text.trim Text.isSpace cs with
  | '+' :: '-' :: _ => none
  | '+' :: rest => cleanDigits? rest
  | '-' :: rest => (cleanDigits? rest).map ('-' :: ·)
  | cs => cleanDigits? cs

/-- The whole number that a text spells. -/
def wholeOfText? (s : String) : Option Int :=
  match plainWhole? s.toList with
  | some n => some n
  | none => (cleanWhole? s.toList).bind plainWhole?

/-- The whole number that a value stands for. -/
def whole? : Value → Option Int
  | .int n => some n
  | .bool b => some (if b then 1 else 0)
  | .float f => (Binary64.whole? f).filter fun n => n.natAbs < Nat.pow 2 63
  | .str s => wholeOfText? s
  | _ => none

/-- The double with a word for a name. -/
def namedDouble? (neg : Bool) (word : String) : Option Float :=
  if word = "inf" || word = "infinity" then some (if neg then -1 / 0 else 1 / 0)
  else if word = "nan" then some (0 / 0)
  else none

/-- The exponent after the digits of a double. -/
def exponent? : List Char → Option Int
  | [] => some 0
  | c :: rest =>
    if c = 'e' || c = 'E' then
      let (neg, ds) := Integer.splitSign rest
      if ds.isEmpty || !ds.all isDigit then none
      else some (if neg then -(digitsValue ds : Int) else digitsValue ds)
    else none

/-- The double that a text without blanks and underscores spells. -/
def plainDouble? (cs : List Char) : Option Float :=
  let (neg, cs) := Integer.splitSign cs
  match namedDouble? neg (String.ofList (cs.map Char.toLower)) with
  | some f => some f
  | none => do
    let ds := cs.takeWhile isDigit
    let after := cs.drop ds.length
    let (fs, rest) := match after with
      | '.' :: tail => (tail.takeWhile isDigit, tail.dropWhile isDigit)
      | _ => ([], after)
    guard !(ds ++ fs).isEmpty
    let e ← exponent? rest
    return Decimal.read neg (digitsValue (ds ++ fs)) (e - fs.length)

/-- The double that a text spells, with blanks around it or with underscores in
it, but not with both. -/
def doubleOfText? (s : String) : Option Float :=
  match plainDouble? (Text.trim Text.isSpace s.toList) with
  | some f => some f
  | none => (dropUnderscores? s.toList).bind plainDouble?

/-- The double that a value stands for. -/
def double? : Value → Option Float
  | .float f => some f
  | .nan _ => some (0 / 0)
  | .int n => Binary64.ofInt? n
  | .bool b => some (if b then 1 else 0)
  | .str s => doubleOfText? s
  | _ => none

/-- The text that a value is. -/
def text? : Value → Option String
  | .str s => some s
  | _ => none

/-- Reads a field that has to be there. -/
def required {α : Type} (read? : Value → Option α) (location name : String) (v : Value) :
    Checked α :=
  Checked.ofOption (location ++ "." ++ name) ((v.field? name).getD v) ((v.field? name).bind read?)

/-- Reads a coordinate: a double, or the whole number 0 when it is missing. -/
def coordinate (location name : String) (v : Value) : Checked Value :=
  match v.field? name with
  | none => .ok (.int 0)
  | some w => Checked.ofOption (location ++ "." ++ name) w ((double? w).map Value.float)

/-- Reads the reference of a port. -/
def portRef (location : String) (v : Value) : Checked PortRef := do
  match v with
  | .obj _ =>
    let ((node, index), side) ← Checked.both
      (Checked.both (required whole? location "nodeId" v) (required whole? location "portIndex" v))
      (required (fun w => (Side.ofValue w).toOption) location "portType" v)
    return { node := .int node, side, index }
  | _ => .error [⟨location, v⟩]

end NodeWeave.Service
