import NodeWeave.Fault
import NodeWeave.Text.Digit
import NodeWeave.Value.Equality

/-!
# Whole numbers from values

A whole number may be given as such, as a truth value, as a double, whose
fraction part is cut off, or as a text.  A text may have blanks around it, a
sign, and single underscores between its digits, which may be the digits of any
script.
-/

namespace NodeWeave.Integer

/-- The value of digits with single underscores between them.  `needDigit` holds
at the start and after an underscore. -/
def digits? (needDigit : Bool) (n : Nat) : List Char → Option Nat
  | [] => if needDigit then none else some n
  | '_' :: rest => if needDigit then none else digits? true n rest
  | c :: rest =>
    match Text.digitValue? c with
    | some d => digits? false (10 * n + d) rest
    | none => none

/-- The sign of a number and the text after it. -/
def splitSign : List Char → Bool × List Char
  | '-' :: rest => (true, rest)
  | '+' :: rest => (false, rest)
  | cs => (false, cs)

/-- Can the character stand in a row of digits? -/
def isDigitOrUnderscore (c : Char) : Bool :=
  c == '_' || (Text.digitValue? c).isSome

/-- The whole number that a text spells.  A row of more digits than are read is
found out before anything that stands behind it. -/
def ofText (s : String) : Except Fault Int :=
  let (neg, cs) := splitSign (Text.trim Text.isSpace s.toList)
  let row := cs.takeWhile isDigitOrUnderscore
  let count := (row.filter (· != '_')).length
  match digits? true 0 row with
  | none => .error (.notWholeNumber s)
  | some n =>
    if Number.maxDigits < count then .error (.tooManyDigits count)
    else if row.length < cs.length then .error (.notWholeNumber s)
    else .ok (if neg then -(n : Int) else n)

/-- The whole number that a value stands for. -/
def ofValue : Value → Except Fault Int
  | .bool b => .ok (if b then 1 else 0)
  | .int n => .ok n
  | .float f =>
    match Binary64.decode f with
    | .nan => .error .nanToWhole
    | .infinite _ => .error .outOfRange
    | .finite neg m q => .ok (Binary64.truncParts neg m q)
  | .nan _ => .error .nanToWhole
  | .str s => ofText s
  | _ => .error .unsuitable

end NodeWeave.Integer
