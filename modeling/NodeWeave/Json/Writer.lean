import NodeWeave.Number.Shortest
import NodeWeave.Text.Point
import NodeWeave.Value

/-!
# Writing JSON text

Two layouts: `compact` on one line without blanks, with all characters as they
are, and `pretty` with one item per line, two blanks per level, and every
character outside ASCII escaped.
-/

namespace NodeWeave.Json

/-- Four hexadecimal digits. -/
def hex4 (n : Nat) : List Char :=
  let digits := Nat.toDigits 16 n
  List.replicate (4 - digits.length) '0' ++ digits

/-- The escape of a code point, as a surrogate pair when it needs more than four
digits. -/
def escapeCode (n : Nat) : List Char :=
  if n < 0x10000 then '\\' :: 'u' :: hex4 n
  else
    let m := n - 0x10000
    '\\' :: 'u' :: hex4 (0xd800 + m / 0x400) ++ '\\' :: 'u' :: hex4 (0xdc00 + m % 0x400)

/-- One code point of a string. -/
def writePoint (ascii : Bool) (n : Nat) : List Char :=
  match Char.ofNat n with
  | '"' => ['\\', '"']
  | '\\' => ['\\', '\\']
  | '\n' => ['\\', 'n']
  | '\r' => ['\\', 'r']
  | '\t' => ['\\', 't']
  | '\x08' => ['\\', 'b']
  | '\x0c' => ['\\', 'f']
  | _ => if n < 0x20 || (ascii && 0x7e < n) then escapeCode n else Text.pointChars n

/-- A string in quotes. -/
def writeString (ascii : Bool) (s : String) : String :=
  String.ofList ('"' :: ((Text.points s.toList).flatMap (writePoint ascii) ++ ['"']))

mutual

/-- The value on one line, without blanks. -/
def compact : Value → String
  | .null => "null"
  | .bool b => if b then "true" else "false"
  | .int n => toString n
  | .float f => Decimal.document.text f
  | .nan _ => Decimal.document.text (0 / 0)
  | .str s => writeString false s
  | .list items => "[" ++ ",".intercalate (compactItems items) ++ "]"
  | .obj fields => "\x7b" ++ ",".intercalate (compactFields fields) ++ "\x7d"

/-- The items of a list, each on one line. -/
def compactItems : List Value → List String
  | [] => []
  | v :: rest => compact v :: compactItems rest

/-- The fields of an object, each on one line. -/
def compactFields : List (String × Value) → List String
  | [] => []
  | (k, v) :: rest => (writeString false k ++ ":" ++ compact v) :: compactFields rest

end

/-- A line break with `depth` levels of indentation. -/
def breakLine (depth : Nat) : String :=
  "\n" ++ String.ofList (List.replicate (2 * depth) ' ')

/-- Parts between brackets, one per line; no parts, no lines. -/
def enclose (depth : Nat) (left right : String) (parts : List String) : String :=
  if parts.isEmpty then left ++ right
  else left ++ breakLine (depth + 1) ++ ("," ++ breakLine (depth + 1)).intercalate parts ++
    breakLine depth ++ right

mutual

/-- The value with one item per line, inside `depth` levels of indentation. -/
def prettyAt (depth : Nat) : Value → String
  | .null => "null"
  | .bool b => if b then "true" else "false"
  | .int n => toString n
  | .float f => Decimal.document.text f
  | .nan _ => Decimal.document.text (0 / 0)
  | .str s => writeString true s
  | .list items => enclose depth "[" "]" (prettyItems (depth + 1) items)
  | .obj fields => enclose depth "\x7b" "\x7d" (prettyFields (depth + 1) fields)

/-- The items of a list. -/
def prettyItems (depth : Nat) : List Value → List String
  | [] => []
  | v :: rest => prettyAt depth v :: prettyItems depth rest

/-- The fields of an object. -/
def prettyFields (depth : Nat) : List (String × Value) → List String
  | [] => []
  | (k, v) :: rest =>
    (writeString true k ++ ": " ++ prettyAt depth v) :: prettyFields depth rest

end

/-- The value with one item per line. -/
def pretty (v : Value) : String :=
  prettyAt 0 v

end NodeWeave.Json
