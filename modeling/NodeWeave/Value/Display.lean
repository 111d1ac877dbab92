import NodeWeave.Number.Shortest
import NodeWeave.Text.Point
import NodeWeave.Text.Printable
import NodeWeave.Value

/-!
# Values in messages

A message shows a value in a readable notation: texts in quotes, lists in
brackets, objects in braces, the words `None`, `True` and `False`.  `display`
quotes a text, `text` shows a text as it is and any other value as `display`
does.
-/

namespace NodeWeave

namespace Text

/-- A code point as hexadecimal digits, padded with zeros to a width. -/
def hexPadded (width n : Nat) : List Char :=
  let digits := Nat.toDigits 16 n
  List.replicate (width - digits.length) '0' ++ digits

/-- The escape of a code point that is not printable, by its size. -/
def escapePoint (n : Nat) : List Char :=
  if n < 0x100 then '\\' :: 'x' :: hexPadded 2 n
  else if n < 0x10000 then '\\' :: 'u' :: hexPadded 4 n
  else '\\' :: 'U' :: hexPadded 8 n

/-- One code point of a quoted text. -/
def quotePoint (quote : Char) (n : Nat) : List Char :=
  let c := Char.ofNat n
  if c = quote || c = '\\' then ['\\', c]
  else if c = '\n' then ['\\', 'n']
  else if c = '\r' then ['\\', 'r']
  else if c = '\t' then ['\\', 't']
  else if isPrintable c then [c]
  else escapePoint n

/-- The text in single quotes, or in double quotes when it holds a single quote
and no double one. -/
def quoted (s : String) : String :=
  let cs := s.toList
  let quote := if cs.contains '\'' && !cs.contains '"' then '"' else '\''
  String.ofList (quote :: ((points cs).flatMap (quotePoint quote) ++ [quote]))

end Text

namespace Value

mutual

/-- The value as a message shows it. -/
def display : Value → String
  | null => "None"
  | bool b => if b then "True" else "False"
  | int n => toString n
  | float f => Decimal.plain.text f
  | nan _ => Decimal.plain.text (0 / 0)
  | str s => Text.quoted s
  | list items => "[" ++ ", ".intercalate (displayItems items) ++ "]"
  | obj fields => "\x7b" ++ ", ".intercalate (displayFields fields) ++ "\x7d"

/-- The items of a list as a message shows them. -/
def displayItems : List Value → List String
  | [] => []
  | v :: rest => v.display :: displayItems rest

/-- The fields of an object as a message shows them. -/
def displayFields : List (String × Value) → List String
  | [] => []
  | (k, v) :: rest => (Text.quoted k ++ ": " ++ v.display) :: displayFields rest

end

/-- The value inside running text: a text stands without quotes. -/
def text : Value → String
  | str s => s
  | v => v.display

end Value

/-- A scalar inside running text. -/
def Scalar.display (s : Scalar) : String :=
  s.toValue.text

end NodeWeave
