import NodeWeave.Number
import NodeWeave.Number.Shortest
import NodeWeave.Text.Point
import NodeWeave.Value

/-!
# Reading JSON text

The reader walks over the characters once.  A number without fraction and
exponent is a whole number of any size; the words `NaN`, `Infinity` and
`-Infinity` are numbers too, and every `NaN` is the same one.  A repeated field
keeps its first place and takes its last value.  Half of a surrogate pair may be
escaped alone.  The first fault is reported with its position in the text, and
`SyntaxError.message` adds line and column.  Two faults have no position: a whole
number with too many digits, and lists and objects that go too deep into each
other.
-/

namespace NodeWeave.Json

/-- What the reader missed or met. -/
inductive Reason where
  | byteOrderMark
  | value
  | fieldName
  | colon
  | comma
  | extraData
  | openString
  | controlChar
  | badEscape
  | badUnicodeEscape
  deriving DecidableEq

/-- The wording of a reason. -/
def Reason.text : Reason → String
  | byteOrderMark => "Unexpected UTF-8 BOM (decode using utf-8-sig)"
  | value => "Expecting value"
  | fieldName => "Expecting property name enclosed in double quotes"
  | colon => "Expecting ':' delimiter"
  | comma => "Expecting ',' delimiter"
  | extraData => "Extra data"
  | openString => "Unterminated string starting at"
  | controlChar => "Invalid control character at"
  | badEscape => "Invalid \\escape"
  | badUnicodeEscape => "Invalid \\uXXXX escape"

/-- A fault of the text: the position counts code points from 0, line and column
count from 1. -/
structure SyntaxError where
  reason : Reason
  position : Nat
  line : Nat
  column : Nat
  deriving DecidableEq

/-- The wording of the report. -/
def SyntaxError.message (e : SyntaxError) : String :=
  e.reason.text ++ s!": line {e.line} column {e.column} (char {e.position})"

/-- Why a text could not be read. -/
inductive ReadError where
  | malformed (error : SyntaxError)
  | tooManyDigits (count : Nat)
  | tooDeep
  deriving DecidableEq

/-- How deep lists and objects may lie in each other in a file. -/
def maxDepth : Nat := 988

/-- What ended the reading. -/
inductive Fail where
  | malformed (reason : Reason) (position : Nat)
  | tooManyDigits (count : Nat)
  | tooDeep

/-- What was read, the position after it, and the characters from there on. -/
abbrev Done (α : Type) := α × Nat × List Char

/-- Blanks between tokens. -/
def isSpace (c : Char) : Bool :=
  c == ' ' || c == '\t' || c == '\n' || c == '\r'

/-- Passes over blanks. -/
def skipSpace (pos : Nat) : List Char → Nat × List Char
  | c :: rest => if isSpace c then skipSpace (pos + 1) rest else (pos, c :: rest)
  | [] => (pos, [])

/-- The value of a hexadecimal digit. -/
def hexValue? (c : Char) : Option Nat :=
  if '0' ≤ c && c ≤ '9' then some (c.toNat - '0'.toNat)
  else if 'a' ≤ c && c ≤ 'f' then some (c.toNat - 'a'.toNat + 10)
  else if 'A' ≤ c && c ≤ 'F' then some (c.toNat - 'A'.toNat + 10)
  else none

/-- The value of four hexadecimal digits. -/
def hex4? (a b c d : Char) : Option Nat := do
  let a ← hexValue? a
  let b ← hexValue? b
  let c ← hexValue? c
  let d ← hexValue? d
  return ((a * 16 + b) * 16 + c) * 16 + d

/-- The character that a one-letter escape stands for. -/
def escape? : Char → Option Char
  | '"' => some '"'
  | '\\' => some '\\'
  | '/' => some '/'
  | 'b' => some '\x08'
  | 'f' => some '\x0c'
  | 'n' => some '\n'
  | 'r' => some '\r'
  | 't' => some '\t'
  | _ => none

/-- Adds a code point to the characters read so far, the last one first. -/
def pushPoint (done : List Char) (n : Nat) : List Char :=
  (Text.pointChars n).reverse ++ done

/-- What an escaped code adds to the characters read so far, and the high half
that now waits for its low half.  `high` is the one that waited before. -/
def pushCode (high : Option Nat) (done : List Char) (code : Nat) : Option Nat × List Char :=
  match high with
  | some h =>
    if 0xdc00 ≤ code && code ≤ 0xdfff then
      (none, pushPoint done (0x10000 + (h - 0xd800) * 0x400 + (code - 0xdc00)))
    else if 0xd800 ≤ code && code ≤ 0xdbff then (some code, pushPoint done h)
    else (none, pushPoint (pushPoint done h) code)
  | none =>
    if 0xd800 ≤ code && code ≤ 0xdbff then (some code, done)
    else (none, pushPoint done code)

/-- The characters read so far, with a high half that found no low half. -/
def settle (high : Option Nat) (done : List Char) : List Char :=
  match high with
  | some h => pushPoint done h
  | none => done

/-- Reads the rest of a string whose quote stands at `start`. -/
def readString (start pos : Nat) (high : Option Nat) (done : List Char) :
    List Char → Except Fail (Done String)
  | [] => .error (.malformed .openString start)
  | '"' :: rest => .ok (String.ofList (settle high done).reverse, pos + 1, rest)
  | '\\' :: 'u' :: a :: b :: c :: d :: next :: rest =>
    match hex4? a b c d with
    | none => .error (.malformed .badUnicodeEscape (pos + 1))
    | some code =>
      let (high, done) := pushCode high done code
      readString start (pos + 6) high done (next :: rest)
  | '\\' :: 'u' :: _ => .error (.malformed .badUnicodeEscape (pos + 1))
  | '\\' :: e :: rest =>
    match escape? e with
    | some c => readString start (pos + 2) none (c :: settle high done) rest
    | none => .error (.malformed .badEscape pos)
  | ['\\'] => .error (.malformed .openString start)
  | c :: rest =>
    if c.toNat < 0x20 then .error (.malformed .controlChar pos)
    else
      let width := if Text.isLead c then 0 else 1
      readString start (pos + width) none (c :: settle high done) rest

/-- The decimal digits at the front, and what follows them. -/
def takeDigits (cs : List Char) : List Char × List Char :=
  (cs.takeWhile Char.isDigit, cs.dropWhile Char.isDigit)

/-- The value of a list of decimal digits. -/
def digitsValue (ds : List Char) : Nat :=
  ds.foldl (fun n d => 10 * n + (d.toNat - '0'.toNat)) 0

/-- The digits of a fraction part at the front, if a point and a digit stand
there. -/
def readFraction : List Char → Option (List Char × List Char)
  | '.' :: rest =>
    let (ds, rest) := takeDigits rest
    if ds.isEmpty then none else some (ds, rest)
  | _ => none

/-- An exponent at the front: its value, its length, and what follows. -/
def readExponent : List Char → Option (Int × Nat × List Char)
  | e :: rest =>
    if e == 'e' || e == 'E' then
      let (neg, signs, rest) := match rest with
        | '-' :: r => (true, 1, r)
        | '+' :: r => (false, 1, r)
        | r => (false, 0, r)
      let (ds, rest) := takeDigits rest
      if ds.isEmpty then none
      else
        let n : Int := digitsValue ds
        some (if neg then -n else n, 1 + signs + ds.length, rest)
    else none
  | [] => none

/-- Reads a number whose digits start at `cs`; `start` is where it began, with
its sign. -/
def readNumber (neg : Bool) (start pos : Nat) (cs : List Char) : Except Fail (Done Value) :=
  let whole := match cs with
    | '0' :: rest => (['0'], rest)
    | _ => takeDigits cs
  if whole.1.isEmpty then .error (.malformed .value start)
  else
    let (ds, rest) := whole
    let pos := pos + ds.length
    let fraction := readFraction rest
    let (fs, pos, rest) := match fraction with
      | some (fs, rest) => (fs, pos + 1 + fs.length, rest)
      | none => ([], pos, rest)
    match fraction, readExponent rest with
    | none, none =>
      if Number.maxDigits < ds.length then .error (.tooManyDigits ds.length)
      else
        let n : Int := digitsValue ds
        .ok (.int (if neg then -n else n), pos, rest)
    | _, exponent =>
      let (e, length, rest) := exponent.getD (0, 0, rest)
      .ok (.float (Decimal.read neg (digitsValue (ds ++ fs)) (e - fs.length)), pos + length, rest)

/-- The rest of a text after a word, if it starts with it. -/
def dropWord? (word : List Char) (cs : List Char) : Option (List Char) :=
  if word.isPrefixOf cs then some (cs.drop word.length) else none

/-- The words that are values. -/
def words : List (String × Value) := [
  ("null", .null), ("true", .bool true), ("false", .bool false), ("NaN", .nan 0),
  ("Infinity", .float (1 / 0)), ("-Infinity", .float (-1 / 0))
]

/-- Reads a word or a number. -/
def readPlain (pos : Nat) (cs : List Char) : Except Fail (Done Value) :=
  match words.findSome? fun (w, v) => (dropWord? w.toList cs).map fun rest => (w.length, v, rest) with
  | some (n, v, rest) => .ok (v, pos + n, rest)
  | none =>
    match cs with
    | '-' :: rest => readNumber true pos (pos + 1) rest
    | _ => readNumber false pos pos cs

mutual

/-- Reads a value.  The first argument bounds how long the reading goes on; each
character takes two steps at most, so twice the length of the text suffices.  The
second argument says how much deeper lists and objects may go. -/
def readValue : Nat → Nat → Nat → List Char → Except Fail (Done Value)
  | 0, _, pos, _ => .error (.malformed .value pos)
  | fuel + 1, room, pos, cs =>
    match cs with
    | '"' :: rest => do
      let (s, pos, rest) ← readString pos (pos + 1) none [] rest
      return (.str s, pos, rest)
    | '{' :: rest =>
      match room with
      | 0 => .error .tooDeep
      | room + 1 =>
        match skipSpace (pos + 1) rest with
        | (pos, '}' :: rest) => .ok (.obj [], pos + 1, rest)
        | (pos, rest) => readFields fuel room [] pos rest
    | '[' :: rest =>
      match room with
      | 0 => .error .tooDeep
      | room + 1 =>
        match skipSpace (pos + 1) rest with
        | (pos, ']' :: rest) => .ok (.list [], pos + 1, rest)
        | (pos, rest) => readItems fuel room [] pos rest
    | cs => readPlain pos cs

/-- Reads the fields of an object up to its end; `done` holds those before. -/
def readFields : Nat → Nat → List (String × Value) → Nat → List Char → Except Fail (Done Value)
  | 0, _, _, pos, _ => .error (.malformed .fieldName pos)
  | fuel + 1, room, done, pos, cs =>
    match cs with
    | '"' :: rest => do
      let (name, pos, rest) ← readString pos (pos + 1) none [] rest
      match skipSpace pos rest with
      | (pos, ':' :: rest) =>
        let (pos, rest) := skipSpace (pos + 1) rest
        let (v, pos, rest) ← readValue fuel room pos rest
        let done := Table.put done name v
        match skipSpace pos rest with
        | (pos, '}' :: rest) => return (.obj done, pos + 1, rest)
        | (pos, ',' :: rest) =>
          let (pos, rest) := skipSpace (pos + 1) rest
          readFields fuel room done pos rest
        | (pos, _) => .error (.malformed .comma pos)
      | (pos, _) => .error (.malformed .colon pos)
    | _ => .error (.malformed .fieldName pos)

/-- Reads the items of a list up to its end; `done` holds those before, the
last one first. -/
def readItems : Nat → Nat → List Value → Nat → List Char → Except Fail (Done Value)
  | 0, _, _, pos, _ => .error (.malformed .value pos)
  | fuel + 1, room, done, pos, cs => do
    let (v, pos, rest) ← readValue fuel room pos cs
    match skipSpace pos rest with
    | (pos, ']' :: rest) => return (.list (v :: done).reverse, pos + 1, rest)
    | (pos, ',' :: rest) =>
      let (pos, rest) := skipSpace (pos + 1) rest
      readItems fuel room (v :: done) pos rest
    | (pos, _) => .error (.malformed .comma pos)

end

/-- Line and column of a position: the line breaks before it, and the distance
from the last of them. -/
def locate (cs : List Char) (pos : Nat) : Nat × Nat :=
  ((Text.points cs).take pos).foldl
    (fun (line, column) n => if n == 10 then (line + 1, 1) else (line, column + 1)) (1, 1)

/-- What ended the reading, with line and column. -/
def Fail.report (cs : List Char) : Fail → ReadError
  | malformed reason position =>
    let (line, column) := locate cs position
    .malformed { reason, position, line, column }
  | tooManyDigits count => .tooManyDigits count
  | tooDeep => .tooDeep

/-- Reads a text that holds exactly one value, whose lists and objects go no
deeper than allowed. -/
def readText (depth : Nat) (cs : List Char) : Except Fail Value := do
  let (pos, rest) := skipSpace 0 cs
  let (v, pos, rest) ← readValue (2 * cs.length + 2) depth pos rest
  match skipSpace pos rest with
  | (_, []) => return v
  | (pos, _) => .error (.malformed .extraData pos)

/-- Reads a text that holds exactly one value and no byte order mark. -/
def parse (cs : List Char) : Except ReadError Value :=
  if cs.head? == some (Char.ofNat 0xfeff) then
    .error (Fail.report cs (.malformed .byteOrderMark 0))
  else (readText maxDepth cs).mapError (Fail.report cs)

end NodeWeave.Json
