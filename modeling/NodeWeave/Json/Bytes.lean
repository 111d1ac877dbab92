import NodeWeave.Json.Reader
import NodeWeave.Text.Point
import NodeWeave.Text.Utf8

/-!
# JSON in bytes

A JSON text may come in any of the five Unicode encodings.  Since it starts with
an ASCII character, the zeros among its first bytes tell which one it is; without
zeros it is UTF-8, where a byte order mark may stand in front.  Halves of
surrogate pairs are kept.
-/

namespace NodeWeave.Json

/-- How characters are written in bytes. -/
inductive Encoding where
  | utf8
  | utf16 (bigEndian : Bool)
  | utf32 (bigEndian : Bool)
  deriving DecidableEq

namespace Encoding

/-- The encoding of a JSON text. -/
def detect : List UInt8 → Encoding
  | [a, b] => if a = 0 then utf16 true else if b = 0 then utf16 false else utf8
  | a :: b :: c :: d :: _ =>
    if a = 0 then (if b = 0 then utf32 true else utf16 true)
    else if b = 0 then (if c = 0 && d = 0 then utf32 false else utf16 false)
    else utf8
  | _ => utf8

/-- The number that some bytes spell. -/
def unit (bigEndian : Bool) (bytes : List UInt8) : Nat :=
  (if bigEndian then bytes else bytes.reverse).foldl (fun n b => 256 * n + b.toNat) 0

/-- The units of two bytes, unless a byte is left over. -/
def units16 (bigEndian : Bool) : List UInt8 → Option (List Nat)
  | [] => some []
  | a :: b :: rest => (units16 bigEndian rest).map (unit bigEndian [a, b] :: ·)
  | _ => none

/-- The units of four bytes, unless bytes are left over. -/
def units32 (bigEndian : Bool) : List UInt8 → Option (List Nat)
  | [] => some []
  | a :: b :: c :: d :: rest => (units32 bigEndian rest).map (unit bigEndian [a, b, c, d] :: ·)
  | _ => none

/-- The code points of units of two bytes: a high and a low half that meet are
one character. -/
def joinPairs : List Nat → List Nat
  | high :: low :: rest =>
    if 0xd800 ≤ high && high ≤ 0xdbff && 0xdc00 ≤ low && low ≤ 0xdfff then
      (0x10000 + (high - 0xd800) * 1024 + (low - 0xdc00)) :: joinPairs rest
    else high :: joinPairs (low :: rest)
  | [code] => [code]
  | [] => []

/-- The text that bytes spell. -/
def decode? (bytes : List UInt8) : Encoding → Option (List Char)
  | utf8 =>
    match Utf8.decode ⟨bytes.toArray⟩ with
    | .ok (c :: rest) => some (if c = Char.ofNat 0xfeff then rest else c :: rest)
    | .ok [] => some []
    | .error _ => none
  | utf16 bigEndian => (units16 bigEndian bytes).map fun units => Text.ofPoints (joinPairs units)
  | utf32 bigEndian => do
    let units ← units32 bigEndian bytes
    guard (units.all (· < Text.pointCount))
    return Text.ofPoints units

end Encoding

/-- Reads the bytes of a JSON text, unless they spell no characters.  Lists and
objects go no deeper than allowed. -/
def readBytes? (depth : Nat) (bytes : List UInt8) : Option (Except Fail Value) :=
  ((Encoding.detect bytes).decode? bytes).map (readText depth)

end NodeWeave.Json
