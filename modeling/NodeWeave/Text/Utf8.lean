import NodeWeave.Text.Point

/-!
# UTF-8

`decode` reads octets as a text.  The first octet of a character fixes how many
follow and which values the second one may take; the others are continuation
octets.  The first place where this fails is reported with the octets that were
read as the start of a character; `decodeLossy` puts a replacement there instead
and goes on.  `encode?` writes a text that holds no half of a surrogate pair.
-/

namespace NodeWeave.Utf8

/-- Why octets are no text. -/
inductive Reason where
  | startByte
  | continuationByte
  | endOfData
  deriving DecidableEq

/-- The octets `first`, …, `last` cannot be read; `octet` is the one at `first`. -/
structure DecodeError where
  octet : Nat
  first : Nat
  last : Nat
  reason : Reason
  deriving DecidableEq

/-- The wording of a reason. -/
def Reason.text : Reason → String
  | startByte => "invalid start byte"
  | continuationByte => "invalid continuation byte"
  | endOfData => "unexpected end of data"

/-- The wording of the report. -/
def DecodeError.message (e : DecodeError) : String :=
  if e.first = e.last then
    let hex := Nat.toDigits 16 e.octet
    let padded := List.replicate (2 - hex.length) '0' ++ hex
    s!"'utf-8' codec can't decode byte 0x{String.ofList padded} in position {e.first}: " ++
      e.reason.text
  else
    s!"'utf-8' codec can't decode bytes in position {e.first}-{e.last}: " ++ e.reason.text

/-- How a character starts: the part of its code in the first octet, the number
of octets that follow, and the bounds of the first of these. -/
structure Lead where
  code : Nat
  follow : Nat
  low : Nat
  high : Nat

/-- The meaning of a first octet. -/
def lead? (b : Nat) : Option Lead :=
  if b < 0x80 then some ⟨b, 0, 0, 0⟩
  else if b < 0xc2 then none
  else if b < 0xe0 then some ⟨b - 0xc0, 1, 0x80, 0xbf⟩
  else if b = 0xe0 then some ⟨0, 2, 0xa0, 0xbf⟩
  else if b = 0xed then some ⟨0xd, 2, 0x80, 0x9f⟩
  else if b < 0xf0 then some ⟨b - 0xe0, 2, 0x80, 0xbf⟩
  else if b = 0xf0 then some ⟨0, 3, 0x90, 0xbf⟩
  else if b < 0xf4 then some ⟨b - 0xf0, 3, 0x80, 0xbf⟩
  else if b = 0xf4 then some ⟨4, 3, 0x80, 0x8f⟩
  else none

/-- What is being read: nothing, or a character with `follow` octets to come. -/
inductive State where
  | between
  | within (octet first : Nat) (code follow low high : Nat)

/-- Reads the octets from position `pos` on; `done` holds the codes read so far,
the last one first. -/
def decodeFrom (pos : Nat) (done : List Nat) : State → List UInt8 → Except DecodeError (List Nat)
  | .between, [] => .ok done.reverse
  | .within octet first .., [] => .error ⟨octet, first, pos - 1, .endOfData⟩
  | .between, b :: rest =>
    match lead? b.toNat with
    | none => .error ⟨b.toNat, pos, pos, .startByte⟩
    | some l =>
      if l.follow = 0 then decodeFrom (pos + 1) (l.code :: done) .between rest
      else decodeFrom (pos + 1) done (.within b.toNat pos l.code l.follow l.low l.high) rest
  | .within octet first code follow low high, b :: rest =>
    if low ≤ b.toNat && b.toNat ≤ high then
      let code' := code * 64 + b.toNat % 64
      if follow ≤ 1 then decodeFrom (pos + 1) (code' :: done) .between rest
      else decodeFrom (pos + 1) done (.within octet first code' (follow - 1) 0x80 0xbf) rest
    else .error ⟨octet, first, pos - 1, .continuationByte⟩

/-- The text that the octets spell. -/
def decode (bytes : ByteArray) : Except DecodeError (List Char) :=
  (decodeFrom 0 [] .between bytes.data.toList).map Text.ofPoints

/-- The octets that spell a text, unless it holds a half. -/
def encode? (text : String) : Option ByteArray :=
  (Text.toString? text).map String.toUTF8

/-- The code that takes the place of octets that cannot be read. -/
def replacement : Nat := 0xfffd

/-- Takes the first octet of a character: what is being read after it, and the
codes read by then. -/
def startLossy (done : List Nat) (b : UInt8) : State × List Nat :=
  match lead? b.toNat with
  | none => (.between, replacement :: done)
  | some l =>
    if l.follow = 0 then (.between, l.code :: done)
    else (.within b.toNat 0 l.code l.follow l.low l.high, done)

/-- Reads octets, with a replacement wherever that fails. -/
def decodeLossyFrom (done : List Nat) : State → List UInt8 → List Nat
  | .between, [] => done.reverse
  | .within .., [] => (replacement :: done).reverse
  | .between, b :: rest =>
    let (state, done) := startLossy done b
    decodeLossyFrom done state rest
  | .within octet first code follow low high, b :: rest =>
    if low ≤ b.toNat && b.toNat ≤ high then
      let code' := code * 64 + b.toNat % 64
      if follow ≤ 1 then decodeLossyFrom (code' :: done) .between rest
      else decodeLossyFrom done (.within octet first code' (follow - 1) 0x80 0xbf) rest
    else
      let (state, done) := startLossy (replacement :: done) b
      decodeLossyFrom done state rest

/-- The text that the octets spell, with a replacement for those that cannot be
read. -/
def decodeLossy (bytes : List UInt8) : List Char :=
  Text.ofPoints (decodeLossyFrom [] .between bytes)

/-- Moves characters to `done`, the last one first, writing every line break as
a single newline. -/
def unifyFrom (done : List Char) : List Char → List Char
  | '\r' :: '\n' :: rest => unifyFrom ('\n' :: done) rest
  | '\r' :: rest => unifyFrom ('\n' :: done) rest
  | c :: rest => unifyFrom (c :: done) rest
  | [] => done.reverse

/-- The characters with every line break written as a single newline. -/
def unifyNewlines (cs : List Char) : List Char :=
  unifyFrom [] cs

end NodeWeave.Utf8
