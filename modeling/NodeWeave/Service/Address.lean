import NodeWeave.Json.Reader
import NodeWeave.Number.Integer
import NodeWeave.Text.Utf8

/-!
# Addresses

A request is sent to an address.  As a rule that is a path; a scheme and a host
may stand before it, and a query and a fragment behind it.  The service is asked
for the path alone: the parts `.` and `..` are resolved first, and then percent
signs are decoded twice, once by each end.
-/

namespace NodeWeave.Service

/-- The parts of an address up to its path; those that are missing are empty. -/
structure Address where
  scheme : List Char
  user : List Char
  host : List Char
  port : List Char
  path : List Char
  deriving DecidableEq

namespace Address

/-- How many characters an address may have. -/
def maxLength : Nat := 65536

/-- Can the character stand in the word for a scheme? -/
def isSchemeChar (c : Char) : Bool :=
  c.isAlphanum || c == '+' || c == '.' || c == '-'

/-- The scheme in front of a colon, in lower case, and what follows. -/
def splitScheme (cs : List Char) : List Char × List Char :=
  let word := cs.takeWhile isSchemeChar
  match cs.drop word.length with
  | ':' :: rest => if word.head?.all Char.isAlpha then (word.map Char.toLower, rest) else ([], cs)
  | _ => ([], cs)

/-- What stands between two slashes and the path, and the path with the rest. -/
def splitAuthority (cs : List Char) : List Char × List Char :=
  match cs with
  | '/' :: '/' :: rest =>
    let authority := rest.takeWhile fun c => c != '/' && c != '?' && c != '#'
    (authority, rest.drop authority.length)
  | _ => ([], cs)

/-- The user in front of the first `@`, and what follows. -/
def splitUser (cs : List Char) : List Char × List Char :=
  let user := cs.takeWhile (· != '@')
  match cs.drop user.length with
  | _ :: rest => (user, rest)
  | [] => ([], cs)

/-- The host at the front: what stands in brackets, or all up to a colon. -/
def hostPart (cs : List Char) : List Char :=
  let closed := (cs.reverse.dropWhile (· != ']')).reverse
  if cs.head? == some '[' && !closed.isEmpty then closed
  else cs.takeWhile fun c => c != ':' && c != '@'

/-- Takes an address apart. -/
def ofChars (cs : List Char) : Address :=
  let (scheme, rest) := splitScheme cs
  let (authority, rest) := splitAuthority rest
  let (user, place) := splitUser authority
  let host := hostPart place
  let port := match place.drop host.length with
    | ':' :: port => port
    | port => port
  { scheme, user, host, port, path := rest.takeWhile fun c => c != '?' && c != '#' }

/-- One more character of a text that may be four groups of digits with a
character between each two: a state is the number of groups to come and whether
the present one has a digit. -/
def stepGroups (states : List (Nat × Bool)) (c : Char) : List (Nat × Bool) :=
  (states.flatMap fun (left, started) =>
    (if c.isDigit then [(left, true)] else []) ++
      (if started && 0 < left then [(left - 1, false)] else [])).eraseDups

/-- Is the host to be read as four numbers? -/
def looksNumeric (host : List Char) : Bool :=
  (host.foldl stepGroups [(3, false)]).contains (0, true)

/-- Is the text a number below 256 without zeros in front? -/
def isOctet (part : String) : Bool :=
  let ds := part.toList
  !ds.isEmpty && ds.length ≤ 3 && ds.all Char.isDigit && Json.digitsValue ds < 256 &&
    (ds.length == 1 || ds.head? != some '0')

/-- Is the host four numbers with points between them? -/
def isNumeric (host : List Char) : Bool :=
  let parts := Text.split '.' (String.ofList host)
  parts.length == 4 && parts.all isOctet

/-- Is the text up to four hexadecimal digits? -/
def isGroup (part : String) : Bool :=
  part != "" && part.length ≤ 4 && part.toList.all fun c => (Json.hexValue? c).isSome

/-- Are the parts groups, or nothing at all beside a gap? -/
def areGroups (parts : List String) : Bool :=
  parts = [""] || parts.all isGroup

/-- The parts between colons, where four numbers at the end count as two
groups. -/
def groupParts? (text : String) : Option (List String) := do
  let parts := Text.split ':' text
  guard (3 ≤ parts.length)
  let last ← parts.getLast?
  if last.contains '.' then
    guard (isNumeric last.toList)
    return parts.dropLast ++ ["0", "0"]
  else return parts

/-- Are the parts eight groups?  One gap may stand for one or more of them. -/
def isEightGroups (parts : List String) : Bool :=
  match (parts.drop 1).dropLast.findIdx? (· == "") with
  | none => parts.length == 8 && parts.all isGroup
  | some i =>
    let front := parts.take (i + 1)
    let back := parts.drop (i + 2)
    areGroups front && areGroups back &&
      (front ++ back).countP (· != "") ≤ 7

/-- Is the text eight groups of hexadecimal digits with colons between them?  A
zone may follow a percent sign. -/
def isGrouped (text : String) : Bool :=
  match Text.split '%' text with
  | [groups] => (groupParts? groups).any isEightGroups
  | [groups, zone] => zone != "" && (groupParts? groups).any isEightGroups
  | _ => false

/-- Is the host in brackets? -/
def isBracketed (host : List Char) : Bool :=
  host.head? == some '[' && host.getLast? == some ']'

/-- Blocks of punctuation, symbols, pictures and private characters beyond ASCII,
without the full stops among them. -/
def symbolBlocks : List (Nat × Nat) :=
  [(0x80, 0xb6), (0xb8, 0xbf), (0xd7, 0xd7), (0xf7, 0xf7), (0x2000, 0x214d), (0x214f, 0x2183),
    (0x2185, 0x2bff), (0x3000, 0x3001), (0x3003, 0x3004), (0x3008, 0x3020), (0xe000, 0xf8ff),
    (0xff00, 0xff0d), (0xff0f, 0xff60), (0xff62, 0xffff), (0x1f000, 0x1fbff), (0xf0000, 0x10ffff)]

/-- Can the character stand in a name that is not all ASCII? -/
def isNameChar (c : Char) : Bool :=
  if c.toNat < 0x80 then c.isAlphanum || c == '-' || c == '.'
  else !symbolBlocks.any fun (first, last) => first ≤ c.toNat && c.toNat ≤ last

/-- Is the host as it has to be?  One that looks like four numbers or like groups
in brackets is that, and one with letters beyond ASCII has no symbols. -/
def isHost (host : List Char) : Bool :=
  if looksNumeric host then isNumeric host
  else if isBracketed host then isGrouped (String.ofList (host.drop 1).dropLast)
  else host.all (fun c => c.toNat < 0x80) || host.all isNameChar

/-- Does the address name a host or something beside one? -/
def hasAuthority (a : Address) : Bool :=
  !a.user.isEmpty || !a.host.isEmpty || !a.port.isEmpty

/-- Is the address nothing but a path? -/
def isBare (a : Address) : Bool :=
  a.scheme.isEmpty && !a.hasAuthority

/-- Is the address complete, with a scheme and a host? -/
def isAbsolute (a : Address) : Bool :=
  !a.scheme.isEmpty && !a.host.isEmpty

/-- Can the address be read?  Its port is a number, its host is one, and a path
alone starts neither with a colon nor with two slashes. -/
def isReadable (a : Address) : Bool :=
  (a.port.isEmpty || (Integer.ofText (String.ofList a.port)).isOk) &&
    isHost a.host &&
    !(a.isBare && (a.path.head? == some ':' || ['/', '/'].isPrefixOf a.path))

/-- Can the host of a complete address be asked? -/
def isReachable (a : Address) : Bool :=
  ["http", "https"].contains (String.ofList a.scheme)

end Address

/-- The bytes that a percent-encoded text stands for. -/
def percentDecode : List UInt8 → List UInt8
  | 0x25 :: a :: b :: rest =>
    match Json.hexValue? (Char.ofNat a.toNat), Json.hexValue? (Char.ofNat b.toNat) with
    | some h, some l => UInt8.ofNat (16 * h + l) :: percentDecode rest
    | _, _ => 0x25 :: percentDecode (a :: b :: rest)
  | c :: rest => c :: percentDecode rest
  | [] => []

/-- The text that a percent-encoded text stands for; there is none for half a
character. -/
def percentDecoded? (text : String) : Option String := do
  let bytes ← Utf8.encode? text
  return String.ofList (Utf8.decodeLossy (percentDecode bytes.toList))

/-- The parts of a path where `.` stays in place and `..` goes back one part;
`done` holds the parts before, the last one first. -/
def resolveParts (done : List String) : List String → List String
  | [] => done.reverse
  | "." :: rest => resolveParts done rest
  | ".." :: rest => resolveParts (if done = [""] then done else done.drop 1) rest
  | part :: rest => resolveParts (part :: done) rest

/-- A path without the parts `.` and `..`. -/
def resolvePath (path : String) : String :=
  "/".intercalate (resolveParts [] (Text.split '/' path))

/-- The path of an address as it is sent.  Without a host it starts at the root,
however many slashes it has in front. -/
def Address.sentPath (a : Address) : String :=
  let resolved := resolvePath (String.ofList a.path)
  if a.isAbsolute then resolved
  else
    let path := if a.isBare then a.path else resolved.toList
    resolvePath (String.ofList ('/' :: path.dropWhile (· == '/')))

/-- The path that a request for an address asks for, if it can be sent: an
address has no control characters and no half characters, and is not too long. -/
def requestPath? (address : String) : Option String := do
  guard (address.toList.all fun c => 0x20 ≤ c.toNat && c.toNat != 0x7f)
  guard (Text.isWhole address)
  guard ((Text.points address.toList).length ≤ Address.maxLength)
  let a := Address.ofChars address.toList
  guard (a.isReadable && (!a.isAbsolute || a.isReachable))
  percentDecoded? (← percentDecoded? a.sentPath)

end NodeWeave.Service
