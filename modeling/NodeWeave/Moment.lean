import NodeWeave.Fault
import NodeWeave.Value.Arithmetic

/-!
# Dates and times

A moment is a date and a time of day in the Gregorian calendar, carried back to
year 1 and forward to year 9999, with an offset from universal time.  The instant
of a moment is the number of microseconds since the start of year 1, so that
moments can be moved and compared as whole numbers.
-/

namespace NodeWeave

/-- A date and a time of day; no offset means universal time. -/
structure Moment where
  year : Int
  month : Int
  day : Int
  hour : Int
  minute : Int
  second : Int
  microsecond : Int
  /-- Microseconds ahead of universal time. -/
  offset : Option Int
  deriving DecidableEq, Inhabited

namespace Moment

/-- Has the year a 29th of February? -/
def isLeap (year : Int) : Bool :=
  year % 4 == 0 && (year % 100 != 0 || year % 400 == 0)

/-- The lengths of the months. -/
def monthLengths (year : Int) : List Int :=
  [31, if isLeap year then 29 else 28, 31, 30, 31, 30, 31, 31, 30, 31, 30, 31]

/-- The length of a month. -/
def daysInMonth (year month : Int) : Int :=
  (monthLengths year).getD (month - 1).toNat 0

/-- The days before the first day of a year. -/
def daysBeforeYear (year : Int) : Int :=
  let y := year - 1
  y * 365 + y / 4 - y / 100 + y / 400

/-- The days of a year before the first day of a month. -/
def daysBeforeMonth (year month : Int) : Int :=
  ((monthLengths year).take (month - 1).toNat).foldl (· + ·) 0

/-- The microseconds of a minute. -/
def minuteSpan : Int := 60000000

/-- The microseconds of a day. -/
def daySpan : Int := 86400000000

/-- The first part that is not within its bounds. -/
def check (m : Moment) : Option ClockFault :=
  if m.year < 1 || 9999 < m.year then some (.year m.year)
  else if m.month < 1 || 12 < m.month then some .month
  else if m.day < 1 || daysInMonth m.year m.month < m.day then some .day
  else if m.hour < 0 || 23 < m.hour then some .hour
  else if m.minute < 0 || 59 < m.minute then some .minute
  else if m.second < 0 || 59 < m.second then some .second
  else if m.microsecond < 0 || 999999 < m.microsecond then some .microsecond
  else none

/-- The microseconds from the start of year 1 to the moment, in universal time. -/
def instant (m : Moment) : Int :=
  let days := daysBeforeYear m.year + daysBeforeMonth m.year m.month + (m.day - 1)
  days * daySpan + (m.hour * 60 + m.minute) * minuteSpan + m.second * 1000000 + m.microsecond -
    m.offset.getD 0

/-- The year in which a day lies.  The guess is at most one too small. -/
def yearOfDay (days : Int) : Int :=
  let guess := days * 400 / 146097 + 1
  if daysBeforeYear (guess + 1) ≤ days then guess + 1
  else if days < daysBeforeYear guess then guess - 1
  else guess

/-- The month and the day of the month of a day of a year, both counted from 1. -/
def monthOfDay (month : Int) (day : Int) : List Int → Int × Int
  | [] => (month, day + 1)
  | length :: rest =>
    if day < length then (month, day + 1) else monthOfDay (month + 1) (day - length) rest

/-- The moment in universal time so many microseconds after the start of year 1. -/
def ofInstant (instant : Int) : Moment :=
  let days := instant / daySpan
  let seconds := instant % daySpan / 1000000
  let year := yearOfDay days
  let (month, day) := monthOfDay 1 (days - daysBeforeYear year) (monthLengths year)
  { year, month, day
    hour := seconds / 3600, minute := seconds / 60 % 60, second := seconds % 60
    microsecond := instant % 1000000, offset := none }

/-- The moment so many milliseconds after the start of 1970. -/
def ofUnixMilliseconds (n : Int) : Moment :=
  ofInstant (daysBeforeYear 1970 * daySpan + n * 1000)

/-- The same moment in universal time, if it lies in the years 1 to 9999. -/
def toUniversal (m : Moment) : Except Fault Moment :=
  let instant := m.instant
  if instant < 0 || daysBeforeYear 10000 * daySpan ≤ instant then .error .outOfRange
  else .ok (ofInstant instant)

/-- The most days that a span of time may have. -/
def maxDays : Int := 999999999

/-- The microseconds of a number of minutes.  A fraction of a minute becomes a
double number of microseconds first, which is rounded, a half to the even
neighbour. -/
def spanOfMinutes : Number → Except Fault Int
  | .int n => .ok (n * minuteSpan)
  | .real f =>
    match Binary64.trunc? f with
    | none => .error (if f.isNaN then .nanToWhole else .outOfRange)
    | some whole =>
      match Binary64.decode ((f - Binary64.nearest (whole < 0) whole.natAbs 1) * 60000000) with
      | .finite neg m q =>
        let rounded : Int := Binary64.roundDiv m (Nat.pow 2 (-q).toNat) * Nat.pow 2 q.toNat
        .ok (whole * minuteSpan + if neg then -rounded else rounded)
      | _ => .error .outOfRange

/-- Reads an offset from universal time in minutes, which has to be less than a
day; null means that there is none. -/
def readOffset (v : Value) : Except Fault (Option Int) :=
  match v, v.number? with
  | .null, _ => .ok none
  | _, none => .error .unsuitable
  | _, some minutes => do
    let span ← spanOfMinutes minutes
    let days := span / daySpan
    if days < -maxDays || maxDays < days then throw .outOfRange
    if span ≤ -daySpan || daySpan ≤ span then throw (.clock (.offset span))
    return some span

/-- Reads a part of a date and time, which is a whole number of 32 bits. -/
def readPart : Value → Except Fault Int
  | .bool b => .ok (if b then 1 else 0)
  | .int n => if n < -2147483648 || 2147483647 < n then .error .outOfRange else .ok n
  | _ => .error .unsuitable

/-- Reads a moment from its parts: year, month and day, then as many parts of the
time of day as are given, and last the offset.  A part that cannot be read is
found out before one that is missing or one too many. -/
def ofParts (items : List Value) : Except Fault Moment := do
  let given := items.dropLast
  let offset ← readOffset (items.getLastD .null)
  if 8 < given.length then throw .unsuitable
  let parts ← (given.take 7).mapM readPart
  if given.length < 3 || 7 < given.length then throw .unsuitable
  let part (i : Nat) : Int := parts.getD i 0
  let m : Moment := {
    year := part 0, month := part 1, day := part 2
    hour := part 3, minute := part 4, second := part 5, microsecond := part 6, offset }
  match m.check with
  | some cause => throw (.clock cause)
  | none => return m

/-- A number with zeros in front up to a width. -/
def padded (width : Nat) (n : Int) : String :=
  let digits := toString n.toNat
  String.ofList (List.replicate (width - digits.length) '0') ++ digits

/-- The moment in universal time, to the millisecond. -/
def timestamp (m : Moment) : Except Fault String := do
  let u ← m.toUniversal
  return padded 4 u.year ++ "-" ++ padded 2 u.month ++ "-" ++ padded 2 u.day ++ "T" ++
    padded 2 u.hour ++ ":" ++ padded 2 u.minute ++ ":" ++ padded 2 u.second ++ "." ++
    padded 3 (u.microsecond / 1000) ++ "Z"

/-- The lines above generated text: what it is and when it was made. -/
def header (comment : Value) (m : Moment) : Except Fault String := do
  let mark := comment.text
  return mark ++ " Generated Code from Node Graph\n" ++ mark ++ " Generated on: " ++
    (← m.timestamp) ++ "\n\n"

end Moment

end NodeWeave
