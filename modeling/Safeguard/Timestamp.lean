import Safeguard.Duration

/-!
# Timestamps

A timestamp is a day and a time of day in UTC, with nanoseconds. A leap second
is kept as the last second of its minute with a thousand million nanoseconds or
more. Timestamps are read generously: blanks may stand between the parts, the
offset may be written in several ways, and any number of fraction digits is
accepted. They are written in one way, in UTC.

## Main definitions

* `Timestamp`: a point of civil time.
* `Timestamp.ofText?`: reading.
* `Timestamp.text`: writing, with no, three, six or nine fraction digits.
-/

namespace Safeguard

/-- A point of civil time in UTC. -/
structure Timestamp where
  /-- Days since the first of March of the year zero. -/
  day : Int
  /-- Seconds since midnight. -/
  second : Nat
  /-- Nanoseconds since the second began; a leap second adds a thousand million. -/
  nano : Nat
deriving DecidableEq, Repr

/-- Characters that count as blank in a timestamp. -/
def isWhite (c : Char) : Bool :=
  let n := c.toNat
  (9 ≤ n && n ≤ 13) || n == 0x20 || n == 0x85 || n == 0xA0 || n == 0x1680 ||
    (0x2000 ≤ n && n ≤ 0x200A) || n == 0x2028 || n == 0x2029 || n == 0x202F || n == 0x205F ||
    n == 0x3000

namespace Calendar

/-- Whether a year has a leap day. -/
def isLeap (year : Int) : Bool := year % 4 = 0 && (year % 100 ≠ 0 || year % 400 = 0)

/-- The number of days of a month. -/
def daysIn (year : Int) (month : Nat) : Nat :=
  if month = 2 then (if isLeap year then 29 else 28)
  else if month = 4 ∨ month = 6 ∨ month = 9 ∨ month = 11 then 30
  else 31

/-- Days from the first of March of the year zero to a date. The year is taken
to begin in March, so that the leap day is its last day. -/
def dayOf (year : Int) (month day : Nat) : Int :=
  let y := if month ≤ 2 then year - 1 else year
  let fromMarch : Int := if month ≤ 2 then month + 9 else month - 3
  -- From March on, five months have 153 days, and so have the next five.
  365 * y + y / 4 - y / 100 + y / 400 + (153 * fromMarch + 2) / 5 + day - 1

/-- The date of a day. -/
def dateOf (day : Int) : Int × Nat × Nat :=
  let era := day / 146097
  let inEra := day % 146097
  let yearOfEra := (inEra - inEra / 1460 + inEra / 36524 - inEra / 146096) / 365
  let dayOfYear := inEra - (365 * yearOfEra + yearOfEra / 4 - yearOfEra / 100)
  let fromMarch := (5 * dayOfYear + 2) / 153
  let dayOfMonth := dayOfYear - (153 * fromMarch + 2) / 5 + 1
  let month := if fromMarch < 10 then fromMarch + 3 else fromMarch - 9
  let year := yearOfEra + era * 400
  (if month ≤ 2 then year + 1 else year, month.toNat, dayOfMonth.toNat)

/-- Years that have a calendar. -/
def inRange (year : Int) : Bool := -262143 ≤ year && year ≤ 262142

end Calendar

namespace Timestamp

/-! ## Reading -/

/-- The text behind leading blanks. -/
def dropWhite (s : List Char) : List Char := s.dropWhile isWhite

/-- The number that digits give. -/
def digitsValue (digits : List Char) : Nat :=
  digits.foldl (fun n c => n * 10 + (c.toNat - '0'.toNat)) 0

/-- At least one digit and at most `most`, and what follows them. -/
def number? (most : Nat) (s : List Char) : Option (List Char × List Char) :=
  let digits := (s.take most).takeWhile Char.isDigit
  if digits = [] then none else some (digits, s.drop digits.length)

/-- A number of at most two digits behind blanks, in the given range. -/
def field? (low high : Nat) (s : List Char) : Option (Nat × List Char) := do
  let (digits, rest) ← number? 2 (dropWhite s)
  let n := digitsValue digits
  if low ≤ n ∧ n ≤ high then some (n, rest) else none

/-- A year behind blanks: four digits at most, or a sign and any number of them. -/
def year? (s : List Char) : Option (Int × List Char) :=
  match dropWhite s with
  | '-' :: s => (number? s.length s).map fun (digits, rest) => (-(digitsValue digits : Int), rest)
  | '+' :: s => (number? s.length s).map fun (digits, rest) => ((digitsValue digits : Int), rest)
  | s => (number? 4 s).map fun (digits, rest) => ((digitsValue digits : Int), rest)

/-- The expected character behind blanks. -/
def expect? (c : Char) (s : List Char) : Option (List Char) :=
  match dropWhite s with
  | d :: rest => if c = d then some rest else none
  | [] => none

/-- The fraction of a second in nanoseconds; digits after the ninth are dropped. -/
def fraction? : List Char → Option (Nat × List Char)
  | '.' :: s => do
    let (digits, rest) ← number? 9 s
    let padding := List.replicate (9 - digits.length) '0'
    some (digitsValue (digits ++ padding), rest.dropWhile Char.isDigit)
  | s => some (0, s)

/-- Two digits, the first of them at most `limit`. -/
def pair? (limit : Char) : List Char → Option (Nat × List Char)
  | a :: b :: rest =>
    if a.isDigit && b.isDigit && a ≤ limit then some (digitsValue [a, b], rest) else none
  | _ => none

/-- The sign of an offset: whether it is west. -/
def sign? : List Char → Option (Bool × List Char)
  | '+' :: s => some (false, s)
  | '-' :: s => some (true, s)
  | '−' :: s => some (true, s)
  | _ => none

/-- The offset from UTC in seconds. -/
def offset? (s : List Char) : Option (Int × List Char) :=
  match s with
  | 'Z' :: rest => some (0, rest)
  | 'z' :: rest => some (0, rest)
  | _ =>
    if (s.take 3).map Char.toUpper = ['U', 'T', 'C'] then some (0, s.drop 3)
    else do
      let (west, s) ← sign? s
      let (hours, s) ← pair? '9' s
      let (minutes, s) ← pair? '5' (s.dropWhile fun c => c = ':' || isWhite c)
      let seconds : Int := hours * 3600 + minutes * 60
      if seconds < 86400 then some (if west then -seconds else seconds, s) else none

/-- The character between date and time. -/
def separator? : List Char → Option (List Char)
  | c :: rest => if c = 't' || c = 'T' || c = ' ' then some rest else none
  | [] => none

/-- Reads a timestamp. -/
def read? (s : List Char) : Option Timestamp := do
  let (year, s) ← year? s
  let s ← expect? '-' s
  let (month, s) ← field? 1 12 s
  let s ← expect? '-' s
  let (day, s) ← field? 1 31 s
  let s ← separator? s
  let (hour, s) ← field? 0 23 s
  let s ← expect? ':' s
  let (minute, s) ← field? 0 59 s
  let s ← expect? ':' s
  let (second, s) ← field? 0 60 s
  let (nano, s) ← fraction? s
  let (offset, s) ← offset? (dropWhite s)
  if dropWhite s ≠ [] || Calendar.daysIn year month < day || !Calendar.inRange year then none
  else
    -- A leap second is the last second of its minute, gone on for longer.
    let leap := second = 60
    let second := if leap then 59 else second
    let nano := if leap then nano + nanosPerSecond else nano
    let seconds : Int := (hour * 3600 + minute * 60 + second : Nat) - offset
    let result : Timestamp :=
      ⟨Calendar.dayOf year month day + seconds / 86400, (seconds % 86400).toNat, nano⟩
    if Calendar.inRange (Calendar.dateOf result.day).1 then some result else none

/-- Reads a timestamp from a text. -/
def ofText? (s : String) : Option Timestamp := read? s.toList

/-! ## Writing -/

/-- A number with leading zeros up to the given width. -/
def padded (width n : Nat) : List Char :=
  let digits := (Nat.repr n).toList
  List.replicate (width - digits.length) '0' ++ digits

/-- A year: four digits, or a sign and at least four digits. -/
def yearText (year : Int) : List Char :=
  if 0 ≤ year ∧ year ≤ 9999 then padded 4 year.toNat
  else (if year < 0 then '-' else '+') :: padded 4 year.natAbs

/-- The fraction with as many groups of three digits as it needs. -/
def fractionText (nano : Nat) : List Char :=
  if nano = 0 then []
  else if nano % nanosPerMilli = 0 then '.' :: padded 3 (nano / nanosPerMilli)
  else if nano % 1000 = 0 then '.' :: padded 6 (nano / 1000)
  else '.' :: padded 9 nano

/-- The text of a timestamp, in UTC. -/
def characters (t : Timestamp) : List Char :=
  let (year, month, day) := Calendar.dateOf t.day
  let leap := nanosPerSecond ≤ t.nano
  let second := if leap then t.second % 60 + 1 else t.second % 60
  let nano := if leap then t.nano - nanosPerSecond else t.nano
  yearText year ++ '-' :: padded 2 month ++ '-' :: padded 2 day ++
    'T' :: padded 2 (t.second / 3600) ++ ':' :: padded 2 (t.second / 60 % 60) ++
    ':' :: padded 2 second ++ fractionText nano ++ ['Z']

/-- The text of a timestamp. -/
def text (t : Timestamp) : String := String.ofList t.characters

end Timestamp

end Safeguard
