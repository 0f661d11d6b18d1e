import ClasspathAudit.Text.Decimal

/-!
Points in time with the offset they were given in, written and read as dates of the Gregorian calendar.
-/

namespace ClasspathAudit

open Text

/-- A point in time. -/
structure Timestamp where
  /-- Seconds since the start of 1970 in universal time. -/
  seconds : Int
  nanos : Nat
  /-- Seconds that local clocks are ahead of universal time. -/
  offset : Int
deriving DecidableEq, Repr

/-- A day of the calendar. -/
structure Date where
  year : Int
  month : Nat
  day : Nat
deriving DecidableEq, Repr

namespace Date

def isLeapYear (year : Int) : Bool :=
  year % 4 = 0 && (year % 100 ≠ 0 || year % 400 = 0)

def daysInMonth (year : Int) (month : Nat) : Nat :=
  if month = 2 then (if isLeapYear year then 29 else 28)
  else if month = 4 ∨ month = 6 ∨ month = 9 ∨ month = 11 then 30
  else 31

/-- The days from the first of March of year zero to the first of January 1970. -/
def epochDays : Int := 719468

/-- Days since the start of 1970. Years are counted from March on, so that a leap day is the last of its
year. -/
def toDays (d : Date) : Int :=
  let year := if d.month ≤ 2 then d.year - 1 else d.year
  let era := year / 400
  let yearOfEra := year % 400
  let dayOfYear : Int := (153 * ((d.month + 9) % 12) + 2) / 5 + d.day - 1
  era * 146097 + yearOfEra * 365 + yearOfEra / 4 - yearOfEra / 100 + dayOfYear - epochDays

def ofDays (days : Int) : Date :=
  let shifted := days + epochDays
  let era := shifted / 146097
  let dayOfEra := shifted % 146097
  let yearOfEra := (dayOfEra - dayOfEra / 1460 + dayOfEra / 36524 - dayOfEra / 146096) / 365
  let dayOfYear := dayOfEra - (365 * yearOfEra + yearOfEra / 4 - yearOfEra / 100)
  let shiftedMonth := ((5 * dayOfYear + 2) / 153).toNat
  let day := (dayOfYear - (153 * shiftedMonth + 2) / 5 + 1).toNat
  let month := if shiftedMonth < 10 then shiftedMonth + 3 else shiftedMonth - 9
  { year := yearOfEra + era * 400 + (if month ≤ 2 then 1 else 0), month, day }

end Date

namespace Timestamp

/-- The time at the clock reading of a date, `offset` seconds ahead of universal time. -/
def ofClock (date : Date) (hour minute second nanos : Nat) (offset : Int) : Timestamp where
  seconds := date.toDays * 86400 + hour * 3600 + minute * 60 + second - offset
  nanos
  offset

/-- The time that stands for none, the start of the first year. -/
def zero : Timestamp := ofClock ⟨1, 1, 1⟩ 0 0 0 0 0

def isZero (t : Timestamp) : Bool := t.seconds = zero.seconds && t.nanos = 0

def utc (t : Timestamp) : Timestamp := { t with offset := 0 }

/-- A number with at least `width` digits. -/
def padded (width : Nat) (n : Nat) : String :=
  let digits := toString n
  String.ofList (List.replicate (width - digits.length) '0') ++ digits

/-- The fraction of a second without trailing zeros. -/
def fraction (nanos : Nat) : String :=
  let digits := ((padded 9 nanos).toList.reverse.dropWhile (· = '0')).reverse
  if digits.isEmpty then "" else "." ++ String.ofList digits

/-- An offset in hours and minutes; seconds beyond these are cut off. -/
def zone (offset : Int) : String :=
  if offset = 0 then "Z"
  else
    let minutes := offset.natAbs / 60
    (if offset ≤ -60 then "-" else "+") ++ padded 2 (minutes / 60) ++ ":" ++ padded 2 (minutes % 60)

def year (t : Timestamp) : Int := (Date.ofDays ((t.seconds + t.offset) / 86400)).year

/-- Date, time of day to the nanosecond where needed, and offset. -/
def text (t : Timestamp) : String :=
  let wall := t.seconds + t.offset
  let date := Date.ofDays (wall / 86400)
  let second := (wall % 86400).toNat
  (if date.year < 0 then "-" else "") ++ padded 4 date.year.natAbs ++ "-" ++ padded 2 date.month ++ "-" ++
    padded 2 date.day ++ "T" ++ padded 2 (second / 3600) ++ ":" ++ padded 2 (second / 60 % 60) ++ ":" ++
    padded 2 (second % 60) ++ fraction t.nanos ++ zone t.offset

/-- Why a time has no text for interchange, where years have four digits and offsets are less than a
day. -/
def fault? (t : Timestamp) : Option String :=
  if t.year < 0 ∨ 9999 < t.year then some "year outside of range [0,9999]"
  else if 24 ≤ t.offset.natAbs / 3600 then some "timezone hour outside of range [0,23]"
  else none

/-- Between `least` and `most` digits at the front, as a number. -/
def takeNumber? (least most : Nat) (cs : List Char) : Option (Nat × List Char) :=
  let digits := (cs.take most).takeWhile isDigit
  if digits.length < least then none else some (digitsValue digits, cs.drop digits.length)

def takeWithin? (least most low high : Nat) (cs : List Char) : Option (Nat × List Char) := do
  let (n, rest) ← takeNumber? least most cs
  if low ≤ n ∧ n ≤ high then some (n, rest) else none

def expect? (c : Char) : List Char → Option (List Char)
  | [] => none
  | d :: rest => if d = c then some rest else none

/-- The nanoseconds of a fraction at the front, none if there is no fraction; digits beyond the ninth do
not count. `marks` are the characters that begin a fraction. -/
def takeFraction (marks : List Char) (cs : List Char) : Nat × List Char :=
  match cs with
  | mark :: rest =>
    let digits := rest.takeWhile isDigit
    if marks.contains mark && !digits.isEmpty then
      let nine := (digits ++ List.replicate 9 '0').take 9
      (digitsValue nine, rest.drop digits.length)
    else (0, cs)
  | [] => (0, cs)

/-- An offset at the end: a letter Z, or hours and minutes up to the given ones. -/
def zone? (maxHour maxMinute : Nat) (cs : List Char) : Option Int :=
  match cs with
  | ['Z'] => some 0
  | sign :: rest => do
    let (hour, rest) ← takeWithin? 2 2 0 maxHour rest
    let rest ← expect? ':' rest
    let (minute, rest) ← takeWithin? 2 2 0 maxMinute rest
    let offset : Int := (hour * 60 + minute) * 60
    if !rest.isEmpty then none
    else if sign = '+' then some offset
    else if sign = '-' then some (-offset)
    else none
  | [] => none

/-- How wide the fields of a date are read. -/
structure FieldWidths where
  /-- The least number of digits of month, day, minute and second. -/
  least : Nat
  /-- The least number of digits of the hour. -/
  leastHour : Nat
  /-- The characters that begin a fraction. -/
  fractionMarks : List Char
  maxZoneHour : Nat
  maxZoneMinute : Nat

/-- The fields of interchange: two digits each, but for the hour. A comma may begin the fraction, and
offsets may have 24 hours or 60 minutes. -/
def interchange : FieldWidths := ⟨2, 1, ['.', ','], 24, 60⟩

def date? (widths : FieldWidths) (cs : List Char) : Option (Date × List Char) := do
  let (year, rest) ← takeNumber? 4 4 cs
  let rest ← expect? '-' rest
  let (month, rest) ← takeWithin? widths.least 2 1 12 rest
  let rest ← expect? '-' rest
  let (day, rest) ← takeWithin? widths.least 2 1 (Date.daysInMonth year month) rest
  return (⟨year, month, day⟩, rest)

/-- A time of day at the front: hour, minute, second and nanoseconds. -/
def clock? (widths : FieldWidths) (cs : List Char) : Option ((Nat × Nat × Nat × Nat) × List Char) := do
  let (hour, rest) ← takeWithin? widths.leastHour 2 0 23 cs
  let rest ← expect? ':' rest
  let (minute, rest) ← takeWithin? widths.least 2 0 59 rest
  let rest ← expect? ':' rest
  let (second, rest) ← takeWithin? widths.least 2 0 59 rest
  let (nanos, rest) := takeFraction widths.fractionMarks rest
  return ((hour, minute, second, nanos), rest)

/-- A date, the given mark, a time and an offset. -/
def parseWith? (widths : FieldWidths) (mark : Char) (text : String) : Option Timestamp := do
  let (date, rest) ← date? widths text.toList
  let rest ← expect? mark rest
  let ((hour, minute, second, nanos), rest) ← clock? widths rest
  let offset ← zone? widths.maxZoneHour widths.maxZoneMinute rest
  return ofClock date hour minute second nanos offset

def parse? (text : String) : Option Timestamp := parseWith? interchange 'T' text

end Timestamp

end ClasspathAudit
