import Eligibility.Number.Numeral
import Eligibility.Text.Blank

/-!
# Instants

An instant is a point in time to the nanosecond, counted from the beginning of 1970 in UTC. It
is written as a date and a time of day in UTC (`Instant.toText`), with 0, 3, 6 or 9 digits
after the seconds, the fewest that lose nothing. `Instant.ofText?` reads a date, a time of day
and an offset, with single digits and blanks before the numbers allowed. It is one
`InstantReader`; a stored rule may be read with another.

A leap second is the second after second 59 of a minute, and is kept as a part of the second
before it.

A call that needs the time is given a `Clock`, which says what each of its looks at the time
shows.
-/

namespace Eligibility

/-! ## The calendar -/

/-- The days from the first of January 1970 to a day of the calendar. Years are counted from
March, so that the leap day is the last of a year, in eras of 400 years. -/
def daysOfDate (year : Int) (month day : Nat) : Int :=
  let year := if month ≤ 2 then year - 1 else year
  let era := year / 400
  let yearOfEra := year - era * 400
  let dayOfYear := (153 * (((month : Int) + 9) % 12) + 2) / 5 + day - 1
  era * 146097 + yearOfEra * 365 + yearOfEra / 4 - yearOfEra / 100 + dayOfYear - 719468

/-- The year, month and day that a number of days from the first of January 1970 leads to. -/
def dateOfDays (days : Int) : Int × Nat × Nat :=
  let days := days + 719468
  let era := days / 146097
  let dayOfEra := days - era * 146097
  let yearOfEra := (dayOfEra - dayOfEra / 1460 + dayOfEra / 36524 - dayOfEra / 146096) / 365
  let dayOfYear := dayOfEra - (365 * yearOfEra + yearOfEra / 4 - yearOfEra / 100)
  let monthFromMarch := (5 * dayOfYear + 2) / 153
  let day := dayOfYear - (153 * monthFromMarch + 2) / 5 + 1
  let month := if monthFromMarch < 10 then monthFromMarch + 3 else monthFromMarch - 9
  (yearOfEra + era * 400 + (if month ≤ 2 then 1 else 0), month.toNat, day.toNat)

/-- Whether a year has a day of that number in that month. -/
def isDate (year : Int) (month day : Nat) : Bool :=
  1 ≤ month && month ≤ 12 && 1 ≤ day && dateOfDays (daysOfDate year month day) == (year, month, day)

/-- The years that instants may lie in. -/
def isYear (year : Int) : Bool :=
  -262143 ≤ year && year ≤ 262142

/-! ## Instants as text -/

/-- A point in time. The nanoseconds of a leap second go on from `10 ^ 9`. -/
structure Instant where
  seconds : Int
  nanoseconds : Nat
  deriving DecidableEq

namespace Instant

/-- The milliseconds since the beginning of 1970. -/
def milliseconds (t : Instant) : Int :=
  t.seconds * 1000 + t.nanoseconds / 1000000

/-- A number with at least so many digits. -/
def padded (width n : Nat) : List Char :=
  let digits := Nat.toDigits 10 n
  List.replicate (width - digits.length) '0' ++ digits

/-- A year, with a sign if it has not four digits. -/
def yearText (year : Int) : List Char :=
  if 0 ≤ year ∧ year ≤ 9999 then padded 4 year.toNat
  else (if year < 0 then '-' else '+') :: padded 4 year.natAbs

/-- A part of a second. -/
def fractionText (nanoseconds : Nat) : List Char :=
  if nanoseconds = 0 then []
  else if nanoseconds % 1000000 = 0 then '.' :: padded 3 (nanoseconds / 1000000)
  else if nanoseconds % 1000 = 0 then '.' :: padded 6 (nanoseconds / 1000)
  else '.' :: padded 9 nanoseconds

/-- The instant in UTC. -/
def toText (t : Instant) : String :=
  let (year, month, day) := dateOfDays (t.seconds / 86400)
  let time := (t.seconds % 86400).toNat
  let second := time % 60 + t.nanoseconds / 1000000000
  String.ofList
    (yearText year ++ '-' :: padded 2 month ++ '-' :: padded 2 day ++
      'T' :: padded 2 (time / 3600) ++ ':' :: padded 2 (time / 60 % 60) ++ ':' :: padded 2 second ++
      fractionText (t.nanoseconds % 1000000000) ++ ['Z'])

/-! ## Reading instants -/

/-- Passes over blanks. -/
def skipBlanks (text : List Char) : List Char :=
  text.dropWhile isBlank

/-- Reads one character. -/
def cutChar? (c : Char) : List Char → Option (List Char)
  | [] => none
  | d :: rest => if c = d then some rest else none

/-- Reads a number of at most so many digits. -/
def cutNatural? (most : Nat) (text : List Char) : Option (Nat × List Char) :=
  match (text.take most).takeWhile Char.isDigit with
  | [] => none
  | digits => some (digitsValue digits, text.drop digits.length)

/-- Reads a year: four digits at most, or any number of them after a sign. -/
def cutYear? (text : List Char) : Option (Int × List Char) :=
  match text with
  | '-' :: rest => (cutNatural? rest.length rest).map fun (n, rest) => (-n, rest)
  | '+' :: rest => (cutNatural? rest.length rest).map fun (n, rest) => (n, rest)
  | text => (cutNatural? 4 text).map fun (n, rest) => (n, rest)

/-- Reads an optional part of a second, in nanoseconds; what goes beyond them is dropped. -/
def cutFraction? : List Char → Option (Nat × List Char)
  | '.' :: rest =>
    match rest.takeWhile Char.isDigit with
    | [] => none
    | digits =>
      some (digitsValue ((digits ++ List.replicate 9 '0').take 9), rest.dropWhile Char.isDigit)
  | text => some (0, text)

/-- Reads two digits. -/
def cutTwoDigits? : List Char → Option (Nat × List Char)
  | a :: b :: rest => if a.isDigit && b.isDigit then some (digitsValue [a, b], rest) else none
  | _ => none

/-- Reads an offset from UTC, in seconds: `UTC`, `Z`, or a sign with hours and minutes. -/
def cutOffset? (text : List Char) : Option (Int × List Char) :=
  if (text.take 3).map Char.toUpper = ['U', 'T', 'C'] then some (0, text.drop 3)
  else
    match text with
    | 'Z' :: rest | 'z' :: rest => some (0, rest)
    | sign :: rest => do
      guard (sign = '+' ∨ sign = '-' ∨ sign = '\u2212')
      let (hours, rest) ← cutTwoDigits? rest
      let (minutes, rest) ← cutTwoDigits? (rest.dropWhile fun c => c == ':' || isBlank c)
      let size : Int := 3600 * hours + 60 * minutes
      guard (minutes < 60 ∧ size < 86400)
      return (if sign = '+' then size else -size, rest)
    | [] => none

/-- Reads a date and a time of day with an offset from UTC. -/
def ofText? (text : String) : Option Instant := do
  let (year, rest) ← cutYear? (skipBlanks text.toList)
  let (month, rest) ← cutNatural? 2 (skipBlanks (← cutChar? '-' (skipBlanks rest)))
  let (day, rest) ← cutNatural? 2 (skipBlanks (← cutChar? '-' (skipBlanks rest)))
  let separator :: rest := rest | none
  guard (separator = 'T' ∨ separator = 't' ∨ separator = ' ')
  let (hour, rest) ← cutNatural? 2 (skipBlanks rest)
  let (minute, rest) ← cutNatural? 2 (skipBlanks (← cutChar? ':' (skipBlanks rest)))
  let (second, rest) ← cutNatural? 2 (skipBlanks (← cutChar? ':' (skipBlanks rest)))
  let (fraction, rest) ← cutFraction? rest
  let (offset, rest) ← cutOffset? (skipBlanks rest)
  let leap : Nat := if second = 60 then 1 else 0
  let seconds :=
    daysOfDate year month day * 86400 + 3600 * hour + 60 * minute + second - leap - offset
  guard (rest.all isBlank && isYear year && isDate year month day && hour < 24 && minute < 60 &&
    second ≤ 60 && isYear (dateOfDays (seconds / 86400)).1)
  return ⟨seconds, leap * 1000000000 + fraction⟩

end Instant

/-- How instants are read. -/
class InstantReader where
  /-- The instant that a text is read as, if it is not refused. -/
  read? : String → Option Instant

namespace InstantReader

/-- The reader where no other is given. -/
instance ofText : InstantReader := ⟨Instant.ofText?⟩

/-- An instant is read from its own text. -/
def Keeps [InstantReader] (t : Instant) : Prop := read? t.toText = some t

end InstantReader

/-! ## Clocks -/

/-- The readings of a clock, one after the other. They may repeat and go backwards. -/
structure Clock where
  reading : Nat → Instant

namespace Clock

/-- The next reading. -/
def now (clock : Clock) : Instant := clock.reading 0

/-- The clock after its next reading. -/
def tick (clock : Clock) : Clock := ⟨fun n => clock.reading (n + 1)⟩

/-- The clock that shows one instant at all times. -/
def stopped (t : Instant) : Clock := ⟨fun _ => t⟩

instance : Coe Instant Clock := ⟨stopped⟩

end Clock

end Eligibility
