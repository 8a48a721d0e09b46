import Reporting.Calendar.Iso

/-!
# Moments

A moment is a second counted from the start of 1970 in universal time, with a fraction in
nanoseconds.  A fraction of a whole second or more stands for the leap second after that second.

Moments are read from timestamps in a lenient form: blanks may stand around the numbers, and the
colon of the zone may be missing.  They are written in universal time.
-/

namespace Reporting

/-- A moment in time. -/
structure Instant where
  second : Int
  nanosecond : Nat
  deriving DecidableEq

namespace Instant

/-- The moment at a number of milliseconds from the start of 1970. -/
def ofMilliseconds (n : Int) : Instant :=
  ⟨n / 1000, (n % 1000).toNat * 1000000⟩

/-- The whole milliseconds from the start of 1970. -/
def milliseconds (t : Instant) : Int :=
  t.second * 1000 + t.nanosecond / 1000000

/-- The nanoseconds that the digits of a fraction stand for; digits after the ninth are dropped. -/
def nanosecondsOf (fraction : List Char) : Nat :=
  let ds := fraction.take 9
  Text.numeralValue ds * Nat.pow 10 (9 - ds.length)

/-- Read a colon after blanks. -/
def colon? (cs : List Char) : Option (List Char) :=
  Calendar.char? ':' (Text.trimStart cs)

/-- Read a hyphen after blanks. -/
def hyphen? (cs : List Char) : Option (List Char) :=
  Calendar.char? '-' (Text.trimStart cs)

/-- Read a zone: `Z`, `UTC`, or a sign and two numbers of two digits with any colons and blanks
between them.  The zone is its distance from universal time in seconds. -/
def zone? (cs : List Char) : Option (Int × List Char) :=
  if (cs.take 3).map Char.toUpper = "UTC".toList then some (0, cs.drop 3)
  else
    match cs with
    | [] => none
    | c :: cs =>
      if c = 'Z' || c = 'z' then some (0, cs)
      else if c = '+' || c = '-' || c = '\u2212' then do
        let (hours, cs) ← Calendar.exactNumber? 2 cs
        let cs := cs.dropWhile fun c => c = ':' || Text.isBlank c
        let (minutes, cs) ← Calendar.exactNumber? 2 cs
        if hours < 24 && minutes ≤ 59 then
          let seconds : Int := hours * 3600 + minutes * 60
          some (if c = '+' then seconds else -seconds, cs)
        else none
      else none

/-- The moment of a timestamp. -/
def read? (cs : List Char) : Option Instant := do
  let (year, cs) ← Calendar.year? cs
  let cs ← hyphen? cs
  let (month, cs) ← Calendar.part? cs
  let cs ← hyphen? cs
  let (day, cs) ← Calendar.part? cs
  let cs ← Calendar.betweenDateAndTime? cs
  let (hour, cs) ← Calendar.part? cs
  let cs ← colon? cs
  let (minute, cs) ← Calendar.part? cs
  let cs ← colon? cs
  let (second, cs) ← Calendar.part? cs
  let (fraction, cs) ← Calendar.fraction? cs
  let (zone, rest) ← zone? (Text.trimStart cs)
  let date ← Date.ofCivil? ⟨year, month, day⟩
  if Calendar.isTime hour minute second && (Text.trimStart rest).isEmpty then
    let leap := second = 60
    let written : Int :=
      date.dayNumber * 86400 + hour * 3600 + minute * 60 + (if leap then 59 else second)
    let moment := written - zone
    if (Date.ofDayNumber? (moment / 86400)).isSome then
      some ⟨moment, nanosecondsOf fraction + (if leap then 1000000000 else 0)⟩
    else none
  else none

/-- The digits of a fraction of a second: none, or as many groups of three as it needs. -/
def fractionChars (nanosecond : Nat) : List Char :=
  if nanosecond = 0 then []
  else if nanosecond % 1000000 = 0 then '.' :: Text.zeroPadded 3 (nanosecond / 1000000)
  else if nanosecond % 1000 = 0 then '.' :: Text.zeroPadded 6 (nanosecond / 1000)
  else '.' :: Text.zeroPadded 9 nanosecond

/-- The timestamp of a moment in universal time. -/
def chars (t : Instant) : List Char :=
  let civil := Civil.ofDayNumber (t.second / 86400)
  let time := (t.second % 86400).toNat
  let leap := if 1000000000 ≤ t.nanosecond then 1 else 0
  Calendar.yearChars civil.year ++ '-' :: (Text.zeroPadded 2 civil.month
    ++ '-' :: (Text.zeroPadded 2 civil.day
    ++ 'T' :: (Text.zeroPadded 2 (time / 3600)
    ++ ':' :: (Text.zeroPadded 2 (time / 60 % 60)
    ++ ':' :: (Text.zeroPadded 2 (time % 60 + leap)
    ++ (fractionChars (t.nanosecond % 1000000000) ++ ['Z']))))))

end Instant

end Reporting
