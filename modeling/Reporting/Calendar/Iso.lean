import Reporting.Calendar.Date
import Reporting.Text.Blank
import Reporting.Text.Numeral

/-!
# Dates in text

Three forms of a date are read, and tried in this order: a plain date, a timestamp with a time of
day and a zone, and a date-time without a zone.  The date of a timestamp is the one written in it,
whatever its zone.

`isoChars` writes the plain form, with a sign when the year has not four digits.
-/

namespace Reporting

namespace Calendar

/-- Read a character. -/
def char? (c : Char) : List Char → Option (List Char)
  | [] => none
  | d :: rest => if d = c then some rest else none

/-- Read a number of one digit or more, at most `width`. -/
def number? (width : Nat) (cs : List Char) : Option (Nat × List Char) :=
  let (ds, rest) := Text.spanDigitsUpTo width cs
  if ds.isEmpty then none else some (Text.numeralValue ds, rest)

/-- Read a number of exactly `width` digits. -/
def exactNumber? (width : Nat) (cs : List Char) : Option (Nat × List Char) :=
  let (ds, rest) := Text.spanDigitsUpTo width cs
  if ds.length = width then some (Text.numeralValue ds, rest) else none

/-- Read a year after blanks: any number of digits after a sign, otherwise up to four. -/
def year? (cs : List Char) : Option (Int × List Char) :=
  match Text.trimStart cs with
  | '-' :: rest => do
    let (n, rest) ← number? rest.length rest
    some (-n, rest)
  | '+' :: rest => do
    let (n, rest) ← number? rest.length rest
    some (n, rest)
  | cs => do
    let (n, rest) ← number? 4 cs
    some (n, rest)

/-- Read a number of one or two digits after blanks. -/
def part? (cs : List Char) : Option (Nat × List Char) :=
  number? 2 (Text.trimStart cs)

/-- Read the digits of a fraction of a second after a point, if there is a point. -/
def fraction? (cs : List Char) : Option (List Char × List Char) :=
  match cs with
  | '.' :: rest =>
    let (ds, rest) := Text.spanDigits rest
    if ds.isEmpty then none else some (ds, rest)
  | cs => some ([], cs)

/-- Whether there is such a time of day.  A second may be a leap second. -/
def isTime (hour minute second : Nat) : Bool :=
  hour ≤ 23 && minute ≤ 59 && second ≤ 60

/-- Read the character between a date and a time of day. -/
def betweenDateAndTime? : List Char → Option (List Char)
  | c :: rest => if c = 'T' || c = 't' || c = ' ' then some rest else none
  | [] => none

/-- Read a year, a month and a day with hyphens between them. -/
def civil? (cs : List Char) : Option (Civil × List Char) := do
  let (year, cs) ← year? cs
  let cs ← char? '-' cs
  let (month, cs) ← part? cs
  let cs ← char? '-' cs
  let (day, cs) ← part? cs
  some (⟨year, month, day⟩, cs)

/-- A plain date. -/
def plainDate? (cs : List Char) : Option Date := do
  let (civil, rest) ← civil? cs
  if rest.isEmpty then Date.ofCivil? civil else none

/-- Read the zone of a timestamp: `Z`, or a sign, two digits, a colon and two digits. -/
def zone? : List Char → Option (List Char)
  | [] => none
  | c :: cs =>
    if c = 'Z' || c = 'z' then some cs
    else if c = '+' || c = '-' || c = '\u2212' then do
      let (hours, cs) ← exactNumber? 2 cs
      let cs ← char? ':' cs
      let (minutes, cs) ← exactNumber? 2 cs
      if hours ≤ 23 && minutes ≤ 59 then some cs else none
    else none

/-- The date of a timestamp with numbers of fixed width and a zone. -/
def timestamp? (cs : List Char) : Option Date := do
  let (year, cs) ← exactNumber? 4 cs
  let cs ← char? '-' cs
  let (month, cs) ← exactNumber? 2 cs
  let cs ← char? '-' cs
  let (day, cs) ← exactNumber? 2 cs
  let cs ← betweenDateAndTime? cs
  let (hour, cs) ← exactNumber? 2 cs
  let cs ← char? ':' cs
  let (minute, cs) ← exactNumber? 2 cs
  let cs ← char? ':' cs
  let (second, cs) ← exactNumber? 2 cs
  let (_, cs) ← fraction? cs
  let rest ← zone? cs
  if isTime hour minute second && rest.isEmpty then Date.ofCivil? ⟨year, month, day⟩ else none

/-- The date of a date-time without a zone. -/
def dateTime? (cs : List Char) : Option Date := do
  let (civil, cs) ← civil? cs
  let cs ← char? 'T' cs
  let (hour, cs) ← part? cs
  let cs ← char? ':' cs
  let (minute, cs) ← part? cs
  let cs ← char? ':' cs
  let (second, cs) ← part? cs
  let (_, rest) ← fraction? cs
  if isTime hour minute second && rest.isEmpty then Date.ofCivil? civil else none

/-- A year in at least four digits, with a sign in front when it has not exactly four. -/
def yearChars (year : Int) : List Char :=
  if 0 ≤ year ∧ year ≤ 9999 then Text.zeroPadded 4 year.natAbs
  else (if year < 0 then '-' else '+') :: Text.zeroPadded 4 year.natAbs

end Calendar

/-- The date in a text, in any of the three forms. -/
def Date.read? (cs : List Char) : Option Date :=
  Calendar.plainDate? cs <|> Calendar.timestamp? cs <|> Calendar.dateTime? cs

/-- The plain form of a date. -/
def Date.isoChars (d : Date) : List Char :=
  Calendar.yearChars d.civil.year ++ '-' :: (Text.zeroPadded 2 d.civil.month
    ++ '-' :: Text.zeroPadded 2 d.civil.day)

end Reporting
