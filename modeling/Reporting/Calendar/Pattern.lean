import Reporting.Calendar.Iso
import Reporting.Calendar.Week

/-!
# Date patterns

A pattern is a text in which a percent sign introduces a specifier: a part of the date, possibly
with a change of its padding, or a short form for several parts.  Some specifiers need a time of
day or a zone, which a date does not have, and some texts after a percent sign are no specifier at
all.

`Pattern.isWellFormed` asks for the absence of the last kind only; `Pattern.render?` needs both
kinds to be absent.
-/

namespace Reporting

/-- How a number is filled up to its width. -/
inductive Padding where
  | bare
  | zeros
  | blanks
  deriving DecidableEq

/-- A part of a date that is written as a number. -/
inductive DatePart where
  | year
  | century
  | yearOfCentury
  | isoYear
  | isoYearOfCentury
  | quarter
  | month
  | day
  | sundayWeek
  | mondayWeek
  | isoWeek
  | weekdayFromSunday
  | weekdayFromMonday
  | dayOfYear
  deriving DecidableEq

/-- A piece of a pattern. -/
inductive PatternItem where
  | literal (c : Char)
  | number (part : DatePart) (padding : Padding)
  | monthName (short : Bool)
  | weekdayName (short : Bool)
  /-- A specifier that needs a time of day or a zone. -/
  | beyondDate
  /-- A percent sign without a specifier. -/
  | malformed
  deriving DecidableEq

namespace Pattern

/-- The specifiers of single numbers, with their usual padding. -/
def datePart? (c : Char) : Option (DatePart × Padding) :=
  match c with
  | 'Y' => some (.year, .zeros)
  | 'C' => some (.century, .zeros)
  | 'y' => some (.yearOfCentury, .zeros)
  | 'G' => some (.isoYear, .zeros)
  | 'g' => some (.isoYearOfCentury, .zeros)
  | 'q' => some (.quarter, .zeros)
  | 'm' => some (.month, .zeros)
  | 'd' => some (.day, .zeros)
  | 'e' => some (.day, .blanks)
  | 'U' => some (.sundayWeek, .zeros)
  | 'W' => some (.mondayWeek, .zeros)
  | 'V' => some (.isoWeek, .zeros)
  | 'w' => some (.weekdayFromSunday, .zeros)
  | 'u' => some (.weekdayFromMonday, .zeros)
  | 'j' => some (.dayOfYear, .zeros)
  | _ => none

/-- The specifiers of single numbers that belong to a time of day. -/
def isClockNumber (c : Char) : Bool :=
  "HIMSfkls".toList.contains c

/-- The other specifiers that need a time of day or a zone. -/
def isClockText (c : Char) : Bool :=
  "PRTXZcprz+".toList.contains c

/-- Month, day and year of the century with slashes between them. -/
def slashed : List PatternItem :=
  [.number .month .zeros, .literal '/', .number .day .zeros, .literal '/',
    .number .yearOfCentury .zeros]

/-- Year, month and day with hyphens between them. -/
def hyphened : List PatternItem :=
  [.number .year .zeros, .literal '-', .number .month .zeros, .literal '-', .number .day .zeros]

/-- Day, short month name and year with hyphens between them. -/
def named : List PatternItem :=
  [.number .day .blanks, .literal '-', .monthName true, .literal '-', .number .year .zeros]

/-- The items of a specifier of one character. -/
def specifier (c : Char) : List PatternItem :=
  match datePart? c with
  | some (part, padding) => [.number part padding]
  | none =>
    if isClockNumber c || isClockText c then [.beyondDate]
    else
      match c with
      | 'A' => [.weekdayName false]
      | 'a' => [.weekdayName true]
      | 'B' => [.monthName false]
      | 'b' => [.monthName true]
      | 'h' => [.monthName true]
      | 'D' => slashed
      | 'x' => slashed
      | 'F' => hyphened
      | 'v' => named
      | 'n' => [.literal '\n']
      | 't' => [.literal '\t']
      | '%' => [.literal '%']
      | _ => [.malformed]

/-- Where the reader of a pattern stands. -/
inductive Mode where
  | plain
  | percent
  | padded (padding : Padding)
  | alternate
  | colons (count : Nat)
  | point
  | fraction
  deriving DecidableEq

/-- Go over one character after a percent sign. -/
def afterPercent (c : Char) : Mode × List PatternItem :=
  match c with
  | '-' => (.padded .bare, [])
  | '0' => (.padded .zeros, [])
  | '_' => (.padded .blanks, [])
  | '#' => (.alternate, [])
  | ':' => (.colons 1, [])
  | '.' => (.point, [])
  | '3' => (.fraction, [])
  | '6' => (.fraction, [])
  | '9' => (.fraction, [])
  | _ => (.plain, specifier c)

/-- Go over one character, with the items that end there. -/
def step : Mode → Char → Mode × List PatternItem
  | .plain, c => if c = '%' then (.percent, []) else (.plain, [.literal c])
  | .percent, c => afterPercent c
  | .padded padding, c =>
    match datePart? c with
    | some (part, _) => (.plain, [.number part padding])
    | none => (.plain, [if isClockNumber c then .beyondDate else .malformed])
  | .alternate, c => (.plain, [if c = 'z' then .beyondDate else .malformed])
  | .colons count, c =>
    if c = ':' ∧ count < 3 then (.colons (count + 1), [])
    else (.plain, [if c = 'z' then .beyondDate else .malformed])
  | .point, c =>
    if c = '3' ∨ c = '6' ∨ c = '9' then (.fraction, [])
    else (.plain, [if c = 'f' then .beyondDate else .malformed])
  | .fraction, c => (.plain, [if c = 'f' then .beyondDate else .malformed])

/-- The items of a pattern from some mode on.  A pattern that ends within a specifier is
malformed. -/
def itemsFrom : Mode → List Char → List PatternItem
  | .plain, [] => []
  | _, [] => [.malformed]
  | mode, c :: rest =>
    let (mode, items) := step mode c
    items ++ itemsFrom mode rest

/-- The items of a pattern. -/
def items (pattern : String) : List PatternItem :=
  itemsFrom .plain pattern.toList

/-- Whether every percent sign introduces a specifier. -/
def isWellFormed (pattern : String) : Bool :=
  (items pattern).all fun item => item ≠ .malformed

/-- The English names of the months. -/
def monthNames : List String :=
  ["January", "February", "March", "April", "May", "June", "July", "August", "September",
    "October", "November", "December"]

/-- The English names of the days of the week. -/
def weekdayNames : List String :=
  ["Monday", "Tuesday", "Wednesday", "Thursday", "Friday", "Saturday", "Sunday"]

/-- A name, or its first three letters. -/
def nameChars (names : List String) (index : Nat) (short : Bool) : List Char :=
  let name := (names.getD index "").toList
  if short then name.take 3 else name

/-- A number below 256 in two places; the tens go on after nine with the next characters. -/
def twoPlaces (n : Nat) (padding : Padding) : List Char :=
  let ones := Char.ofNat ('0'.toNat + n % 10)
  let tens := Char.ofNat ('0'.toNat + n / 10)
  if n / 10 = 0 then
    match padding with
    | .bare => [ones]
    | .zeros => ['0', ones]
    | .blanks => [' ', ones]
  else [tens, ones]

/-- A number filled up to a width. -/
def padded (width : Nat) (padding : Padding) (cs : List Char) : List Char :=
  match padding with
  | .bare => cs
  | .zeros => Text.padLeft '0' width cs
  | .blanks => Text.padLeft ' ' width cs

/-- A year in four places.  Outside the years 0 to 9999 a sign takes a fifth place, in front of
zeros and behind blanks. -/
def yearText (year : Int) (padding : Padding) : List Char :=
  let ds := Text.digits year.natAbs
  let sign := if year < 0 then '-' else '+'
  if 0 ≤ year ∧ year ≤ 9999 then padded 4 padding ds
  else
    match padding with
    | .zeros => sign :: Text.padLeft '0' 4 ds
    | _ => padded 5 padding (sign :: ds)

/-- The text of a part of a date.  The century is kept modulo 256. -/
def partText (d : Date) (part : DatePart) (padding : Padding) : List Char :=
  match part with
  | .year => yearText d.civil.year padding
  | .century => twoPlaces (d.civil.year / 100 % 256).toNat padding
  | .yearOfCentury => twoPlaces (d.civil.year % 100).toNat padding
  | .isoYear => yearText d.isoYear padding
  | .isoYearOfCentury => twoPlaces (d.isoYear % 100).toNat padding
  | .quarter => Text.digits d.quarter
  | .month => twoPlaces d.civil.month padding
  | .day => twoPlaces d.civil.day padding
  | .sundayWeek => twoPlaces d.sundayWeek padding
  | .mondayWeek => twoPlaces d.mondayWeek padding
  | .isoWeek => twoPlaces d.isoWeek padding
  | .weekdayFromSunday => Text.digits d.sinceSunday
  | .weekdayFromMonday => Text.digits (d.sinceMonday + 1)
  | .dayOfYear => padded 3 padding (Text.digits d.dayOfYear)

/-- The text of an item for a date. -/
def itemText? (d : Date) : PatternItem → Option (List Char)
  | .literal c => some [c]
  | .number part padding => some (partText d part padding)
  | .monthName short => some (nameChars monthNames (d.civil.month - 1) short)
  | .weekdayName short => some (nameChars weekdayNames d.sinceMonday short)
  | .beyondDate => none
  | .malformed => none

/-- The text of some items for a date, if each of them has one. -/
def itemsText? (d : Date) : List PatternItem → Option (List Char)
  | [] => some []
  | item :: rest => do
    let text ← itemText? d item
    let more ← itemsText? d rest
    some (text ++ more)

/-- A date in the form of a pattern, if a date can be written so. -/
def render? (pattern : String) (d : Date) : Option (List Char) :=
  itemsText? d (items pattern)

end Pattern

end Reporting
