import Reporting.Calendar.Iso
import Reporting.Sql.Numeral

/-!
# Casting text to dates and times

Dates reach from `-5877641-06-25` to `5881580-07-10`, counted in days from the first of January
1970, and a moment is counted in microseconds from there in 64 bits.  Both have infinities.

A date is a year, a month and a day with the same mark between them, perhaps followed by `(BC)`.
What follows a date is left to the reader of it, only not a digit.  A moment is a date, perhaps a
time of day, perhaps a zone: `Z`, an offset from it, or the name `UTC` after a space.
-/

namespace Reporting

namespace Sql

/-- A day, counted from the first of January 1970, or an infinite date. -/
inductive Day where
  | day (n : Int)
  | infinite
  deriving DecidableEq

/-- A moment in microseconds from the start of 1970, or an infinite one. -/
inductive Moment where
  | finite (microseconds : Int)
  | infinite
  deriving DecidableEq

/-- The number of microseconds in a second. -/
def microsecondsPerSecond : Int := 1000000

/-- The number of microseconds in a day. -/
def microsecondsPerDay : Int := 86400000000

/-- The last day. -/
def lastDay : Int := 2147483646

/-- The day of a year, a month and a day of the month, if there is one. -/
def dayOf? (c : Civil) : Option Int :=
  let n := c.dayNumber
  if c.isValid && -lastDay ≤ n && n ≤ lastDay then some n else none

/-- Read a mark of era, `(BC)` in any letter case after a space. -/
def takeEra (cs : List Char) : Bool × List Char :=
  match cs with
  | s :: '(' :: b :: c :: ')' :: rest =>
    if isSpace s && b.toLower = 'b' && c.toLower = 'c' then (true, rest) else (false, cs)
  | cs => (false, cs)

/-- Read a year, a month and a day. -/
def civil? (negative : Bool) (cs : List Char) : Option (Civil × List Char) := do
  let (ds, cs) := Text.spanDigits cs
  match cs with
  | mark :: cs =>
    if mark = '-' || mark = '/' || mark = ' ' || mark = '\\' then do
      let (month, cs) ← Calendar.number? 2 cs
      let cs ← Calendar.char? mark cs
      let (day, cs) ← Calendar.number? 2 cs
      let year : Int := Text.numeralValue ds
      match takeEra cs with
      | (true, cs) => if negative || year = 0 then none else some (⟨1 - year, month, day⟩, cs)
      | (false, cs) => some (⟨if negative then -year else year, month, day⟩, cs)
    else none
  | [] => none

/-- The day that a text names, alone but for spaces at its end. -/
def namedDay? (cs : List Char) : Option Day :=
  let name := (cs.takeWhile Char.isAlpha).map Char.toLower
  if !isDone (cs.dropWhile Char.isAlpha) then none
  else if name = "infinity".toList then some .infinite
  else if name = "epoch".toList then some (.day 0)
  else none

/-- Read a date after spaces.  No digit may follow it. -/
def day? (cs : List Char) : Option (Day × List Char) :=
  let (negative, cs) :=
    match dropSpaces cs with
    | '-' :: rest => (true, rest)
    | rest => (false, rest)
  if (cs.head?.map Char.isDigit).getD false then do
    let (civil, rest) ← civil? negative cs
    if (rest.head?.map Char.isDigit).getD false then none
    else (dayOf? civil).map fun n => (.day n, rest)
  else (namedDay? cs).map fun day => (day, [])

/-- The microseconds that the digits behind a second's point make, those beyond the sixth left
out. -/
def microseconds (ds : List Char) : Nat :=
  Text.numeralValue ((ds ++ List.replicate 6 '0').take 6)

/-- Read a time of day after spaces: an hour of up to nine digits and minutes, and seconds with a
fraction unless the text ends there.  It is counted in microseconds and need not lie within a
day. -/
def time? (cs : List Char) : Option (Int × List Char) := do
  let (ds, cs) := Text.spanDigits (dropSpaces cs)
  let cs ← Calendar.char? ':' cs
  let (minute, cs) ← Calendar.number? 2 cs
  if ds.isEmpty || 9 < ds.length || 59 < minute then none
  else
    let minutes : Int := 60 * Text.numeralValue ds + minute
    match cs with
    | [] => some (minutes * 60 * microsecondsPerSecond, [])
    | ':' :: cs => do
      let (second, cs) ← Calendar.number? 2 cs
      let (fraction, cs) :=
        match cs with
        | '.' :: cs => Text.spanDigits cs
        | cs => ([], cs)
      if 59 < second then none
      else some ((minutes * 60 + second) * microsecondsPerSecond + microseconds fraction, cs)
    | _ => none

/-- Read two digits of an offset, perhaps after a colon, which is read even where no digits
follow. -/
def offsetPart (cs : List Char) : Option Nat × List Char :=
  let cs :=
    match cs with
    | ':' :: rest => rest
    | cs => cs
  match Calendar.exactNumber? 2 cs with
  | some (n, rest) => (some n, rest)
  | none => (none, cs)

/-- Read an offset in seconds: a sign, hours, and perhaps minutes, and perhaps seconds. -/
def offset? (cs : List Char) : Option (Int × List Char) :=
  match cs with
  | sign :: cs =>
    if sign = '+' || sign = '-' then do
      let (hours, cs) ← Calendar.exactNumber? 2 cs
      let total (minutes seconds : Nat) : Int :=
        let n : Int := 3600 * hours + 60 * minutes + seconds
        if sign = '-' then -n else n
      match offsetPart cs with
      | (none, cs) => some (total 0 0, cs)
      | (some minutes, cs) =>
        let (seconds, cs) := offsetPart cs
        some (total minutes (seconds.getD 0), cs)
    else none
  | [] => none

/-- The characters of the names of zones. -/
def isZoneName (c : Char) : Bool :=
  c.isAlphanum || c = '_' || c = '/' || c = '+' || c = '-'

/-- Read a zone: its offset in seconds, zero for `Z`, for `UTC` and for none at all. -/
def zone? (cs : List Char) : Option (Int × List Char) :=
  match cs with
  | 'Z' :: rest => some (0, rest)
  | ' ' :: rest =>
    let name := (rest.takeWhile isZoneName).map Char.toLower
    if name = [] ∨ name = "utc".toList then some (0, rest.dropWhile isZoneName) else none
  | cs =>
    match offset? cs with
    | some zone => some zone
    | none => some (0, cs)

/-- A finite moment, if 64 bits hold it and it is not one of the infinite ones. -/
def Moment.ofMicroseconds? (n : Int) : Option Moment :=
  let greatest := IntegerType.big.greatest
  if -greatest < n && n < greatest || n = IntegerType.big.least then some (.finite n) else none

/-- The moment that a text denotes. -/
def Moment.read? (cs : List Char) : Option Moment := do
  let (day, rest) ← day? cs
  match day, rest with
  | .infinite, _ => some .infinite
  | .day n, [] => ofMicroseconds? (n * microsecondsPerDay)
  | .day n, mark :: more => do
    let (time, rest) ← time? (if mark = ' ' ∨ mark = 'T' then more else mark :: more)
    if microsecondsPerDay < time then none
    else do
      let _ ← ofMicroseconds? (n * microsecondsPerDay)
      let _ ← ofMicroseconds? (n * microsecondsPerDay + time)
      let (offset, rest) ← zone? rest
      let n := n * microsecondsPerDay + time - offset * microsecondsPerSecond
      if isDone rest && IntegerType.big.holds n then some (.finite n) else none

/-- Whether a text denotes a date. -/
def isDate (cs : List Char) : Bool :=
  (day? cs).isSome

/-- Whether a text denotes a time of day: one at its start, or that of a finite moment. -/
def isTime (cs : List Char) : Bool :=
  match time? cs with
  | some (n, _) => n ≤ microsecondsPerDay
  | none =>
    match Moment.read? cs with
    | some (.finite _) => true
    | _ => false

/-- Whether a text denotes a moment. -/
def isTimestamp (cs : List Char) : Bool :=
  (Moment.read? cs).isSome

/-- Whether a text denotes a moment that 64 bits hold in nanoseconds. -/
def isNanoTimestamp (cs : List Char) : Bool :=
  match Moment.read? cs with
  | some (.finite n) => IntegerType.big.holds (n * 1000)
  | some .infinite => true
  | none => false

end Sql

end Reporting
