import Reporting.Binary64.Decimal
import Reporting.Sql.Numeral

/-!
# Casting text to floating-point numbers

A floating-point number is written like a numeral, with an exponent of any size, or by the name of
an infinity or of the undefined number.  A plus sign may stand in front of all, also of a minus
sign.  The number denoted is rounded once.

Numbers of more than nineteen digits are weighed by their first nineteen.  Underscores count among
the digits before the point there, and one that is met within the nineteen stands where the point
would stand.  If the digits behind could matter, the text is weighed once more, up to its first
underscore.
-/

namespace Reporting

/-- A number as it is written, with its underscores. -/
structure FloatText where
  negative : Bool
  whole : List Char
  fraction : List Char
  exponent : Int

namespace FloatText

/-- The part of a text in front of its rest. -/
def before (cs rest : List Char) : List Char :=
  cs.take (cs.length - rest.length)

/-- Digits without the underscores between them. -/
def digits (cs : List Char) : List Char :=
  cs.filter fun c => c ≠ '_'

/-- Read an exponent if there is one. -/
def exponent? (cs : List Char) : Option (Int × List Char) :=
  match cs with
  | [] => some (0, [])
  | e :: more =>
    if e = 'e' ∨ e = 'E' then do
      let (negative, body) := Sql.takeSign more
      let (ds, rest) ← Sql.digitGroups? Char.isDigit body
      let n : Int := Text.numeralValue ds
      if ds.isEmpty then none else some (if negative then -n else n, rest)
    else some (0, cs)

/-- Read a number to the end of the text or to spaces at its end. -/
def read? (cs : List Char) : Option FloatText := do
  let (negative, body) :=
    match cs with
    | '-' :: rest => (true, rest)
    | rest => (false, rest)
  let ((wholeDigits, fractionDigits), rest) ← Sql.mantissa? body
  if wholeDigits.isEmpty && fractionDigits.isEmpty then none
  else
    let text := before body rest
    let whole := text.takeWhile fun c => c ≠ '.'
    let fraction := (text.dropWhile fun c => c ≠ '.').drop 1
    let (exponent, rest) ← exponent? rest
    if Sql.isDone rest then some ⟨negative, whole, fraction, exponent⟩ else none

/-- The decimal that is denoted. -/
def decimal (x : FloatText) : Decimal :=
  ⟨Text.numeralValue (digits x.whole ++ digits x.fraction),
    x.exponent - (digits x.fraction).length⟩

/-- The zeros in front of the other digits. -/
def leadingZeros (x : FloatText) : Nat :=
  ((x.whole ++ '.' :: x.fraction).takeWhile fun c => c = '0' || c = '.').count '0'

/-- Whether a number is weighed by its first digits. -/
def isLong (x : FloatText) : Bool :=
  19 < x.whole.length + (digits x.fraction).length - x.leadingZeros

/-- Append digits to a number until it has nineteen, and tell what is left. -/
def extend : Nat → List Char → Nat × List Char
  | n, [] => (n, [])
  | n, c :: cs =>
    if n < Nat.pow 10 18 ∧ c.isDigit then extend (10 * n + Text.digitValue c) cs else (n, c :: cs)

/-- The first nineteen digits of a number, with its power of ten. -/
def leading (x : FloatText) : Decimal :=
  let (n, rest) := extend 0 x.whole
  if Nat.pow 10 18 ≤ n then ⟨n, x.exponent + rest.length⟩
  else
    let behind := (rest ++ '.' :: x.fraction).drop 1
    let (n, rest) := extend n behind
    ⟨n, x.exponent - (behind.length - rest.length : Nat)⟩

/-- The number up to its first underscore. -/
def unbroken (x : FloatText) : FloatText :=
  let run (cs : List Char) : List Char := cs.takeWhile fun c => c ≠ '_'
  if '_' ∈ x.whole then { x with whole := run x.whole, fraction := [], exponent := 0 }
  else if '_' ∈ x.fraction then { x with fraction := run x.fraction, exponent := 0 }
  else x

/-- The number denoted, with the rounding of decimals given. -/
def value (round : Bool → Decimal → Extended) (x : FloatText) : Extended :=
  if x.isLong then
    let low := x.leading
    let rounded := round x.negative low
    if rounded = round x.negative ⟨low.coefficient + 1, low.exponent⟩ then rounded
    else round x.negative x.unbroken.decimal
  else round x.negative x.decimal

end FloatText

namespace Sql

/-- The characters of the text that may follow the name of the undefined number in brackets. -/
def isTag (c : Char) : Bool :=
  c.isAlphanum || c = '_'

/-- The value of a text that begins with the name of an infinity or of the undefined number, and
ends there or in spaces. -/
def namedFloat? (cs : List Char) : Option Extended :=
  let (negative, body) :=
    match cs with
    | '-' :: rest => (true, rest)
    | rest => (false, rest)
  let name := (body.takeWhile Char.isAlpha).map Char.toLower
  let rest := body.dropWhile Char.isAlpha
  if name = "nan".toList then
    match rest with
    | '(' :: tag =>
      match tag.dropWhile isTag with
      | ')' :: rest => if isDone rest then some .undefined else none
      | _ => none
    | rest => if isDone rest then some .undefined else none
  else if name = "inf".toList ∨ name = "infinity".toList then
    if isDone rest then some (.infinite negative) else none
  else none

/-- The floating-point number that a text denotes, with the rounding of decimals given. -/
def floating? (round : Bool → Decimal → Extended) (cs : List Char) : Option Extended :=
  let body :=
    match dropSpaces cs with
    | '+' :: rest => rest
    | rest => rest
  match FloatText.read? body with
  | some x => some (x.value round)
  | none => namedFloat? body

end Sql

end Reporting
