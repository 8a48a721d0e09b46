/-!
# Decimal numerals

Writing whole numbers in decimal digits and reading them back, on lists of characters.  A numeral
is read by a left fold, so its value does not depend on leading zeros.
-/

namespace Reporting.Text

/-- The decimal digits of a number, `0` for zero. -/
def digits (n : Nat) : List Char :=
  Nat.toDigits 10 n

/-- The digits of a whole number, after a minus sign when it is negative. -/
def signedDigits (n : Int) : List Char :=
  if n < 0 then '-' :: digits n.natAbs else digits n.natAbs

/-- Fill up to a width with a character in front. -/
def padLeft (fill : Char) (width : Nat) (cs : List Char) : List Char :=
  List.replicate (width - cs.length) fill ++ cs

/-- The digits of a number in at least `width` places, filled with zeros. -/
def zeroPadded (width n : Nat) : List Char :=
  padLeft '0' width (digits n)

/-- The worth of a digit. -/
def digitValue (c : Char) : Nat :=
  c.toNat - '0'.toNat

/-- The number that a text of digits denotes, zero for the empty text. -/
def numeralValue (cs : List Char) : Nat :=
  cs.foldl (fun n c => 10 * n + digitValue c) 0

/-- The digits at the start of a text, and what follows them. -/
def spanDigits (cs : List Char) : List Char × List Char :=
  (cs.takeWhile Char.isDigit, cs.dropWhile Char.isDigit)

/-- The digits at the start of a text, at most `width` of them, and what follows them. -/
def spanDigitsUpTo : Nat → List Char → List Char × List Char
  | 0, cs => ([], cs)
  | _ + 1, [] => ([], [])
  | width + 1, c :: cs =>
    if c.isDigit then
      let (ds, rest) := spanDigitsUpTo width cs
      (c :: ds, rest)
    else ([], c :: cs)

/-- The worth of a hexadecimal digit in either case. -/
def hexValue? (c : Char) : Option Nat :=
  if c.isDigit then some (c.toNat - '0'.toNat)
  else if 'a' ≤ c && c ≤ 'f' then some (c.toNat - 'a'.toNat + 10)
  else if 'A' ≤ c && c ≤ 'F' then some (c.toNat - 'A'.toNat + 10)
  else none

/-- The lower-case hexadecimal digit of a number below sixteen. -/
def hexDigit (n : Nat) : Char :=
  Nat.digitChar (n % 16)

end Reporting.Text
