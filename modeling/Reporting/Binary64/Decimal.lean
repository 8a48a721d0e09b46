import Reporting.Binary64.Basic
import Reporting.Text.Numeral

/-!
# Decimals and binary64 numbers

A decimal is a coefficient times a power of ten.  This module writes decimals in positional form,
reads the decimal notation of floating-point numbers, and rounds a decimal to the nearest binary64
number or to the nearest number of single precision.
-/

namespace Reporting

/-- The number `coefficient * 10 ^ exponent`. -/
structure Decimal where
  coefficient : Nat
  exponent : Int
  deriving DecidableEq, Repr

namespace Decimal

/-- The numerator of a decimal counted in binary64 units. -/
def unitsNum (d : Decimal) : Nat :=
  d.coefficient * Nat.pow 10 d.exponent.toNat * Binary64.one

/-- The denominator of a decimal counted in binary64 units. -/
def unitsDen (d : Decimal) : Nat :=
  Nat.pow 10 (-d.exponent).toNat

/-- The number of digits in front of the decimal point; negative if zeros follow the point. -/
def pointPosition (d : Decimal) : Int :=
  (Text.digits d.coefficient).length + d.exponent

/-- The positional form: digits and, if needed, a point, never an exponent. -/
def positional (d : Decimal) : List Char :=
  let ds := Text.digits d.coefficient
  let point := d.pointPosition
  if 0 ≤ d.exponent then ds ++ List.replicate d.exponent.toNat '0'
  else if 0 < point then ds.take point.toNat ++ '.' :: ds.drop point.toNat
  else '0' :: '.' :: (List.replicate (-point).toNat '0' ++ ds)

/-- Read digits with an optional point and an optional exponent.  There has to be a digit beside
the point and one in the exponent; the digits may be missing on one side of the point. -/
def read? (cs : List Char) : Option Decimal :=
  let (whole, rest) := Text.spanDigits cs
  let (fraction, rest) :=
    match rest with
    | '.' :: more => Text.spanDigits more
    | _ => ([], rest)
  if whole.isEmpty && fraction.isEmpty then none
  else
    let mantissa (shift : Int) : Decimal :=
      ⟨Text.numeralValue (whole ++ fraction), shift - fraction.length⟩
    match rest with
    | [] => some (mantissa 0)
    | e :: more =>
      if e = 'e' ∨ e = 'E' then
        let (negative, ds) :=
          match more with
          | '-' :: ds => (true, ds)
          | '+' :: ds => (false, ds)
          | ds => (false, ds)
        if ds.isEmpty || !ds.all Char.isDigit then none
        else
          let n : Int := Text.numeralValue ds
          some (mantissa (if negative then -n else n))
      else none

end Decimal

namespace Extended

/-- The binary64 number nearest to a decimal with a sign.  Decimals far outside the range are
settled by their number of digits alone. -/
def ofDecimal (negative : Bool) (d : Decimal) : Extended :=
  if d.coefficient = 0 then .finite (Binary64.zero negative)
  else if 310 < d.pointPosition then .infinite negative
  else if d.pointPosition < -330 then .finite (Binary64.zero negative)
  else ofQuotient negative d.unitsNum d.unitsDen

/-- The bits and the finest step of single precision, in binary64 units. -/
def singlePrecision : Precision := ⟨24, 925, by decide⟩

/-- The single-precision number nearest to a decimal with a sign. -/
def singleOfDecimal (negative : Bool) (d : Decimal) : Extended :=
  if d.coefficient = 0 then .finite (Binary64.zero negative)
  else if 310 < d.pointPosition then .infinite negative
  else if d.pointPosition < -330 then .finite (Binary64.zero negative)
  else
    let units := singlePrecision.round d.unitsNum d.unitsDen
    if units < powTwo 1202 then ofQuotient negative units 1 else .infinite negative

/-- The value of a text that names an infinity or the undefined number, in any letter case. -/
def named? (negative : Bool) (cs : List Char) : Option Extended :=
  let word := cs.map Char.toLower
  if word = "inf".toList ∨ word = "infinity".toList then some (.infinite negative)
  else if word = "nan".toList then some .undefined
  else none

/-- Read a number in decimal notation, or the name of an infinity or of the undefined number, after
an optional sign. -/
def read? (cs : List Char) : Option Extended :=
  let (negative, body) :=
    match cs with
    | '-' :: rest => (true, rest)
    | '+' :: rest => (false, rest)
    | rest => (false, rest)
  match Decimal.read? body with
  | some d => some (ofDecimal negative d)
  | none => named? negative body

end Extended

end Reporting
