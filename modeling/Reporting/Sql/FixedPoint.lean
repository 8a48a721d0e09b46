import Reporting.Sql.Integer

/-!
# Casting numerals to decimals

A decimal type has `width` digits, of which `scale` stand behind the point.  Its numbers are stored
as integers of 16, 32, 64 or 128 bits, by the width, counted in units of the last place.  Which
numerals it takes is a matter of digits.

Leading zeros are free; the other digits before the point may not be more than `width - scale`.
More digits behind the point are read than the scale asks for, as many as the store has room for,
so that a positive exponent can move them over the point; what is left over is rounded off.  A
positive exponent that asks for more digits appends zeros, which count as digits before the point
where the number is not zero, while the width is not tested again.  A negative exponent divides
what has been tested already and takes nothing away.
-/

namespace Reporting

/-- A decimal type. -/
structure FixedPoint where
  width : Nat
  scale : Nat

namespace FixedPoint

/-- The integers that store the numbers of a decimal type. -/
def store (type : FixedPoint) : IntegerType :=
  if type.width ≤ 4 then .small
  else if type.width ≤ 9 then .integer
  else if type.width ≤ 18 then .big
  else .huge

/-- The number of decimal digits that the store has room for. -/
def room (type : FixedPoint) : Nat :=
  if type.width ≤ 4 then 4
  else if type.width ≤ 9 then 9
  else if type.width ≤ 18 then 18
  else 38

/-- The digits before the point that count. -/
def wholeDigits (x : Numeral) : List Char :=
  x.whole.dropWhile fun c => c = '0'

/-- The digits behind the point that the store has room for. -/
def fractionDigits (type : FixedPoint) (x : Numeral) : List Char :=
  x.fraction.take (type.room - (wholeDigits x).length)

/-- Whether the first digit that the scale has no place for is a five or more. -/
def roundsUp (type : FixedPoint) (x : Numeral) : Bool :=
  match x.fraction[type.scale]? with
  | some d => 5 ≤ Text.digitValue d
  | none => false

/-- Whether a number of units has no more digits than the width. -/
def holds (type : FixedPoint) (n : Nat) : Bool :=
  n < Nat.pow 10 type.width

/-- Cut off digits at the end. -/
def truncate (n count : Nat) : Nat :=
  n / Nat.pow 10 count

/-- Cut off digits at the end, at least one, and round by the first of them, halves upwards. -/
def roundOff (n count : Nat) : Nat :=
  if 5 ≤ truncate n (count - 1) % 10 then truncate n count + 1 else truncate n count

/-- Whether zeros can be appended to a number of units with some digits before the point. -/
def hasRoomForZeros (type : FixedPoint) : Nat → Nat → Nat → Bool
  | 0, _, _ => true
  | k + 1, n, whole =>
    n = 0 || (whole ≠ type.width - type.scale && n ≤ type.store.greatest / 10
      && hasRoomForZeros type k (10 * n) (whole + 1))

/-- Whether a numeral is taken as a number of the type. -/
def takes (type : FixedPoint) (x : Numeral) : Bool :=
  let whole := wholeDigits x
  let fraction := type.fractionDigits x
  let units := Text.numeralValue (whole ++ fraction)
  let excess := fraction.length - type.scale
  let padding := Nat.pow 10 (type.scale - fraction.length)
  whole.length ≤ type.width - type.scale &&
    match x.exponent.getD 0 with
    | .ofNat 0 =>
      type.holds ((truncate units excess + if type.roundsUp x then 1 else 0) * padding)
    | .ofNat e =>
      if e < excess then type.holds (roundOff units (excess - e))
      else
        type.holds (units * padding)
          && type.hasRoomForZeros (e - excess) (units * padding) whole.length
    | .negSucc _ => type.holds (truncate units excess * padding)

end FixedPoint

end Reporting
