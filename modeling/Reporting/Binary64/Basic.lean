import Reporting.Binary64.Rounding

/-!
# Binary64 numbers

A finite binary64 number is a sign and a magnitude.  The magnitude is counted in units of
`2 ^ -1074`, the distance between the smallest numbers of the format, so it is a natural number
and all arithmetic on it is exact until a result is rounded once.  Order and equality are those of
the integer `value`, under which the two zeros agree.

`Extended` adds the two infinities and the undefined result, which sums and averages can reach.
-/

namespace Reporting

namespace Binary64

/-- The format: 53 significant bits, down to the unit. -/
def precision : Precision := ⟨53, 0, by decide⟩

/-- The number of units in one. -/
@[irreducible] def one : Nat := powTwo 1074

/-- The magnitudes from here on are out of range. -/
@[irreducible] def limit : Nat := powTwo 2098

theorem one_eq : one = powTwo 1074 := by unfold one; rfl

theorem limit_eq : limit = powTwo 2098 := by unfold limit; rfl

theorem one_pos : 0 < one := by rw [one_eq]; exact powTwo_pos 1074

theorem limit_pos : 0 < limit := by rw [limit_eq]; exact powTwo_pos 2098

end Binary64

/-- A finite binary64 number. -/
structure Binary64 where
  negative : Bool
  units : Nat
  aligned : Binary64.precision.spacing units ∣ units
  inRange : units < Binary64.limit
  deriving DecidableEq

/-- A binary64 number that need not be finite. -/
inductive Extended where
  | finite (x : Binary64)
  | infinite (negative : Bool)
  | undefined
  deriving DecidableEq

namespace Binary64

/-- Zero, with either sign. -/
def zero (negative : Bool) : Binary64 :=
  ⟨negative, 0, Nat.dvd_zero _, limit_pos⟩

instance : Inhabited Binary64 := ⟨zero false⟩

/-- The signed number of units. -/
def value (x : Binary64) : Int :=
  if x.negative then -(x.units : Int) else x.units

/-- Order by value; the two zeros are equal. -/
def compare (x y : Binary64) : Ordering :=
  Ord.compare x.value y.value

/-- Equality by value; the two zeros are equal. -/
def sameValue (x y : Binary64) : Bool :=
  x.value == y.value

/-- The lesser of two numbers, the first one if they are equal. -/
def min (x y : Binary64) : Binary64 :=
  if y.value < x.value then y else x

/-- The greater of two numbers, the first one if they are equal. -/
def max (x y : Binary64) : Binary64 :=
  if x.value < y.value then y else x

/-- The number without its sign. -/
def abs (x : Binary64) : Binary64 :=
  { x with negative := false }

/-- Whether a number has no fraction. -/
def isWhole (x : Binary64) : Bool :=
  x.units % one == 0

/-- The integer part, that is, the number without its fraction. -/
def truncate (x : Binary64) : Int :=
  if x.negative then -((x.units / one : Nat) : Int) else ((x.units / one : Nat) : Int)

end Binary64

/-- An integer of this magnitude is nearest to a finite number. -/
theorem Binary64.round_lt_limit {n : Nat} (h : n ≤ powTwo 64) :
    Binary64.precision.round (n * Binary64.one) 1 < Binary64.limit := by
  rw [one_eq, limit_eq]
  exact Binary64.precision.round_mul_powTwo_lt (a := 64) (b := 1074) (k := 2098) h
    (by decide) (by decide)

/-- The number nearest to an integer of at most 64 bits. -/
def Binary64.ofInt (n : Int) (h : n.natAbs ≤ powTwo 64) : Binary64 :=
  ⟨n < 0, Binary64.precision.round (n.natAbs * Binary64.one) 1,
    Binary64.precision.spacing_dvd_round _ _, Binary64.round_lt_limit h⟩

namespace Extended

/-- The number with a sign and the magnitude nearest to a quotient of units, infinite beyond the
range. -/
def ofQuotient (negative : Bool) (num den : Nat) : Extended :=
  if h : Binary64.precision.round num den < Binary64.limit then
    .finite ⟨negative, Binary64.precision.round num den,
      Binary64.precision.spacing_dvd_round num den, h⟩
  else .infinite negative

/-- The number nearest to a natural number. -/
def ofNat (n : Nat) : Extended :=
  ofQuotient false (n * Binary64.one) 1

/-- The number nearest to an integer. -/
def ofInt (n : Int) : Extended :=
  ofQuotient (n < 0) (n.natAbs * Binary64.one) 1

/-- The finite number, if it is one. -/
def finite? : Extended → Option Binary64
  | .finite x => some x
  | _ => none

/-- Whether a number is below zero. -/
def isNegative : Extended → Bool
  | .finite x => x.value < 0
  | .infinite negative => negative
  | .undefined => false

/-- The number without its sign. -/
def abs : Extended → Extended
  | .finite x => .finite x.abs
  | .infinite _ => .infinite false
  | .undefined => .undefined

/-- The rounded sum.  A sum of opposite infinities is undefined; an exact zero is positive unless
both terms are negative zeros. -/
def add : Extended → Extended → Extended
  | .finite x, .finite y =>
    if x.value + y.value = 0 then .finite (Binary64.zero (x.negative && y.negative))
    else ofQuotient (x.value + y.value < 0) (x.value + y.value).natAbs 1
  | .finite _, .infinite negative => .infinite negative
  | .infinite negative, .finite _ => .infinite negative
  | .infinite a, .infinite b => if a = b then .infinite a else .undefined
  | .undefined, _ => .undefined
  | _, .undefined => .undefined

/-- The rounded quotient.  A nonzero number divided by zero is infinite, and zero by zero
undefined. -/
def div : Extended → Extended → Extended
  | .finite x, .finite y =>
    if y.units = 0 then
      if x.units = 0 then .undefined else .infinite (x.negative != y.negative)
    else ofQuotient (x.negative != y.negative) (x.units * Binary64.one) y.units
  | .finite x, .infinite negative => .finite (Binary64.zero (x.negative != negative))
  | .infinite negative, .finite y => .infinite (negative != y.negative)
  | .infinite _, .infinite _ => .undefined
  | .undefined, _ => .undefined
  | _, .undefined => .undefined

instance : Add Extended := ⟨add⟩

instance : Div Extended := ⟨div⟩

/-- Zero. -/
def zero : Extended :=
  .finite (Binary64.zero false)

end Extended

end Reporting
