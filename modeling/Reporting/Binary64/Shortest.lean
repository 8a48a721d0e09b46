import Reporting.Binary64.Decimal

/-!
# Shortest decimals

Of all decimals that round to a given binary64 number, `shortest` chooses one with the fewest
digits, and among those the nearest.  The decimals that round to a number fill an interval around
it, whose ends belong to it exactly if the significand is even.  The search goes through the grids
of multiples of `10 ^ k` from coarse to fine and stops at the first grid with a point inside; a
coarser grid means fewer digits.

Everything is counted in quarters of a unit, in which both ends of the interval are whole.
-/

namespace Reporting

namespace Binary64

/-- What to do when a number lies halfway between two shortest decimals. -/
inductive Halfway where
  /-- Take the greater one. -/
  | up
  /-- Take the one whose last digit is even. -/
  | even

/-- The lower end of the interval, in quarters of a unit.  Below a power of two the step is
halved. -/
def lowerEnd (units : Nat) : Nat :=
  let step := precision.spacing units
  4 * units - (if units = step * powTwo 52 ∧ 1 < step then step else 2 * step)

/-- The upper end of the interval, in quarters of a unit. -/
def upperEnd (units : Nat) : Nat :=
  4 * units + 2 * precision.spacing units

/-- Whether the significand is even, so that the ends of the interval round to the number. -/
def closedEnds (units : Nat) : Bool :=
  units / precision.spacing units % 2 == 0

/-- Whether the point `d` of a grid lies in the interval.  The grid's step is `num / den`
quarters. -/
def inInterval (units num den d : Nat) : Bool :=
  if closedEnds units then
    lowerEnd units * den ≤ d * num && d * num ≤ upperEnd units * den
  else
    lowerEnd units * den < d * num && d * num < upperEnd units * den

/-- The coefficient of the nearest multiple of `10 ^ k` that rounds to the number, if there is
one. -/
def onGrid? (halfway : Halfway) (units : Nat) (k : Int) : Option Nat :=
  let num := Nat.pow 10 k.toNat * (4 * one)
  let den := Nat.pow 10 (-k).toNat
  let center := 4 * units * den
  let low := center / num
  match inInterval units num den low, inInterval units num den (low + 1) with
  | false, false => none
  | true, false => some low
  | false, true => some (low + 1)
  | true, true =>
    let below := center - low * num
    let above := (low + 1) * num - center
    if below < above then some low
    else if above < below then some (low + 1)
    else
      match halfway with
      | .up => some (low + 1)
      | .even => some (if low % 2 = 0 then low else low + 1)

/-- Search the grids from `10 ^ k` downwards.  A number is a whole multiple of its own unit, hence
of `10 ^ -1074`, where the search ends at the latest. -/
def shortestFrom (halfway : Halfway) (units : Nat) : Nat → Int → Decimal
  | 0, _ => ⟨units * Nat.pow 5 1074, -1074⟩
  | fuel + 1, k =>
    match onGrid? halfway units k with
    | some d => ⟨d, k⟩
    | none => shortestFrom halfway units fuel (k - 1)

/-- An exponent of ten beyond the size of a magnitude. -/
def coarsest (units : Nat) : Int :=
  ((units.log2 : Int) - 1073) * 30103 / 100000 + 1

/-- The shortest decimal that rounds to the magnitude of a number. -/
def shortest (halfway : Halfway) (x : Binary64) : Decimal :=
  if x.units = 0 then ⟨0, 0⟩
  else
    let k := coarsest x.units
    shortestFrom halfway x.units (k + 1074).toNat k

end Binary64

namespace Extended

/-- The text of a number in positional form with the fewest digits that read back. -/
def positionalText : Extended → List Char
  | .finite x =>
    (if x.negative then ['-'] else []) ++ (x.shortest .up).positional
  | .infinite negative => if negative then "-inf".toList else "inf".toList
  | .undefined => "NaN".toList

end Extended

end Reporting
