import Reporting.Binary64.Decimal

/-!
# Fixed decimal places

The magnitude of a number with a fixed number of decimal places.  The exact value is rounded, and
exactly halfway the last digit becomes even.
-/

namespace Reporting

/-- A numeral cut at its decimal point.  Without decimal places there is no fraction. -/
structure FixedNumeral where
  whole : List Char
  fraction : Option (List Char)

namespace Binary64

/-- The magnitude as a whole number of steps of `10 ^ -places`, rounded to nearest even. -/
def fixedSteps (places : Nat) (x : Binary64) : Nat :=
  nearestEven (x.units * Nat.pow 10 places) one

/-- The digits of the magnitude before and after the decimal point. -/
def fixed (places : Nat) (x : Binary64) : FixedNumeral :=
  let ds := Text.zeroPadded (places + 1) (x.fixedSteps places)
  let point := ds.length - places
  ⟨ds.take point, if places = 0 then none else some (ds.drop point)⟩

end Binary64

namespace Extended

/-- The numeral of a magnitude; the names of infinity and of the undefined number stand for
themselves. -/
def fixed (places : Nat) : Extended → FixedNumeral
  | .finite x => x.fixed places
  | .infinite _ => ⟨"inf".toList, none⟩
  | .undefined => ⟨"NaN".toList, none⟩

/-- Whether the sign of a number shows in its fixed text.  A negative zero shows its sign. -/
def showsSign : Extended → Bool
  | .finite x => x.negative
  | .infinite negative => negative
  | .undefined => false

/-- The number with a fixed number of places, in plain notation. -/
def fixedText (places : Nat) (x : Extended) : List Char :=
  let numeral := x.fixed places
  (if x.showsSign then ['-'] else []) ++ numeral.whole
    ++ (match numeral.fraction with
        | some fraction => '.' :: fraction
        | none => [])

end Extended

end Reporting
