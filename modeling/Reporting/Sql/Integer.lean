import Reporting.Sql.Numeral

/-!
# Casting numerals to integers

A numeral becomes an integer in the words of 64 bits.  The digits before the point have to fit a
word before the exponent is applied; of the digits after the point as many are kept as a word
holds.  The exponent shifts digits over the point, and the first digit behind it decides whether
the result is rounded away from zero.

Where an exponent is negative, the digits behind the point are those that have been shifted there,
and only the last digit shifted counts, whether or not the exponent reaches beyond it: `5e-2` is
rounded like `5e-1`.
-/

namespace Reporting

/-- A magnitude with a sign. -/
def withSign (negative : Bool) (n : Int) : Int :=
  if negative then -n else n

namespace IntegerType

/-- The word that numerals are evaluated in. -/
def word : IntegerType → IntegerType
  | .unsignedBig => .unsignedBig
  | _ => .big

/-- The residue of a number that belongs to a type. -/
def wrap (type : IntegerType) (n : Int) : Int :=
  if type.isSigned then n.bmod (Nat.pow 2 type.bits) else n % (Nat.pow 2 type.bits : Nat)

/-- The number of digits of the greatest number of a type. -/
def digitCount (type : IntegerType) : Nat :=
  (Text.digits type.greatest.toNat).length

/-- A number, if it belongs to a type. -/
def fit? (type : IntegerType) (n : Int) : Option Int :=
  if type.holds n then some n else none

theorem holds_of_fit? {type : IntegerType} {n m : Int} (h : type.fit? n = some m) :
    type.holds m = true ∧ m = n := by
  unfold fit? at h
  split at h
  · next hn =>
    obtain rfl := Option.some.inj h
    exact ⟨hn, rfl⟩
  · simp at h

end IntegerType

/-- Digits behind the point as a word holds them: their number and their value. -/
structure WordFraction where
  value : Nat
  places : Nat

namespace WordFraction

/-- One more digit, unless the value would exceed the greatest number. -/
def push (greatest : Nat) (f : WordFraction) (digit : Nat) : WordFraction :=
  if (greatest - digit) / 10 < f.value then f else ⟨10 * f.value + digit, f.places + 1⟩

/-- The digits that a word holds. -/
def ofDigits (word : IntegerType) (ds : List Char) : WordFraction :=
  (ds.map Text.digitValue).foldl (push word.greatest.toNat) ⟨0, 0⟩

/-- Cut off places at the end until the value is at most ten. -/
def lead (f : WordFraction) : WordFraction :=
  if 10 < f.value then lead ⟨f.value / 10, f.places - 1⟩ else f
termination_by f.value
decreasing_by exact Nat.div_lt_self (by omega) (by decide)

/-- Whether one place is left and it holds a five or more. -/
def roundsUp (f : WordFraction) : Bool :=
  f.lead.places == 1 && 5 ≤ f.lead.value

end WordFraction

namespace IntegerType

/-- The integer with a sign and a magnitude, moved away from zero by one if the fraction rounds
up. -/
def settle? (type : IntegerType) (negative : Bool) (n : Int) (f : WordFraction) : Option Int := do
  let whole ← type.fit? (withSign negative n)
  if f.roundsUp then type.fit? (whole + withSign negative 1) else some whole

/-- Divide by ten up to some times, as long as the number is not zero, and keep the last
remainder. -/
def shiftRight : Nat → Nat → Nat → Nat × Nat
  | 0, n, last => (n, last)
  | k + 1, n, last => if n = 0 then (n, last) else shiftRight k (n / 10) (n % 10)

/-- Split a fraction `k` places before its end.  The power of ten is a word, so that it wraps
around where a word has exactly `k` digits; beyond that nothing is left. -/
def splitFraction (word : IntegerType) (f : WordFraction) (k : Nat) : Int × Nat :=
  if k ≤ word.digitCount then
    let power := word.wrap (Nat.pow 10 k : Nat)
    ((f.value : Int).tdiv power, f.value % power.natAbs)
  else (0, 0)

/-- Shift a number and the fraction behind it by some places over the point. -/
def shiftLeft? (word : IntegerType) (negative : Bool) (n : Nat) (f : WordFraction) (e : Nat) :
    Option (Int × WordFraction) := do
  let whole : Int := (n * Nat.pow 10 e : Nat)
  let _ ← word.fit? (withSign negative whole)
  if f.value = 0 then some (whole, f)
  else
    let (carried, rest) :=
      if e < f.places then splitFraction word f (f.places - e)
      else ((f.value * Nat.pow 10 (e - f.places) : Nat), 0)
    let _ ← word.fit? carried
    let _ ← word.fit? (withSign negative (whole + carried))
    some (whole + carried, ⟨rest, f.places - e⟩)

/-- The integer that a numeral becomes. -/
def ofNumeral? (type : IntegerType) (x : Numeral) : Option Int := do
  let n := Text.numeralValue x.whole
  let _ ← type.word.fit? (withSign x.negative n)
  let f := WordFraction.ofDigits type.word x.fraction
  match x.exponent with
  | none => type.settle? x.negative n f
  | some (.negSucc k) =>
    let (n, last) := shiftRight (k + 1) n f.value
    type.settle? x.negative n ⟨last, 1⟩
  | some (.ofNat e) => do
    let (n, f) ← type.word.shiftLeft? x.negative n f e
    type.settle? x.negative n f

theorem holds_of_settle? {type : IntegerType} {negative : Bool} {n : Int} {f : WordFraction}
    {m : Int} (h : type.settle? negative n f = some m) : type.holds m = true := by
  unfold settle? at h
  obtain ⟨whole, hwhole, hrest⟩ := Option.bind_eq_some_iff.1 h
  split at hrest
  · exact (holds_of_fit? hrest).1
  · obtain rfl := Option.some.inj hrest
    exact (holds_of_fit? hwhole).1

/-- A numeral becomes a number of the type. -/
theorem holds_of_ofNumeral? {type : IntegerType} {x : Numeral} {m : Int}
    (h : type.ofNumeral? x = some m) : type.holds m = true := by
  unfold ofNumeral? at h
  obtain ⟨_, _, h⟩ := Option.bind_eq_some_iff.1 h
  dsimp only at h
  split at h
  · exact holds_of_settle? h
  · exact holds_of_settle? h
  · obtain ⟨_, _, h⟩ := Option.bind_eq_some_iff.1 h
    exact holds_of_settle? h

end IntegerType

end Reporting
