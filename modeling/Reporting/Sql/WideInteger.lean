import Reporting.Sql.Integer

/-!
# Casting numerals to integers of 128 bits

The digits before the point have to fit 128 bits, and so do those behind it: they are gathered in a
word, which is added to what has been gathered before whenever it is full.  The first digit behind
the point decides whether the result is rounded away from zero.

A negative exponent divides the digits before the point; those behind it are dropped.
-/

namespace Reporting

/-- Digits behind the point: those gathered so far, and a word of more that are still apart. -/
structure WideFraction where
  value : Nat
  places : Nat
  word : Nat
  wordPlaces : Nat

namespace WideFraction

/-- Add the word to the digits gathered, if 128 bits hold them. -/
def flush? (type : IntegerType) (f : WideFraction) : Option WideFraction := do
  let value := f.value * Nat.pow 10 f.wordPlaces + f.word
  let _ ← type.fit? value
  some ⟨value, f.places + f.wordPlaces, 0, 0⟩

/-- The word of digits beside a type. -/
def wordType (type : IntegerType) : IntegerType :=
  if type.isSigned then .big else .unsignedBig

/-- One more digit. -/
def push? (type : IntegerType) (f : WideFraction) (digit : Nat) : Option WideFraction := do
  let f ← if ((wordType type).greatest.toNat - digit) / 10 < f.word then f.flush? type else some f
  some { f with word := 10 * f.word + digit, wordPlaces := f.wordPlaces + 1 }

/-- The digits behind the point. -/
def ofDigits? (type : IntegerType) (ds : List Char) : Option WideFraction :=
  (ds.map Text.digitValue).foldlM (push? type) ⟨0, 0, 0, 0⟩

end WideFraction

namespace IntegerType

/-- The greatest power of ten that 128 bits hold. -/
def widestShift : Nat := 38

/-- Whether the first of some places holds a five or more. -/
def opensWithHalf (value places : Nat) : Bool :=
  places != 0 && 5 ≤ value / Nat.pow 10 (places - 1)

/-- The integer with a sign and a magnitude, moved away from zero by one where the fraction behind
it opens with a half. -/
def settleWide? (type : IntegerType) (negative : Bool) (n value places : Nat) : Option Int := do
  let whole ← type.fit? (withSign negative n)
  if opensWithHalf value places then type.fit? (whole + withSign negative 1) else some whole

/-- The integer that a numeral becomes in 128 bits. -/
def ofNumeralWide? (type : IntegerType) (x : Numeral) : Option Int := do
  let n := Text.numeralValue x.whole
  let _ ← type.fit? (withSign x.negative n)
  let f ← WideFraction.ofDigits? type x.fraction
  match x.exponent with
  | none => do
    let f ← f.flush? type
    type.settleWide? x.negative n f.value f.places
  | some (.negSucc k) =>
    if widestShift < k + 1 then some 0
    else
      let power := Nat.pow 10 (k + 1)
      type.settleWide? x.negative (n / power) (n % power) (k + 1)
  | some (.ofNat e) =>
    if n ≠ 0 ∧ widestShift < e then none
    else do
      let n := if n = 0 then 0 else n * Nat.pow 10 e
      let _ ← type.fit? (withSign x.negative n)
      let f ← f.flush? type
      if f.value = 0 then some (withSign x.negative n)
      else if e < f.places then
        let power := Nat.pow 10 (f.places - e)
        type.settleWide? x.negative (n + f.value / power) (f.value % power) (f.places - e)
      else do
        let carried := f.value * Nat.pow 10 (e - f.places)
        let _ ← type.fit? carried
        type.settleWide? x.negative (n + carried) 0 0

theorem holds_of_settleWide? {type : IntegerType} {negative : Bool} {n value places : Nat}
    {m : Int} (h : type.settleWide? negative n value places = some m) : type.holds m = true := by
  unfold settleWide? at h
  obtain ⟨whole, hwhole, hrest⟩ := Option.bind_eq_some_iff.1 h
  split at hrest
  · exact (holds_of_fit? hrest).1
  · obtain rfl := Option.some.inj hrest
    exact (holds_of_fit? hwhole).1

theorem holds_zero (type : IntegerType) : type.holds 0 = true := by
  cases type <;> decide

/-- A numeral becomes a number of the type. -/
theorem holds_of_ofNumeralWide? {type : IntegerType} {x : Numeral} {m : Int}
    (h : type.ofNumeralWide? x = some m) : type.holds m = true := by
  unfold ofNumeralWide? at h
  obtain ⟨_, _, h⟩ := Option.bind_eq_some_iff.1 h
  obtain ⟨_, _, h⟩ := Option.bind_eq_some_iff.1 h
  split at h
  · obtain ⟨_, _, h⟩ := Option.bind_eq_some_iff.1 h
    exact holds_of_settleWide? h
  · split at h
    · obtain rfl := Option.some.inj h
      exact type.holds_zero
    · exact holds_of_settleWide? h
  · split at h
    · simp at h
    · obtain ⟨_, hfit, h⟩ := Option.bind_eq_some_iff.1 h
      obtain ⟨_, _, h⟩ := Option.bind_eq_some_iff.1 h
      split at h
      · obtain rfl := Option.some.inj h
        obtain ⟨hholds, rfl⟩ := holds_of_fit? hfit
        exact hholds
      · split at h
        · exact holds_of_settleWide? h
        · obtain ⟨_, _, h⟩ := Option.bind_eq_some_iff.1 h
          exact holds_of_settleWide? h

end IntegerType

end Reporting
