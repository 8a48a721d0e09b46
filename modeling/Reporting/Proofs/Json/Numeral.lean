import Reporting.Proofs.Binary64.Shortest
import Reporting.Proofs.Json.Printer

/-!
# Numbers are told apart by their text

The text of a decimal, with a fraction or with an exponent, is read back as a decimal of the same
value (`Decimal.exists_read?_jsonChars`).  A real number is written as a decimal that rounds to it,
so real numbers with one text are one number; and no whole number has the text of a real one, which
always shows a point or an exponent (`Number.chars_injective`).
-/

namespace Reporting

namespace Text

theorem numeralValue_append_zeros (cs : List Char) (k : Nat) :
    numeralValue (cs ++ List.replicate k '0') = numeralValue cs * Nat.pow 10 k := by
  rw [numeralValue_append, numeralValue_zeros, Nat.add_zero, List.length_replicate]

theorem numeralValue_zeros_append (k : Nat) (cs : List Char) :
    numeralValue (List.replicate k '0' ++ cs) = numeralValue cs := by
  rw [numeralValue_append, numeralValue_zeros, Nat.zero_mul, Nat.zero_add]

theorem digits_ne_nil (n : Nat) : digits n ≠ [] :=
  Nat.toDigits_ne_nil

theorem isDigit_of_mem_zeros {k : Nat} {c : Char} (h : c ∈ List.replicate k '0') :
    c.isDigit = true := by
  rw [List.eq_of_mem_replicate h]
  rfl

/-- Numbers with the same digits are the same. -/
theorem digits_injective {m n : Nat} (h : digits m = digits n) : m = n := by
  rw [← numeralValue_digits m, h, numeralValue_digits]

/-- The sign of a whole number stands in front of its digits. -/
theorem takeSign_signedDigits (n : Int) :
    takeSign (signedDigits n) = (decide (n < 0), digits n.natAbs) := by
  have hfirst : ∀ c ∈ (digits n.natAbs).head?, c.isDigit = true := fun c hc =>
    isDigit_of_mem_digits (List.mem_of_mem_head? hc)
  rw [← takeSign_signed hfirst (decide (n < 0))]
  unfold signedDigits
  by_cases hn : n < 0 <;> simp [hn]

/-- Whole numbers with the same text are the same. -/
theorem signedDigits_injective {m n : Int} (h : signedDigits m = signedDigits n) : m = n := by
  have hparts := congrArg takeSign h
  rw [takeSign_signedDigits, takeSign_signedDigits, Prod.mk.injEq, decide_eq_decide] at hparts
  have hsize := digits_injective hparts.2
  have hsign := hparts.1
  omega

end Text

namespace Decimal

/-! ## Reading a decimal back -/

/-- No decimal starts with a hyphen. -/
theorem read?_hyphen (cs : List Char) : read? ('-' :: cs) = none := by
  rw [read?_eq]
  rfl

/-- An exponent with a sign is read. -/
theorem withExponent?_signed (mantissa : Int → Decimal) (negative : Bool) {ds : List Char}
    (hne : ds ≠ []) (hds : ∀ c ∈ ds, c.isDigit = true) :
    withExponent? mantissa ('e' :: (if negative then '-' else '+') :: ds)
      = some (mantissa (if negative then -Text.numeralValue ds else Text.numeralValue ds)) := by
  have hall : ds.all Char.isDigit = true := List.all_eq_true.mpr hds
  have hempty : ds.isEmpty = false := List.isEmpty_eq_false_iff.mpr hne
  cases negative <;> simp [withExponent?, Text.takeSign, hall, hempty]

/-- What follows the digits and the fraction is the exponent. -/
theorem read?_of_span {cs whole rest fraction exponent : List Char}
    (hwhole : Text.spanDigits cs = (whole, rest))
    (hfraction : takeFraction rest = (fraction, exponent)) (hne : whole ≠ []) :
    read? cs = withExponent? (fun shift => ⟨Text.numeralValue (whole ++ fraction),
      shift - fraction.length⟩) exponent := by
  rw [read?_eq, hwhole]
  dsimp only
  rw [hfraction]
  simp [hne]

/-- A digit, perhaps more digits behind a point, and an exponent are read. -/
theorem read?_scientific {first : Char} {more ds : List Char} (negative : Bool)
    (hfirst : first.isDigit = true) (hmore : ∀ c ∈ more, c.isDigit = true) (hne : ds ≠ [])
    (hds : ∀ c ∈ ds, c.isDigit = true) :
    read? ((first :: if more = [] then [] else '.' :: more)
        ++ 'e' :: (if negative then '-' else '+') :: ds)
      = some ⟨Text.numeralValue (first :: more),
          (if negative then -(Text.numeralValue ds : Int) else Text.numeralValue ds)
            - more.length⟩ := by
  have hone : ∀ c ∈ [first], c.isDigit = true := by simpa using hfirst
  have hmark : ∀ c ∈ ('e' :: (if negative then '-' else '+') :: ds).head?, c.isDigit = false := by
    intro c hc
    obtain rfl : 'e' = c := Option.some.inj hc
    rfl
  have hpointless : takeFraction ('e' :: (if negative then '-' else '+') :: ds)
      = ([], 'e' :: (if negative then '-' else '+') :: ds) := rfl
  have hexponent := fun mantissa => withExponent?_signed mantissa negative hne hds
  generalize 'e' :: (if negative then '-' else '+') :: ds = exponent at *
  by_cases hnone : more = []
  · subst hnone
    have hwhole : Text.spanDigits ([first] ++ exponent) = ([first], exponent) :=
      Text.spanDigits_append hone hmark
    rw [if_pos rfl]
    exact (read?_of_span hwhole hpointless (List.cons_ne_nil _ _)).trans (hexponent _)
  · have hwhole : Text.spanDigits ([first] ++ ('.' :: (more ++ exponent)))
        = ([first], '.' :: (more ++ exponent)) := Text.spanDigits_append hone (by simp)
    have hfraction : takeFraction ('.' :: (more ++ exponent)) = (more, exponent) :=
      Text.spanDigits_append hmore hmark
    rw [if_neg hnone]
    exact (read?_of_span hwhole hfraction (List.cons_ne_nil _ _)).trans (hexponent _)

/-- A decimal with decimal places is read back from its positional form. -/
theorem read?_positional {d : Decimal} (h : d.exponent < 0) : read? d.positional = some d := by
  obtain ⟨coefficient, exponent⟩ := d
  have hdigits : ∀ c ∈ Text.digits coefficient, c.isDigit = true := fun c =>
    Text.isDigit_of_mem_digits
  have hvalue := Text.numeralValue_digits coefficient
  have hne := Text.digits_ne_nil coefficient
  dsimp only at h
  unfold positional pointPosition
  dsimp only
  generalize Text.digits coefficient = ds at *
  rw [if_neg (by omega)]
  by_cases hpoint : 0 < ds.length + exponent
  · rw [if_pos hpoint]
    have hwhole : ds.take (ds.length + exponent).toNat ≠ [] := by
      intro hnil
      rcases List.take_eq_nil_iff.mp hnil with hzero | hempty
      · omega
      · exact hne hempty
    rw [read?_fraction hwhole (fun c hc => hdigits c (List.mem_of_mem_take hc))
      (fun c hc => hdigits c (List.mem_of_mem_drop hc)), List.take_append_drop, hvalue,
      List.length_drop]
    congr 2
    omega
  · rw [if_neg hpoint]
    have hfraction : ∀ c ∈ List.replicate (-(ds.length + exponent)).toNat '0' ++ ds,
        c.isDigit = true := by
      intro c hc
      rcases List.mem_append.mp hc with hzero | hdigit
      · exact Text.isDigit_of_mem_zeros hzero
      · exact hdigits c hdigit
    have hread := read?_fraction (List.cons_ne_nil '0' []) (by simp) hfraction
    have hnumeral : Text.numeralValue
        (['0'] ++ (List.replicate (-(ds.length + exponent)).toNat '0' ++ ds)) = coefficient :=
      (Text.numeralValue_zeros_append ((-(ds.length + exponent)).toNat + 1) ds).trans hvalue
    rw [hnumeral] at hread
    refine hread.trans ?_
    congr 2
    rw [List.length_append, List.length_replicate]
    omega

/-- A whole decimal is read back with a zero behind its point. -/
theorem read?_positional_zero {d : Decimal} (h : 0 ≤ d.exponent) :
    ∃ e, read? (d.positional ++ ['.', '0']) = some e ∧ d.Agree e := by
  have hdigits : ∀ c ∈ Text.digits d.coefficient ++ List.replicate d.exponent.toNat '0',
      c.isDigit = true := by
    intro c hc
    rcases List.mem_append.mp hc with hdigit | hzero
    · exact Text.isDigit_of_mem_digits hdigit
    · exact Text.isDigit_of_mem_zeros hzero
  have hne : Text.digits d.coefficient ++ List.replicate d.exponent.toNat '0' ≠ [] := by
    simp [Text.digits_ne_nil]
  have hpositional : d.positional
      = Text.digits d.coefficient ++ List.replicate d.exponent.toNat '0' := by
    unfold positional
    dsimp only
    rw [if_pos h]
  have hplace : ∀ c ∈ ['0'], c.isDigit = true := by simp
  have hread := read?_fraction hne hdigits hplace
  have hnumeral : Text.numeralValue ((Text.digits d.coefficient
      ++ List.replicate d.exponent.toNat '0') ++ ['0'])
      = d.coefficient * Nat.pow 10 d.exponent.toNat * 10 := by
    rw [← Text.numeralValue_digits d.coefficient, ← Text.numeralValue_append_zeros,
      Text.numeralValue_digits]
    exact Text.numeralValue_append_zeros _ 1
  rw [hnumeral, ← hpositional] at hread
  refine ⟨_, hread, ?_⟩
  have hup : (-((['0'].length : Nat) : Int)).toNat = 0 := rfl
  have hdown : (-(-((['0'].length : Nat) : Int))).toNat = 1 := rfl
  have hden : (-d.exponent).toNat = 0 := by omega
  unfold Agree unitsNum unitsDen
  dsimp only
  rw [hup, hdown, hden]
  show d.coefficient * Nat.pow 10 d.exponent.toNat * Binary64.one * 10
    = d.coefficient * Nat.pow 10 d.exponent.toNat * 10 * 1 * Binary64.one * 1
  rw [Nat.mul_one, Nat.mul_one, Nat.mul_right_comm]

/-- **The text of a decimal is read back** as a decimal of the same value. -/
theorem exists_read?_jsonChars (d : Decimal) : ∃ e, read? d.jsonChars = some e ∧ d.Agree e := by
  unfold jsonChars
  dsimp only
  split
  · split
    · rename_i hwhole
      exact read?_positional_zero hwhole
    · rename_i hplaces
      exact ⟨d, read?_positional (by omega), rfl⟩
  · refine ⟨d, ?_, rfl⟩
    obtain ⟨first, more, hfirst⟩ := List.exists_cons_of_ne_nil (Text.digits_ne_nil d.coefficient)
    have hdigits : ∀ c ∈ first :: more, c.isDigit = true := fun c hc =>
      Text.isDigit_of_mem_digits (hfirst ▸ hc)
    have hexponent : ∀ c ∈ Text.digits (d.pointPosition - 1).natAbs, c.isDigit = true := fun c =>
      Text.isDigit_of_mem_digits
    have hread := read?_scientific (decide (d.pointPosition ≤ 0)) (hdigits first List.mem_cons_self)
      (fun c hc => hdigits c (List.mem_cons_of_mem first hc)) (Text.digits_ne_nil _) hexponent
    have hlength : d.pointPosition = (more.length + 1 : Nat) + d.exponent := by
      unfold pointPosition
      rw [hfirst, List.length_cons]
    rw [← hfirst, Text.numeralValue_digits, Text.numeralValue_digits] at hread
    simp only [decide_eq_true_eq] at hread
    have hplaces : (if d.pointPosition ≤ 0 then -((d.pointPosition - 1).natAbs : Int)
        else (d.pointPosition - 1).natAbs) - more.length = d.exponent := by
      split <;> omega
    rw [hplaces] at hread
    rw [hfirst]
    cases more with
    | nil => exact hread
    | cons second rest => exact hread

/-- A decimal is always written with a point or with an exponent. -/
theorem exists_mark_jsonChars (d : Decimal) : '.' ∈ d.jsonChars ∨ 'e' ∈ d.jsonChars := by
  unfold jsonChars
  dsimp only
  split
  · left
    split
    · simp
    · rename_i hplaces
      unfold positional
      dsimp only
      rw [if_neg hplaces]
      split <;> simp
  · right
    simp

end Decimal

namespace Binary64

/-- Numbers of the same sign and magnitude are the same. -/
theorem ext {x y : Binary64} (hsign : x.negative = y.negative) (hunits : x.units = y.units) :
    x = y := by
  obtain ⟨negative, units, _, _⟩ := x
  obtain ⟨_, _, _, _⟩ := y
  cases hsign
  cases hunits
  rfl

/-- **Real numbers whose shortest decimals have the same text have the same magnitude.** -/
theorem units_eq_of_jsonChars {x y : Binary64}
    (h : (x.shortest .even).jsonChars = (y.shortest .even).jsonChars) : x.units = y.units := by
  obtain ⟨d, hd, hagree⟩ := (x.shortest .even).exists_read?_jsonChars
  obtain ⟨e, he, hagree'⟩ := (y.shortest .even).exists_read?_jsonChars
  rw [h, he] at hd
  obtain rfl : e = d := Option.some.inj hd
  exact units_eq_of_covers x.aligned y.aligned ((covers_shortest .even x).congr hagree)
    ((covers_shortest .even y).congr hagree')

end Binary64

namespace Number

/-- No decimal is another one behind a hyphen. -/
theorem jsonChars_ne_hyphen (d e : Decimal) : d.jsonChars ≠ '-' :: e.jsonChars := by
  intro h
  obtain ⟨read, hread, _⟩ := d.exists_read?_jsonChars
  rw [h, Decimal.read?_hyphen] at hread
  cases hread

/-- A whole number is written without a point and without an exponent. -/
theorem chars_whole_ne_real (n : Whole) (x : Binary64) :
    (whole n).chars ≠ (real x).chars := by
  intro h
  have hdigit : ∀ c ∈ (whole n).chars, c.isDigit = true ∨ c = '-' := by
    intro c hc
    simp only [chars, Text.signedDigits] at hc
    split at hc
    · rcases List.mem_cons.mp hc with rfl | hc
      · exact .inr rfl
      · exact .inl (Text.isDigit_of_mem_digits hc)
    · exact .inl (Text.isDigit_of_mem_digits hc)
  rw [h] at hdigit
  rcases (x.shortest .even).exists_mark_jsonChars with hpoint | hexponent
  · exact absurd (hdigit '.' (List.mem_append_right _ hpoint)) (by decide)
  · exact absurd (hdigit 'e' (List.mem_append_right _ hexponent)) (by decide)

/-- Real numbers with the same text have the same sign and the same decimal. -/
theorem decimal_eq_of_chars {x y : Binary64} (h : (real x).chars = (real y).chars) :
    x.negative = y.negative ∧ (x.shortest .even).jsonChars = (y.shortest .even).jsonChars := by
  unfold chars at h
  cases hx : x.negative <;> cases hy : y.negative <;> simp only [hx, hy] at h
  case false.false => exact ⟨rfl, h⟩
  case false.true => exact absurd h (jsonChars_ne_hyphen _ _)
  case true.false => exact absurd h.symm (jsonChars_ne_hyphen _ _)
  case true.true => exact ⟨rfl, (List.cons.inj h).2⟩

/-- **Numbers with the same text are the same**, also in their kind and in the sign of zero. -/
theorem chars_injective {m n : Number} (h : m.chars = n.chars) : m = n := by
  cases m with
  | whole m =>
      cases n with
      | whole n =>
          have hval : m.val = n.val := Text.signedDigits_injective h
          obtain ⟨_, _, _⟩ := m
          cases hval
          rfl
      | real y => exact absurd h (chars_whole_ne_real m y)
  | real x =>
      cases n with
      | whole n => exact absurd h.symm (chars_whole_ne_real n x)
      | real y =>
          obtain ⟨hsign, hdecimal⟩ := decimal_eq_of_chars h
          rw [Binary64.ext hsign (Binary64.units_eq_of_jsonChars hdecimal)]

end Number

end Reporting
