import Reporting.Proofs.Binary64.Nearest
import Reporting.Proofs.Text.Blank
import Reporting.Proofs.Text.Numeral

/-!
# Reading decimals

Digits with a point among them are read as the decimal that they denote
(`Decimal.read?_fraction`), and a text with a character that no number is written with has no finite
number (`Extended.finite?_read?_of_foreign`).  A number that is read from the decimal places of
another one shows the same decimal places (`Extended.fixedSteps_ofDecimal`).
-/

namespace Reporting

/-- The characters that numbers in decimal notation are written with. -/
def Text.isNumeral (c : Char) : Bool :=
  c.isDigit || c == '.' || c == 'e' || c == 'E' || c == '+' || c == '-'

theorem Text.isNumeral_of_isDigit {c : Char} (h : c.isDigit = true) : isNumeral c = true := by
  simp [isNumeral, h]

theorem Text.not_isDigit_of_foreign {c : Char} (h : isNumeral c = false) : c.isDigit = false := by
  by_contra hdigit
  rw [isNumeral_of_isDigit (Bool.not_eq_false _ ▸ hdigit)] at h
  cases h

/-- No blank stands in a number. -/
theorem Text.isNumeral_of_isBlank {c : Char} (h : isBlank c = true) : isNumeral c = false := by
  have hdigit := not_isDigit_of_isBlank h
  have hne {d : Char} (hd : isBlank d = false) : c ≠ d := by
    rintro rfl
    rw [h] at hd
    cases hd
  simp [isNumeral, hdigit, hne (d := '.') rfl, hne (d := 'e') rfl, hne (d := 'E') rfl,
    hne (d := '+') rfl, hne (d := '-') rfl]

/-- Whether a text starts with a minus sign, and what follows its sign if it has one. -/
def Text.takeSign (cs : List Char) : Bool × List Char :=
  match cs with
  | '-' :: rest => (true, rest)
  | '+' :: rest => (false, rest)
  | rest => (false, rest)

/-- A sign in front of a digit is taken. -/
theorem Text.takeSign_signed {cs : List Char} (hfirst : ∀ c ∈ cs.head?, c.isDigit = true)
    (negative : Bool) : takeSign ((if negative then ['-'] else []) ++ cs) = (negative, cs) := by
  cases negative with
  | true => rfl
  | false =>
      show takeSign cs = (false, cs)
      unfold takeSign
      split
      · cases hfirst '-' rfl
      · cases hfirst '+' rfl
      · rfl

theorem Text.mem_takeSign_of_foreign {c : Char} (hc : isNumeral c = false) {cs : List Char}
    (h : c ∈ cs) : c ∈ (takeSign cs).2 := by
  simp only [isNumeral, Bool.or_eq_false_iff, beq_eq_false_iff_ne] at hc
  unfold takeSign
  split
  · exact List.mem_of_ne_of_mem hc.2 h
  · exact List.mem_of_ne_of_mem hc.1.2 h
  · exact h

namespace Decimal

/-- The digits behind a point, if there is a point, and what follows them. -/
def takeFraction (rest : List Char) : List Char × List Char :=
  match rest with
  | '.' :: more => Text.spanDigits more
  | _ => ([], rest)

/-- The decimal with a mantissa and the exponent that a text is, zero for the empty text. -/
def withExponent? (mantissa : Int → Decimal) (rest : List Char) : Option Decimal :=
  match rest with
  | [] => some (mantissa 0)
  | e :: more =>
    if e = 'e' ∨ e = 'E' then
      let (negative, ds) := Text.takeSign more
      if ds.isEmpty || !ds.all Char.isDigit then none
      else
        let n : Int := Text.numeralValue ds
        some (mantissa (if negative then -n else n))
    else none

/-- A decimal is read as digits, digits behind a point, and an exponent. -/
theorem read?_eq (cs : List Char) :
    read? cs =
      let whole := (Text.spanDigits cs).1
      let fraction := (takeFraction (Text.spanDigits cs).2).1
      if whole.isEmpty && fraction.isEmpty then none
      else withExponent? (fun shift => ⟨Text.numeralValue (whole ++ fraction),
        shift - fraction.length⟩) (takeFraction (Text.spanDigits cs).2).2 :=
  rfl

/-- Digits denote a whole number. -/
theorem read?_digits {ds : List Char} (hne : ds ≠ []) (hds : ∀ c ∈ ds, c.isDigit = true) :
    read? ds = some ⟨Text.numeralValue ds, 0⟩ := by
  rw [read?_eq, Text.spanDigits_self hds]
  simp [takeFraction, withExponent?, hne]

/-- Digits behind a point are decimal places. -/
theorem read?_fraction {whole fraction : List Char} (hne : whole ≠ [])
    (hwhole : ∀ c ∈ whole, c.isDigit = true) (hfraction : ∀ c ∈ fraction, c.isDigit = true) :
    read? (whole ++ '.' :: fraction)
      = some ⟨Text.numeralValue (whole ++ fraction), -fraction.length⟩ := by
  have hspan : Text.spanDigits (whole ++ '.' :: fraction) = (whole, '.' :: fraction) :=
    Text.spanDigits_append hwhole (by simp)
  rw [read?_eq, hspan]
  simp [takeFraction, withExponent?, Text.spanDigits_self hfraction, hne]

section Foreign

variable {c : Char} (hc : Text.isNumeral c = false) {cs : List Char} (h : c ∈ cs)
include hc h

theorem mem_takeFraction_of_foreign : c ∈ (takeFraction cs).2 := by
  simp only [Text.isNumeral, Bool.or_eq_false_iff, beq_eq_false_iff_ne] at hc
  unfold takeFraction
  split
  · have hpoint : c ≠ '.' := hc.1.1.1.1.2
    exact Text.mem_spanDigits_of_not_isDigit hc.1.1.1.1.1 (List.mem_of_ne_of_mem hpoint h)
  · exact h

theorem withExponent?_of_foreign (mantissa : Int → Decimal) : withExponent? mantissa cs = none := by
  cases cs with
  | nil => cases h
  | cons e more =>
      unfold withExponent?
      dsimp only
      split
      · rename_i he
        have hmore : c ∈ more := by
          refine List.mem_of_ne_of_mem ?_ h
          rintro rfl
          rcases he with rfl | rfl <;> cases hc
        have hds := Text.mem_takeSign_of_foreign hc hmore
        have hdigit := Text.not_isDigit_of_foreign hc
        have hall : (Text.takeSign more).2.all Char.isDigit = false :=
          List.all_eq_false.mpr ⟨c, hds, by simp [hdigit]⟩
        rw [hall, Bool.not_false, Bool.or_true, if_pos rfl]
      · rfl

/-- **A character that no number is written with is never passed over.** -/
theorem read?_of_foreign : read? cs = none := by
  have hspan := Text.mem_spanDigits_of_not_isDigit (Text.not_isDigit_of_foreign hc) h
  have hrest := mem_takeFraction_of_foreign hc hspan
  rw [read?_eq]
  dsimp only
  split
  · rfl
  · exact withExponent?_of_foreign hc hrest _

end Foreign

end Decimal

namespace Binary64

/-- One is less than `10 ^ 324` of the smallest numbers. -/
theorem one_le_pow_ten : one ≤ Nat.pow 10 324 := by
  rw [one_eq]
  decide +kernel

theorem fixedSteps_of_units_eq_zero {x : Binary64} (h : x.units = 0) (places : Nat) :
    x.fixedSteps places = 0 := by
  have hzero := nearestEven_mul 0 one_pos
  rw [Nat.zero_mul] at hzero
  unfold fixedSteps
  rw [h, Nat.zero_mul, hzero]

/-- In steps that are fine enough the smallest numbers are long. -/
theorem pow_ten_le_fixedSteps {x : Binary64} (h : x.units ≠ 0) {k places : Nat}
    (hone : one ≤ Nat.pow 10 k) (hfine : k ≤ places) :
    Nat.pow 10 (places - k) ≤ x.fixedSteps places := by
  have hsplit : Nat.pow 10 places = Nat.pow 10 (places - k) * Nat.pow 10 k :=
    (Nat.pow_sub_mul_pow 10 hfine).symm
  calc Nat.pow 10 (places - k)
      ≤ x.units * Nat.pow 10 places / one := by
        rw [Nat.le_div_iff_mul_le one_pos, hsplit]
        refine (Nat.mul_le_mul_left _ hone).trans ?_
        exact Nat.le_mul_of_pos_left _ (Nat.pos_of_ne_zero h)
    _ ≤ x.fixedSteps places := le_nearestEven _ _

/-- **The first digit of a shown number does not stand deep behind the point.** -/
theorem le_pointPosition {x : Binary64} {places more n : Nat} (hn : n ≠ 0)
    (hx : x.fixedSteps (places + more) = n * Nat.pow 10 more) :
    -330 ≤ (Decimal.mk n (-places)).pointPosition := by
  have hten : Nat.pow 10 more ≠ 0 := (Nat.pow_pos (by decide)).ne'
  have hunits : x.units ≠ 0 := by
    intro hzero
    rw [fixedSteps_of_units_eq_zero hzero, eq_comm, Nat.mul_eq_zero] at hx
    exact hx.elim hn hten
  have hpos : 0 < (Text.digits n).length := List.length_pos_iff.mpr Nat.toDigits_ne_nil
  by_contra hdeep
  unfold Decimal.pointPosition at hdeep
  dsimp only at hdeep
  have hfew : (Text.digits n).length ≤ places - 331 := by omega
  have hshort : n < Nat.pow 10 (places - 331) :=
    (Nat.length_toDigits_le_iff (by decide) (by omega)).mp hfew
  have hfine : 324 ≤ places + more := by omega
  have hlong := pow_ten_le_fixedSteps hunits one_le_pow_ten hfine
  rw [hx] at hlong
  have hcontra :=
    calc n * Nat.pow 10 more
        < Nat.pow 10 (places - 331) * Nat.pow 10 more :=
          Nat.mul_lt_mul_of_pos_right hshort (Nat.pos_of_ne_zero hten)
      _ = Nat.pow 10 (places - 331 + more) := (Nat.pow_add 10 _ _).symm
      _ ≤ Nat.pow 10 (places + more - 324) := Nat.pow_le_pow_right (by decide) (by omega)
  omega

end Binary64

namespace Extended

/-- **A number that is read from the decimal places of another shows the same places.** -/
theorem fixedSteps_ofDecimal {x y : Binary64} {negative : Bool} {places more n : Nat}
    (hx : x.fixedSteps (places + more) = n * Nat.pow 10 more)
    (hy : ofDecimal negative ⟨n, -places⟩ = .finite y) :
    y.negative = negative ∧ y.fixedSteps (places + more) = n * Nat.pow 10 more := by
  unfold ofDecimal at hy
  split at hy
  · rename_i hzero
    cases hy
    dsimp only at hzero
    rw [hzero, Nat.zero_mul]
    exact ⟨rfl, Binary64.fixedSteps_of_units_eq_zero rfl _⟩
  · rename_i hn
    split at hy
    · cases hy
    · rw [if_neg (not_lt.mpr (Binary64.le_pointPosition hn hx))] at hy
      unfold ofQuotient at hy
      split at hy <;> cases hy
      refine ⟨rfl, ?_⟩
      have hround := Binary64.nearestEven_round hx
      simpa [Binary64.fixedSteps, Decimal.unitsNum, Decimal.unitsDen] using hround

/-- The sign is read before the decimal. -/
theorem read?_eq (cs : List Char) :
    read? cs =
      match Decimal.read? (Text.takeSign cs).2 with
      | some d => some (ofDecimal (Text.takeSign cs).1 d)
      | none => named? (Text.takeSign cs).1 (Text.takeSign cs).2 :=
  rfl

/-- A decimal that starts with a digit is read with the minus sign in front of it. -/
theorem read?_signed {cs : List Char} {d : Decimal} (hfirst : ∀ c ∈ cs.head?, c.isDigit = true)
    (h : Decimal.read? cs = some d) (negative : Bool) :
    read? ((if negative then ['-'] else []) ++ cs) = some (ofDecimal negative d) := by
  rw [read?_eq, Text.takeSign_signed hfirst, h]

/-- Names stand for no finite number. -/
theorem finite?_named? (negative : Bool) (cs : List Char) :
    (named? negative cs).bind finite? = none := by
  unfold named?
  dsimp only
  split
  · rfl
  · split <;> rfl

/-- **A text with a character that no number is written with has no finite number.** -/
theorem finite?_read?_of_foreign {c : Char} (hc : Text.isNumeral c = false) {cs : List Char}
    (h : c ∈ cs) : (read? cs).bind finite? = none := by
  have hbody := Decimal.read?_of_foreign hc (Text.mem_takeSign_of_foreign hc h)
  rw [read?_eq, hbody]
  exact finite?_named? _ _

end Extended

end Reporting
