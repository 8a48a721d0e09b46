import Reporting.Proofs.Binary64.Nearest
import Reporting.Proofs.Binary64.Whole

/-!
# Results within bounds

Rounding does not pass a number of the format.  So a rounded quotient stays between two numbers that
the exact one lies between, and then it is finite (`Extended.exists_div_between`).  A rounded sum of
numbers that are not negative is at least each of them, unless it is out of range
(`Extended.add_nonneg`), and a rounded count stays on its side of every power of two
(`Extended.exists_ofNat_between`, `Extended.ofNat_ge`).
-/

namespace Reporting

namespace Binary64

/-- The number with a power of two of units. -/
def power (k : Nat) (h : k < 2098) : Binary64 where
  negative := false
  units := powTwo k
  aligned := by
    have haligned := precision.spacing_dvd_mul_powTwo (powTwo_pos precision.bits) (Nat.zero_le k)
    rwa [Nat.one_mul] at haligned
  inRange := by
    rw [limit_eq]
    exact powTwo_lt_powTwo h

/-- The number with the other sign. -/
def negate (x : Binary64) : Binary64 :=
  { x with negative := !x.negative }

@[simp] theorem value_power {k : Nat} (h : k < 2098) : (power k h).value = (powTwo k : Int) := rfl

@[simp] theorem value_negate (x : Binary64) : x.negate.value = -x.value := by
  grind [value, negate]

theorem value_of_nonneg {x : Binary64} (h : 0 ≤ x.value) : x.value = x.units := by
  grind [value]

theorem value_of_unsigned {x : Binary64} (h : x.negative = false) : x.value = x.units := by
  grind [value]

theorem value_of_signed {x : Binary64} (h : x.negative = true) : x.value = -x.units := by
  grind [value]

/-- A positive number has no minus sign. -/
theorem negative_of_pos {x : Binary64} (h : 0 < x.value) : x.negative = false := by
  grind [value]

end Binary64

namespace Extended

/-- A quotient is rounded to a number with its sign, or beyond the range it is infinite. -/
theorem ofQuotient_cases (negative : Bool) (num den : Nat) :
    (ofQuotient negative num den = infinite negative ∧
        Binary64.limit ≤ Binary64.precision.round num den) ∨
      ∃ z, ofQuotient negative num den = finite z ∧ z.negative = negative ∧
        z.units = Binary64.precision.round num den := by
  unfold ofQuotient
  split
  · exact .inr ⟨_, rfl, rfl, rfl⟩
  · rename_i hrange
    exact .inl ⟨rfl, Nat.not_lt.mp hrange⟩

/-- A quotient that is not below a number is rounded to a magnitude that is not below it. -/
theorem le_round {x : Binary64} {num den : Nat} (hden : 0 < den) (h : x.value * den ≤ num) :
    x.value ≤ Binary64.precision.round num den := by
  rcases Int.le_total x.value 0 with hneg | hpos
  · omega
  · rw [Binary64.value_of_nonneg hpos] at h ⊢
    have hnum : den * x.units ≤ num := by
      rw [Nat.mul_comm]
      exact_mod_cast h
    exact_mod_cast Binary64.precision.le_round hden x.aligned hnum

/-- A quotient that is not above a number is rounded to a magnitude that is not above it, which is
in range. -/
theorem round_le {x : Binary64} {num den : Nat} (hden : 0 < den) (h : (num : Int) ≤ x.value * den) :
    (Binary64.precision.round num den : Int) ≤ x.value ∧
      Binary64.precision.round num den < Binary64.limit := by
  have hpos : 0 ≤ x.value := by
    by_contra hneg
    have hbelow : x.value * den < 0 :=
      Int.mul_neg_of_neg_of_pos (Int.not_le.mp hneg) (Int.natCast_pos.mpr hden)
    omega
  rw [Binary64.value_of_nonneg hpos] at h ⊢
  have hnum : num ≤ den * x.units := by
    rw [Nat.mul_comm]
    exact_mod_cast h
  have hle := Binary64.precision.round_le hden x.aligned hnum
  exact ⟨by exact_mod_cast hle, hle.trans_lt x.inRange⟩

/-- A sum of magnitudes is rounded by at most one of them, since the other is in the format. -/
theorem round_add_le (x : Binary64) (n : Nat) :
    Binary64.precision.round (x.units + n) 1 ≤ x.units + 2 * n := by
  have hnear := Binary64.precision.dist_round_le (x.units + n) Nat.one_pos x.aligned
  unfold Nat.dist at hnear
  omega

/-- **A sum of numbers that are not negative is at least each of them**, unless it is out of range.
Rounding adds at most what is added. -/
theorem add_nonneg {x y : Binary64} (hx : 0 ≤ x.value) (hy : 0 ≤ y.value) :
    (finite x + finite y = infinite false ∧ Binary64.limit ≤ x.value + 2 * y.value) ∨
      ∃ z, finite x + finite y = finite z ∧ x.value ≤ z.value ∧ y.value ≤ z.value ∧
        z.value ≤ x.value + 2 * y.value := by
  have hadd : finite x + finite y
      = if x.value + y.value = 0 then finite (Binary64.zero (x.negative && y.negative))
        else ofQuotient (x.value + y.value < 0) (x.value + y.value).natAbs 1 := rfl
  by_cases hzero : x.value + y.value = 0
  · refine .inr ⟨_, hadd.trans (if_pos hzero), ?_⟩
    have hvalue : (Binary64.zero (x.negative && y.negative)).value = 0 := by
      simp [Binary64.value, Binary64.zero]
    omega
  · have hsign : decide (x.value + y.value < 0) = false := decide_eq_false (by omega)
    have hupper := round_add_le x y.units
    have hunits : (x.value + y.value).natAbs = x.units + y.units := by
      rw [Binary64.value_of_nonneg hx, Binary64.value_of_nonneg hy]
      omega
    rw [if_neg hzero, hsign, hunits] at hadd
    rw [Binary64.value_of_nonneg hx, Binary64.value_of_nonneg hy]
    rcases ofQuotient_cases false (x.units + y.units) 1 with ⟨hinf, hrange⟩ | ⟨z, hz, hpos, hround⟩
    · refine .inl ⟨hadd.trans hinf, ?_⟩
      omega
    · have hleft : x.units ≤ z.units := by
        rw [hround]
        exact Binary64.precision.le_round Nat.one_pos x.aligned (by omega)
      have hright : y.units ≤ z.units := by
        rw [hround]
        exact Binary64.precision.le_round Nat.one_pos y.aligned (by omega)
      refine .inr ⟨z, hadd.trans hz, ?_⟩
      rw [Binary64.value_of_unsigned hpos]
      omega

/-- A quotient by a positive number is the quotient of the magnitudes with the sign of the
dividend. -/
theorem div_of_pos (s : Binary64) {c : Binary64} (hc : 0 < c.value) :
    finite s / finite c = ofQuotient s.negative (s.units * Binary64.one) c.units := by
  have hunits : c.units ≠ 0 := by
    have hvalue := Binary64.value_of_nonneg hc.le
    omega
  have hdiv : finite s / finite c
      = if c.units = 0 then
          if s.units = 0 then undefined else infinite (s.negative != c.negative)
        else ofQuotient (s.negative != c.negative) (s.units * Binary64.one) c.units := rfl
  rw [hdiv, if_neg hunits, Binary64.negative_of_pos hc, Bool.bne_false]

/-- A quotient of magnitudes that lies between two numbers is rounded to one that does. -/
theorem exists_ofQuotient_between (negative : Bool) {num den : Nat} {lo hi : Binary64}
    (hden : 0 < den) (hlo : lo.value * den ≤ num) (hhi : (num : Int) ≤ hi.value * den) :
    ∃ z, ofQuotient negative num den = finite z ∧ z.negative = negative ∧
      lo.value ≤ z.units ∧ (z.units : Int) ≤ hi.value := by
  obtain ⟨hle, hrange⟩ := round_le hden hhi
  exact ⟨_, dif_pos hrange, rfl, le_round hden hlo, hle⟩

/-- **A quotient by a positive number stays between two numbers** that the exact quotient lies
between. -/
theorem exists_div_between {s c lo hi : Binary64} (hc : 0 < c.value)
    (hlo : lo.value * c.value ≤ s.value * Binary64.one)
    (hhi : s.value * Binary64.one ≤ hi.value * c.value) :
    ∃ z, finite s / finite c = finite z ∧ lo.value ≤ z.value ∧ z.value ≤ hi.value := by
  have hden : c.value = c.units := Binary64.value_of_nonneg hc.le
  have hpos : 0 < c.units := by omega
  rw [div_of_pos s hc]
  rw [hden] at hlo hhi
  cases hsign : s.negative with
  | false =>
      rw [Binary64.value_of_unsigned hsign, ← Int.natCast_mul] at hlo hhi
      obtain ⟨z, hz, hzsign, hle, hge⟩ := exists_ofQuotient_between false hpos hlo hhi
      refine ⟨z, hz, ?_⟩
      rw [Binary64.value_of_unsigned hzsign]
      exact ⟨hle, hge⟩
  | true =>
      -- The magnitude lies between the bounds with their signs turned.
      rw [Binary64.value_of_signed hsign, Int.neg_mul, ← Int.natCast_mul] at hlo hhi
      have hbelow : hi.negate.value * c.units ≤ (s.units * Binary64.one : Nat) := by
        rw [Binary64.value_negate, Int.neg_mul]
        omega
      have habove : ((s.units * Binary64.one : Nat) : Int) ≤ lo.negate.value * c.units := by
        rw [Binary64.value_negate, Int.neg_mul]
        omega
      obtain ⟨z, hz, hzsign, hle, hge⟩ := exists_ofQuotient_between true hpos hbelow habove
      refine ⟨z, hz, ?_⟩
      rw [Binary64.value_negate] at hle hge
      rw [Binary64.value_of_signed hzsign]
      omega

/-- **A count that lies between two numbers is rounded to one that does.** -/
theorem exists_ofNat_between {n : Nat} {lo hi : Binary64} (hlo : lo.value ≤ n * Binary64.one)
    (hhi : n * Binary64.one ≤ hi.value) :
    ∃ c, ofNat n = finite c ∧ lo.value ≤ c.value ∧ c.value ≤ hi.value := by
  rw [← Int.natCast_mul] at hlo hhi
  have hbelow : lo.value * (1 : Nat) ≤ (n * Binary64.one : Nat) := by omega
  have habove : ((n * Binary64.one : Nat) : Int) ≤ hi.value * (1 : Nat) := by omega
  obtain ⟨c, hc, hsign, hle, hge⟩ := exists_ofQuotient_between false Nat.one_pos hbelow habove
  refine ⟨c, hc, ?_⟩
  rw [Binary64.value_of_unsigned hsign]
  exact ⟨hle, hge⟩

/-- A positive count of up to 64 bits is rounded to a number between one and `2 ^ 64`. -/
theorem exists_ofNat_of_pos {n : Nat} (hn : 0 < n) (hcount : n ≤ powTwo 64) :
    ∃ c, ofNat n = finite c ∧ (powTwo 1074 : Int) ≤ c.value ∧ c.value ≤ powTwo (64 + 1074) := by
  have hlo : (Binary64.power 1074 (by decide)).value ≤ n * Binary64.one := by
    rw [Binary64.value_power, Binary64.one_eq]
    exact_mod_cast Nat.le_mul_of_pos_left _ hn
  have hhi : n * Binary64.one ≤ (Binary64.power (64 + 1074) (by decide)).value := by
    rw [Binary64.value_power, powTwo_add, Binary64.one_eq]
    exact_mod_cast Nat.mul_le_mul_right _ hcount
  obtain ⟨c, hc, hclo, hchi⟩ := exists_ofNat_between hlo hhi
  rw [Binary64.value_power] at hclo hchi
  exact ⟨c, hc, hclo, hchi⟩

/-- A count that is not below a number is rounded to one that is not below it or is out of range. -/
theorem ofNat_ge {n : Nat} {lo : Binary64} (hlo : lo.value ≤ n * Binary64.one) :
    ofNat n = infinite false ∨ ∃ c, ofNat n = finite c ∧ lo.value ≤ c.value := by
  rcases ofQuotient_cases false (n * Binary64.one) 1 with ⟨hinf, -⟩ | ⟨c, hc, hsign, hunits⟩
  · exact .inl hinf
  · refine .inr ⟨c, hc, ?_⟩
    rw [Binary64.value_of_unsigned hsign, hunits]
    exact le_round Nat.one_pos (by push_cast; omega)

end Extended

end Reporting
