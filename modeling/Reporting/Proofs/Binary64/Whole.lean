import Reporting.Record.View

/-!
# Whole numbers up to `2 ^ 53`

A binary64 number has 53 significant bits, so whole numbers up to `2 ^ 53` in size are numbers of
the format and rounding does not move them.  As long as the results stay within this bound, a sum
of whole numbers is exact (`Extended.add_whole`) and so is the number of a count
(`Extended.ofNat_whole`).

A computed number may be turned into an integer when it becomes a cell.  The cell has the number's
value in either case (`Json.numberView_ofExtended`).
-/

namespace Reporting

namespace Binary64

/-- A whole number of the bound is a magnitude of the format. -/
theorem spacing_dvd_mul_one {n : Nat} (h : n ≤ powTwo 53) :
    precision.spacing (n * one) ∣ n * one := by
  rw [one_eq]
  exact precision.spacing_dvd_mul_powTwo h (Nat.zero_le _)

theorem mul_one_lt_limit {n : Nat} (h : n ≤ powTwo 53) : n * one < limit := by
  rw [one_eq, limit_eq]
  exact mul_powTwo_lt h (by decide)

/-- Rounding does not move a whole number of the bound. -/
theorem round_mul_one {n : Nat} (h : n ≤ powTwo 53) :
    precision.round (n * one) 1 = n * one :=
  precision.round_of_spacing_dvd (spacing_dvd_mul_one h)

/-- The magnitude of the integer part is the quotient of the units. -/
theorem natAbs_truncate (x : Binary64) : x.truncate.natAbs = x.units / one := by
  unfold truncate
  split
  · exact (Int.natAbs_neg _).trans (Int.natAbs_natCast _)
  · exact Int.natAbs_natCast _

/-- A number without a fraction is its integer part. -/
theorem value_eq_truncate_mul {x : Binary64} (h : x.isWhole = true) :
    x.value = x.truncate * one := by
  have hdvd : one ∣ x.units := Nat.dvd_of_mod_eq_zero (by simpa [isWhole] using h)
  obtain ⟨k, hk⟩ := hdvd
  have hquot : x.units / one = k := by rw [hk, Nat.mul_div_cancel_left k one_pos]
  have hunits : (x.units : Int) = k * one := by
    rw [hk, Nat.mul_comm]
    exact Int.natCast_mul k one
  unfold value truncate
  rw [hquot, hunits]
  split
  · exact (Int.neg_mul _ _).symm
  · rfl

/-- A number of a whole value has no fraction, and its integer part is the value. -/
theorem isWhole_of_value {x : Binary64} {n : Int} (h : x.value = n * one) :
    x.isWhole = true ∧ x.truncate = n := by
  have hunits : x.units = n.natAbs * one := by
    have habs : x.value.natAbs = x.units := by
      unfold value
      split <;> omega
    rw [← habs, h, Int.natAbs_mul]
    rfl
  have hsign : x.truncate = if x.negative then -(n.natAbs : Int) else n.natAbs := by
    rw [truncate, hunits, Nat.mul_div_cancel _ one_pos]
  refine ⟨by simp [isWhole, hunits], ?_⟩
  have hone : (0 : Int) < one := Int.natCast_pos.mpr one_pos
  rw [hsign]
  unfold value at h
  split at h
  · rename_i hnegative
    have hn : n ≤ 0 := Int.not_lt.mp fun hpos => by
      have hprod := Int.mul_pos hpos hone
      omega
    rw [if_pos hnegative]
    omega
  · rename_i hpositive
    have hn : 0 ≤ n := Int.not_lt.mp fun hneg => by
      have hprod := Int.mul_neg_of_neg_of_pos hneg hone
      omega
    rw [if_neg hpositive]
    omega

/-- The number nearest to an integer of the bound is the integer. -/
theorem value_ofInt {n : Int} (h : n.natAbs ≤ powTwo 64) (hn : n.natAbs ≤ powTwo 53) :
    (ofInt n h).value = n * one := by
  unfold value ofInt
  simp only [round_mul_one hn, decide_eq_true_eq, Int.natCast_mul]
  split
  · rw [← Int.neg_mul]
    congr 1
    omega
  · congr 1
    omega

/-- The number nearest to an integer of the bound has no fraction. -/
theorem isWhole_ofInt {n : Int} (h : n.natAbs ≤ powTwo 64) (hn : n.natAbs ≤ powTwo 53) :
    (ofInt n h).isWhole = true := by
  unfold isWhole ofInt
  simp only [round_mul_one hn, Nat.mul_mod_left, beq_self_eq_true]

end Binary64

namespace Extended

/-- A quotient that is a magnitude of the format is exact. -/
theorem ofQuotient_of_spacing_dvd (negative : Bool) {units : Nat}
    (haligned : Binary64.precision.spacing units ∣ units) (hrange : units < Binary64.limit) :
    ofQuotient negative units 1 = .finite ⟨negative, units, haligned, hrange⟩ := by
  have hround := Binary64.precision.round_of_spacing_dvd haligned
  unfold ofQuotient
  rw [dif_pos (by rw [hround]; exact hrange)]
  simp only [hround]

/-- **Whole numbers add up exactly** if their sum stays within the bound. -/
theorem add_whole {x y : Binary64} {n : Int} (hsum : x.value + y.value = n * Binary64.one)
    (hn : n.natAbs ≤ powTwo 53) :
    ∃ z, finite x + finite y = finite z ∧ z.value = x.value + y.value := by
  have habs : (x.value + y.value).natAbs = n.natAbs * Binary64.one := by
    rw [hsum, Int.natAbs_mul]
    rfl
  have haligned := Binary64.spacing_dvd_mul_one hn
  have hrange := Binary64.mul_one_lt_limit hn
  rw [← habs] at haligned hrange
  show ∃ z, add (finite x) (finite y) = finite z ∧ _
  unfold add
  by_cases hzero : x.value + y.value = 0
  · refine ⟨_, if_pos hzero, ?_⟩
    rw [hzero]
    simp [Binary64.value, Binary64.zero]
  · refine ⟨_, (if_neg hzero).trans (ofQuotient_of_spacing_dvd _ haligned hrange), ?_⟩
    unfold Binary64.value
    simp only [decide_eq_true_eq]
    split <;> omega

/-- The number of a count within the bound is the count. -/
theorem ofNat_whole {n : Nat} (hn : n ≤ powTwo 53) :
    ∃ z, ofNat n = finite z ∧ z.value = (n : Int) * Binary64.one := by
  refine ⟨_, ofQuotient_of_spacing_dvd false (Binary64.spacing_dvd_mul_one hn)
    (Binary64.mul_one_lt_limit hn), ?_⟩
  unfold Binary64.value
  exact Int.natCast_mul n Binary64.one

end Extended

/-- An integer that a word of 64 bits holds, with or without a sign, becomes a whole number. -/
theorem Json.ofInt_eq_whole {n : Int} (hlower : -9223372036854775808 ≤ n)
    (hupper : n ≤ 18446744073709551615) :
    Json.ofInt n = .num (.whole ⟨n, hlower, hupper⟩) := by
  simp only [ofInt, Whole.ofInt?, dif_pos (And.intro hlower hupper)]

/-- A computed number becomes an integer of the bound, which is its integer part, or it stays as it
is. -/
theorem Json.ofExtended_finite (x : Binary64) :
    (∃ n : Whole, Json.ofExtended (.finite x) = .num (.whole n) ∧ n.val = x.truncate ∧
      x.isWhole = true ∧ x.truncate.natAbs ≤ powTwo 53) ∨
      Json.ofExtended (.finite x) = .num (.real x) := by
  have hcell : Json.ofExtended (.finite x)
      = if x.isWhole ∧ x.units < 9 * Nat.pow 10 15 * Binary64.one then ofInt x.truncate
        else .num (.real x) := rfl
  rw [hcell]
  by_cases h : x.isWhole ∧ x.units < 9 * Nat.pow 10 15 * Binary64.one
  -- The bound below which a cell becomes an integer is less than `2 ^ 53`.
  · have hsmall : x.truncate.natAbs < 9 * Nat.pow 10 15 := by
      rw [Binary64.natAbs_truncate]
      exact Nat.div_lt_of_lt_mul (by rw [Nat.mul_comm]; exact h.2)
    have hten : 9 * Nat.pow 10 15 = 9000000000000000 := rfl
    have hfits : -9223372036854775808 ≤ x.truncate ∧ x.truncate ≤ 18446744073709551615 := by
      omega
    have hbound : x.truncate.natAbs ≤ powTwo 53 := by
      have hpow : powTwo 53 = 9007199254740992 := rfl
      omega
    rw [if_pos h]
    exact .inl ⟨⟨x.truncate, hfits.1, hfits.2⟩, ofInt_eq_whole hfits.1 hfits.2, rfl, h.1, hbound⟩
  · rw [if_neg h]
    exact .inr rfl

/-- **A cell has the value of the number** that it was made of, whether it became an integer or
stayed a real number. -/
theorem Json.numberView_ofExtended (x : Binary64) :
    ∃ y, (Json.ofExtended (.finite x)).numberView = some y ∧ y.value = x.value := by
  rcases Json.ofExtended_finite x with ⟨n, hcell, hn, hwhole, hbound⟩ | hcell
  · rw [hcell]
    refine ⟨n.toBinary64, rfl, ?_⟩
    rw [Whole.toBinary64, Binary64.value_ofInt _ (hn ▸ hbound), hn,
      Binary64.value_eq_truncate_mul hwhole]
  · rw [hcell]
    exact ⟨x, rfl, rfl⟩

end Reporting
