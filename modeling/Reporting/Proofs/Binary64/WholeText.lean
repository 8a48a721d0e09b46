import Reporting.Proofs.Binary64.Shortest
import Reporting.Proofs.Binary64.Whole
import Reporting.Proofs.Text.Numeral

/-!
# The text of whole numbers

The shortest decimal of a whole number up to `2 ^ 53` in size is the number itself, with the zeros at
its end as an exponent: of the whole numbers, its interval covers no other one
(`Binary64.eq_of_covers`), so the search stops at the first grid that has the number
(`Binary64.shortestFrom_whole`).  Hence such a number is written in plain digits
(`Extended.displayChars_whole`), on either side of the bound below which the digits are those of its
integer part.
-/

namespace Reporting

namespace Binary64

/-- A whole number of the bound has a step of at most two. -/
theorem spacing_mul_one_le {n : Nat} (hn : n ≤ powTwo 53) :
    precision.spacing (n * one) ≤ 2 * one := by
  have hlog : (n * one).log2 < 1128 := by
    by_cases hzero : n * one = 0
    · rw [hzero]
      decide
    · rw [log2_lt_iff hzero, one_eq]
      exact mul_powTwo_lt hn (by decide)
  have hexponent : precision.stepExponent (n * one) ≤ 1 + 1074 := by
    rw [stepExponent_precision]
    omega
  have htwo : powTwo 1 = 2 := rfl
  calc precision.spacing (n * one)
      ≤ powTwo (1 + 1074) := powTwo_le_powTwo hexponent
    _ = 2 * one := by rw [one_eq, powTwo_add, htwo]

/-- A decimal without places is a whole number. -/
theorem covers_whole_iff {units d k : Nat} :
    Covers units ⟨d, k⟩ ↔ Covers units ⟨d * Nat.pow 10 k, 0⟩ := by
  simp [Covers, Decimal.unitsNum, Decimal.unitsDen]

/-- A whole number of the bound is covered by the interval of its magnitude. -/
theorem covers_self (n : Nat) : Covers (n * one) ⟨n, 0⟩ := by
  obtain ⟨k, hk⟩ : ∃ k, one = powTwo k := ⟨1074, one_eq⟩
  refine Covers.congr ?_ (covers_exact hk rfl (n * one))
  have hone : Nat.pow 5 k * one = Nat.pow 10 k := by
    rw [hk]
    exact (Nat.mul_pow 5 2 k).symm
  have hunits : n * one * Nat.pow 5 k * one = n * one * Nat.pow 10 k := by
    rw [Nat.mul_assoc, hone]
  simpa [Decimal.Agree, Decimal.unitsNum, Decimal.unitsDen] using hunits

/-- **The interval of a whole number of the bound covers no other whole number**, except for the one
behind the bound. -/
theorem eq_of_covers {m n : Nat} (hn : n ≤ powTwo 53) (h : Covers (n * one) ⟨m, 0⟩) :
    m = n ∨ (n = powTwo 53 ∧ m = powTwo 53 + 1) := by
  have hone := one_pos
  by_cases hm : m ≤ powTwo 53
  · have hunits := units_eq_of_covers (spacing_dvd_mul_one hm) (spacing_dvd_mul_one hn)
      (covers_self m) h
    exact .inl (Nat.eq_of_mul_eq_mul_right hone hunits)
  · have hspacing := spacing_mul_one_le hn
    have hupper : 4 * (m * one) ≤ 4 * (n * one) + 2 * precision.spacing (n * one) := by
      have hends : 4 * (Decimal.mk m 0).unitsNum ≤ upperEnd (n * one) * (Decimal.mk m 0).unitsDen := by
        unfold Covers at h
        split at h
        · exact h.2
        · exact h.2.le
      simpa [Decimal.unitsNum, Decimal.unitsDen, upperEnd] using hends
    have hnext : m * one ≤ (n + 1) * one := by
      rw [Nat.add_mul]
      omega
    have hle := Nat.le_of_mul_le_mul_right hnext hone
    exact .inr (by omega)

/-! ## The search -/

section Search

variable (halfway : Halfway) {n : Nat}

/-- A grid that has the number itself offers it, as no other point is as near. -/
theorem onGrid?_of_exact {units q : Nat} {k : Int}
    (hexact : 4 * units * Nat.pow 10 (-k).toNat = q * (Nat.pow 10 k.toNat * (4 * one)))
    (hcovers : Covers units ⟨q, k⟩) : onGrid? halfway units k = some q := by
  have hinside := inInterval_iff_covers.mpr hcovers
  have hnum : 0 < Nat.pow 10 k.toNat * (4 * one) :=
    Nat.mul_pos (Nat.pow_pos (by decide)) (Nat.mul_pos (by decide) one_pos)
  unfold onGrid?
  dsimp only
  generalize Nat.pow 10 k.toNat * (4 * one) = num at *
  rw [hexact, Nat.mul_div_cancel q hnum, hinside]
  cases inInterval units num (Nat.pow 10 (-k).toNat) (q + 1) with
  | false => rfl
  | true =>
      have hnearer : q * num - q * num < (q + 1) * num - q * num := by
        rw [Nat.add_mul, Nat.one_mul]
        omega
      exact if_pos hnearer

/-- A grid that has a whole number offers it. -/
theorem onGrid?_of_dvd {k : Nat} (h : Nat.pow 10 k ∣ n) :
    onGrid? halfway (n * one) k = some (n / Nat.pow 10 k) := by
  obtain ⟨q, rfl⟩ := h
  have hten : 0 < Nat.pow 10 k := Nat.pow_pos (by decide)
  have hcovers : Covers (Nat.pow 10 k * q * one) ⟨q, k⟩ := by
    rw [covers_whole_iff, Nat.mul_comm q]
    exact covers_self _
  have hplaces : Nat.pow 10 0 = 1 := rfl
  rw [Nat.mul_div_cancel_left q hten]
  refine onGrid?_of_exact halfway ?_ hcovers
  rw [Int.toNat_natCast, Int.toNat_neg_natCast, hplaces, Nat.mul_one, Nat.mul_comm (Nat.pow 10 k) q,
    Nat.mul_assoc q, Nat.mul_left_comm 4 q, Nat.mul_left_comm 4]

/-- A grid without the number offers nothing. -/
theorem onGrid?_of_not_dvd (hn : n ≤ powTwo 53) {k : Nat} (h : ¬ Nat.pow 10 k ∣ n) :
    onGrid? halfway (n * one) k = none := by
  cases hgrid : onGrid? halfway (n * one) k with
  | none => rfl
  | some d =>
      have hcovers := covers_whole_iff.mp (covers_of_onGrid? hgrid)
      rcases eq_of_covers hn hcovers with hsame | ⟨-, hnext⟩
      · exact absurd (Dvd.intro_left d hsame) h
      · -- The number behind the bound ends in three, so only the finest of these grids has it.
        cases k with
        | zero => exact absurd (Nat.one_dvd n) h
        | succ k =>
            have hpow : Nat.pow 10 (k + 1) = Nat.pow 10 k * 10 := rfl
            have hbound : powTwo 53 = 9007199254740992 := rfl
            rw [hpow, ← Nat.mul_assoc, hbound] at hnext
            omega

/-- **The search finds the number** on the coarsest of the grids that have it. -/
theorem shortestFrom_whole (hn : n ≤ powTwo 53) {k fuel : Nat} (hfuel : k < fuel) :
    ∃ j : Nat, Nat.pow 10 j ∣ n ∧ shortestFrom halfway (n * one) fuel k = ⟨n / Nat.pow 10 j, j⟩ := by
  induction k generalizing fuel with
  | zero =>
      obtain ⟨fuel, rfl⟩ := Nat.exists_eq_add_one.mpr hfuel
      refine ⟨0, Nat.one_dvd n, ?_⟩
      rw [shortestFrom, onGrid?_of_dvd halfway (Nat.one_dvd n)]
  | succ k ih =>
      obtain ⟨fuel, rfl⟩ := Nat.exists_eq_add_one.mpr (Nat.zero_lt_of_lt hfuel)
      by_cases hdvd : Nat.pow 10 (k + 1) ∣ n
      · refine ⟨k + 1, hdvd, ?_⟩
        rw [shortestFrom, onGrid?_of_dvd halfway hdvd]
      · obtain ⟨j, hj, hfound⟩ := ih (Nat.lt_of_succ_lt_succ hfuel)
        refine ⟨j, hj, ?_⟩
        have hnext : ((k + 1 : Nat) : Int) - 1 = k := by omega
        rw [shortestFrom, onGrid?_of_not_dvd halfway hn hdvd, hnext]
        exact hfound

/-- The search starts at a grid that is not finer than one. -/
theorem exists_coarsest (hpos : 0 < n) : ∃ k : Nat, coarsest (n * one) = k := by
  have hlog : 1074 ≤ (n * one).log2 := by
    have hone : powTwo 1074 ≤ n * one := by
      rw [one_eq]
      exact Nat.le_mul_of_pos_left _ hpos
    exact Nat.not_lt.mp fun hless =>
      absurd ((log2_lt_iff (Nat.mul_pos hpos one_pos).ne').mp hless) (Nat.not_lt.mpr hone)
  exact Int.eq_ofNat_of_zero_le (by unfold coarsest; omega)

end Search

/-- **The shortest decimal of a whole number** of the bound is written in its digits. -/
theorem positional_shortest (halfway : Halfway) {x : Binary64} {n : Nat} (hn : n ≤ powTwo 53)
    (hpos : 0 < n) (hx : x.units = n * one) : (x.shortest halfway).positional = Text.digits n := by
  obtain ⟨k, hk⟩ := exists_coarsest hpos
  have hfuel : k < k + 1074 := by omega
  obtain ⟨j, ⟨q, rfl⟩, hfound⟩ := shortestFrom_whole halfway hn hfuel
  have hten : 0 < Nat.pow 10 j := Nat.pow_pos (by decide)
  have hq : 0 < q := Nat.pos_of_mul_pos_left hpos
  have hunits : x.units ≠ 0 := by
    rw [hx]
    exact (Nat.mul_pos hpos one_pos).ne'
  have hsteps : ((k : Int) + 1074).toNat = k + 1074 := by omega
  rw [Nat.mul_div_cancel_left q hten] at hfound
  unfold shortest
  rw [if_neg hunits, hx]
  dsimp only
  rw [hk, hsteps, hfound, Nat.mul_comm, Text.digits_mul_pow_ten hq]
  simp [Decimal.positional]

end Binary64

namespace Extended

/-- A whole number of the bound is written in positional form as in plain digits, zero apart: the
positional form shows its sign. -/
theorem positionalText_whole {x : Binary64} (hwhole : x.isWhole = true)
    (hbound : x.truncate.natAbs ≤ powTwo 53) (hne : x.truncate ≠ 0) :
    (finite x).positionalText = Text.signedDigits x.truncate := by
  have hsign : x.negative = true ↔ x.truncate < 0 := by
    unfold Binary64.truncate at hne ⊢
    generalize x.units / Binary64.one = n at hne ⊢
    split at hne
    · rename_i hnegative
      rw [hnegative, if_pos rfl]
      exact iff_of_true rfl (by omega)
    · rename_i hnegative
      rw [if_neg hnegative]
      exact iff_of_false hnegative (by omega)
  have hunits : x.units = x.truncate.natAbs * Binary64.one := by
    rw [Binary64.natAbs_truncate]
    exact (Nat.div_mul_cancel (Nat.dvd_of_mod_eq_zero (by simpa [Binary64.isWhole] using hwhole))).symm
  have hpos : 0 < x.truncate.natAbs := Int.natAbs_pos.mpr hne
  unfold positionalText Text.signedDigits
  dsimp only
  rw [Binary64.positional_shortest .up hbound hpos hunits]
  by_cases hnegative : x.negative = true
  · rw [if_pos hnegative, if_pos (hsign.mp hnegative)]
    rfl
  · rw [if_neg hnegative, if_neg (mt hsign.mpr hnegative)]
    rfl

/-- **A whole number up to `2 ^ 53` is written in plain digits**, whether or not it is below the bound
where the digits are those of its integer part. -/
theorem displayChars_whole {x : Binary64} (hwhole : x.isWhole = true)
    (hbound : x.truncate.natAbs ≤ powTwo 53) :
    (finite x).displayChars = Text.signedDigits x.truncate := by
  unfold displayChars
  dsimp only
  split
  · rfl
  · rename_i hlarge
    refine positionalText_whole hwhole hbound fun hzero => hlarge ⟨hwhole, ?_⟩
    have hnone : x.units / Binary64.one = 0 := by
      rw [← Binary64.natAbs_truncate, hzero]
      rfl
    calc x.units
        < 1 * Binary64.one := (Nat.div_lt_iff_lt_mul Binary64.one_pos).mp (by omega)
      _ ≤ Nat.pow 10 15 * Binary64.one := Nat.mul_le_mul_right Binary64.one (by decide)

end Extended

end Reporting
