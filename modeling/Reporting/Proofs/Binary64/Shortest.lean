import Mathlib.Algebra.Order.Ring.Nat
import Mathlib.Data.Nat.Log
import Reporting.Binary64.Shortest

/-!
# Shortest decimals tell numbers apart

The decimals that round to a number fill an interval around it.  The intervals of two numbers share
at most an end (`Binary64.upperEnd_le_lowerEnd`), and where they do, the end belongs to one of them
only, because of two neighbours one has an odd significand.

The search for a shortest decimal stops inside the interval of its number, however long it goes on
(`Binary64.covers_shortest`).  So numbers whose shortest decimals have the same value are the same up
to their sign (`Binary64.units_eq_of_covers`).
-/

namespace Reporting

namespace Binary64

/-! ## Steps -/

theorem powTwo_bits : powTwo precision.bits = 9007199254740992 :=
  rfl

theorem powTwo_fiftyTwo : powTwo 52 = 4503599627370496 :=
  rfl

theorem stepExponent_precision (n : Nat) : precision.stepExponent n = n.log2 + 1 - 53 :=
  Nat.max_zero _

/-- Greater numbers have greater steps. -/
theorem stepExponent_mono {m n : Nat} (h : m ≤ n) :
    precision.stepExponent m ≤ precision.stepExponent n := by
  have hlog : m.log2 ≤ n.log2 := by
    rw [Nat.log2_eq_log_two, Nat.log2_eq_log_two]
    exact Nat.log_mono_right h
  rw [stepExponent_precision, stepExponent_precision]
  omega

/-- A number is below `2 ^ 53` of its steps. -/
theorem lt_mul_spacing (n : Nat) : n < 9007199254740992 * precision.spacing n := by
  have h := precision.lt_powTwo n
  rwa [powTwo_add, powTwo_bits] at h

/-- A number with a step of more than a unit has at least `2 ^ 52` of its steps. -/
theorem mul_spacing_le {n : Nat} (h : precision.stepExponent n ≠ 0) :
    4503599627370496 * precision.spacing n ≤ n := by
  have hexponent := stepExponent_precision n
  have hn : n ≠ 0 := by
    rintro rfl
    simp [stepExponent_precision] at h
  have hhead : powTwo (52 + precision.stepExponent n) ≤ n := by
    have hlog : 52 + precision.stepExponent n = n.log2 := by omega
    rw [hlog]
    exact Nat.log2_self_le hn
  rwa [powTwo_add, powTwo_fiftyTwo] at hhead

/-- Multiples of a step that differ are apart by the step. -/
theorem add_le_of_dvd {step m n : Nat} (hm : step ∣ m) (hn : step ∣ n) (h : m < n) :
    m + step ≤ n := by
  obtain ⟨a, rfl⟩ := hm
  obtain ⟨b, rfl⟩ := hn
  have hab : a < b := Nat.lt_of_mul_lt_mul_left h
  calc step * a + step = step * (a + 1) := rfl
    _ ≤ step * b := Nat.mul_le_mul_left step hab

/-- Of neighbouring multiples of a step one is odd. -/
theorem not_both_closedEnds {m n : Nat} (hstep : precision.spacing n = precision.spacing m)
    (h : n = m + precision.spacing m) : closedEnds m = false ∨ closedEnds n = false := by
  have hpos := precision.spacing_pos m
  have hquot : n / precision.spacing n = m / precision.spacing m + 1 := by
    rw [hstep, h, Nat.add_div_right m hpos]
  unfold closedEnds
  rw [hquot]
  by_cases heven : m / precision.spacing m % 2 = 0
  · exact .inr (by simp; omega)
  · exact .inl (by simpa using heven)

/-- The greatest number with a step is odd. -/
theorem closedEnds_of_last {n : Nat}
    (h : n + precision.spacing n = 9007199254740992 * precision.spacing n) :
    closedEnds n = false := by
  have hpos := precision.spacing_pos n
  have hn : n = 9007199254740991 * precision.spacing n := by omega
  have hquot : n / precision.spacing n = 9007199254740991 :=
    Nat.div_eq_of_eq_mul_left hpos hn
  unfold closedEnds
  rw [hquot]
  rfl

/-! ## Intervals -/

section Neighbours

variable {m n : Nat} (hm : precision.spacing m ∣ m) (hn : precision.spacing n ∣ n) (h : m < n)
include hm hn h

/-- Numbers with one step: the intervals meet halfway between neighbours. -/
theorem upperEnd_le_lowerEnd_of_eq (hstep : precision.spacing n = precision.spacing m) :
    upperEnd m ≤ lowerEnd n ∧
      (upperEnd m = lowerEnd n → closedEnds m = false ∨ closedEnds n = false) := by
  have hapart : m + precision.spacing m ≤ n := add_le_of_dvd hm (hstep ▸ hn) h
  have hodd := not_both_closedEnds hstep
  have hpos := precision.spacing_pos m
  -- A power of two is the least number with its step, unless the step is a unit.
  have hinner : ¬(n = precision.spacing n * powTwo 52 ∧ 1 < precision.spacing n) := by
    rintro ⟨hhead, hcoarse⟩
    have hmore : precision.stepExponent m ≠ 0 := by
      intro hzero
      have hunit : precision.spacing m = 1 := congrArg powTwo hzero
      omega
    have hleast := mul_spacing_le hmore
    rw [powTwo_fiftyTwo] at hhead
    omega
  unfold upperEnd lowerEnd
  simp only [if_neg hinner]
  rw [hstep]
  refine ⟨by omega, fun hmeet => hodd ?_⟩
  omega

/-- Numbers with different steps: the intervals can meet only at a power of two. -/
theorem upperEnd_le_lowerEnd_of_lt
    (hexponent : precision.stepExponent m < precision.stepExponent n) :
    upperEnd m ≤ lowerEnd n ∧
      (upperEnd m = lowerEnd n → closedEnds m = false ∨ closedEnds n = false) := by
  have hdouble : 2 * precision.spacing m ≤ precision.spacing n :=
    calc 2 * precision.spacing m = powTwo (precision.stepExponent m + 1) := by
          rw [powTwo_add, Nat.mul_comm]
          rfl
      _ ≤ precision.spacing n := powTwo_le_powTwo hexponent
  have hpos := precision.spacing_pos m
  have hleast : 4503599627370496 * precision.spacing n ≤ n := mul_spacing_le (by omega)
  have hlast : m + precision.spacing m ≤ 9007199254740992 * precision.spacing m :=
    add_le_of_dvd hm (Nat.dvd_mul_left _ _) (lt_mul_spacing m)
  have hodd := closedEnds_of_last (n := m)
  -- The intervals are compared at the power of two between the numbers, counted in either step.
  have hscale : 2 * (4503599627370496 * precision.spacing m) + precision.spacing n
      ≤ 4503599627370496 * precision.spacing n + 2 * precision.spacing m := by
    obtain ⟨more, hmore⟩ := Nat.exists_eq_add_of_le hdouble
    omega
  have hhalf : 9007199254740992 * precision.spacing m
      = 2 * (4503599627370496 * precision.spacing m) := by omega
  rw [hhalf] at hlast hodd
  unfold upperEnd lowerEnd
  by_cases hhead : n = precision.spacing n * powTwo 52 ∧ 1 < precision.spacing n
  · simp only [if_pos hhead]
    obtain ⟨hpower, -⟩ := hhead
    rw [powTwo_fiftyTwo, Nat.mul_comm] at hpower
    generalize 4503599627370496 * precision.spacing m = least at *
    generalize 4503599627370496 * precision.spacing n = least' at *
    refine ⟨by omega, fun hmeet => .inl (hodd ?_)⟩
    omega
  · simp only [if_neg hhead]
    rw [powTwo_fiftyTwo] at hhead
    have hnext : 4503599627370496 * precision.spacing n + precision.spacing n ≤ n :=
      add_le_of_dvd (Nat.dvd_mul_left _ _) hn (by omega)
    generalize 4503599627370496 * precision.spacing m = least at *
    generalize 4503599627370496 * precision.spacing n = least' at *
    omega

/-- **Intervals do not overlap.**  The interval of a number ends where the interval of a greater
number begins, at the latest, and if it ends there the end is not in both. -/
theorem upperEnd_le_lowerEnd :
    upperEnd m ≤ lowerEnd n ∧
      (upperEnd m = lowerEnd n → closedEnds m = false ∨ closedEnds n = false) := by
  rcases Nat.lt_or_eq_of_le (stepExponent_mono h.le) with hless | hsame
  · exact upperEnd_le_lowerEnd_of_lt hm hn h hless
  · exact upperEnd_le_lowerEnd_of_eq hm hn h (congrArg powTwo hsame.symm)

end Neighbours

end Binary64

/-! ## Decimals inside an interval -/

namespace Decimal

/-- Whether two decimals have the same value. -/
def Agree (d e : Decimal) : Prop :=
  d.unitsNum * e.unitsDen = e.unitsNum * d.unitsDen

theorem unitsDen_pos (d : Decimal) : 0 < d.unitsDen :=
  Nat.pow_pos (by decide)

section Agree

variable {d e : Decimal} (h : d.Agree e)
include h

/-- Decimals of the same value have the same multiples above them. -/
theorem Agree.le_iff (a b : Nat) :
    a * d.unitsDen ≤ b * d.unitsNum ↔ a * e.unitsDen ≤ b * e.unitsNum :=
  calc a * d.unitsDen ≤ b * d.unitsNum
      ↔ a * d.unitsDen * e.unitsDen ≤ b * d.unitsNum * e.unitsDen :=
        (Nat.mul_le_mul_right_iff e.unitsDen_pos).symm
    _ ↔ a * e.unitsDen * d.unitsDen ≤ b * e.unitsNum * d.unitsDen := by
        rw [Nat.mul_right_comm a, Nat.mul_assoc b, h, ← Nat.mul_assoc b]
    _ ↔ a * e.unitsDen ≤ b * e.unitsNum := Nat.mul_le_mul_right_iff d.unitsDen_pos

/-- Decimals of the same value have the same multiples below them. -/
theorem Agree.ge_iff (a b : Nat) :
    b * d.unitsNum ≤ a * d.unitsDen ↔ b * e.unitsNum ≤ a * e.unitsDen :=
  calc b * d.unitsNum ≤ a * d.unitsDen
      ↔ b * d.unitsNum * e.unitsDen ≤ a * d.unitsDen * e.unitsDen :=
        (Nat.mul_le_mul_right_iff e.unitsDen_pos).symm
    _ ↔ b * e.unitsNum * d.unitsDen ≤ a * e.unitsDen * d.unitsDen := by
        rw [Nat.mul_right_comm a, Nat.mul_assoc b, h, ← Nat.mul_assoc b]
    _ ↔ b * e.unitsNum ≤ a * e.unitsDen := Nat.mul_le_mul_right_iff d.unitsDen_pos

end Agree

end Decimal

namespace Binary64

/-- Whether a decimal lies in the interval of a magnitude. -/
def Covers (units : Nat) (d : Decimal) : Prop :=
  if closedEnds units then
    lowerEnd units * d.unitsDen ≤ 4 * d.unitsNum ∧ 4 * d.unitsNum ≤ upperEnd units * d.unitsDen
  else
    lowerEnd units * d.unitsDen < 4 * d.unitsNum ∧ 4 * d.unitsNum < upperEnd units * d.unitsDen

/-- The search tests whether a point of a grid is covered. -/
theorem inInterval_iff_covers {units c : Nat} {k : Int} :
    inInterval units (Nat.pow 10 k.toNat * (4 * one)) (Nat.pow 10 (-k).toNat) c = true ↔
      Covers units ⟨c, k⟩ := by
  have hnum : c * (Nat.pow 10 k.toNat * (4 * one)) = 4 * (Decimal.mk c k).unitsNum := by
    unfold Decimal.unitsNum
    rw [← Nat.mul_assoc, Nat.mul_left_comm]
  have hden : Nat.pow 10 (-k).toNat = (Decimal.mk c k).unitsDen := rfl
  unfold inInterval Covers
  rw [hnum, hden]
  split
  · simp
  · simp

/-- An interval covers a decimal or does not, however the decimal is written. -/
theorem Covers.congr {units : Nat} {d e : Decimal} (hagree : d.Agree e) (h : Covers units d) :
    Covers units e := by
  have hle := hagree.le_iff
  have hge := hagree.ge_iff
  unfold Covers at h ⊢
  split at h
  · rename_i hclosed
    rw [if_pos hclosed]
    exact ⟨(hle _ 4).mp h.1, (hge _ 4).mp h.2⟩
  · rename_i hopen
    rw [if_neg hopen]
    simp only [← Nat.not_le] at h ⊢
    exact ⟨(not_congr (hge _ 4)).mp h.1, (not_congr (hle _ 4)).mp h.2⟩

/-- The coefficient that a grid offers is covered. -/
theorem covers_of_onGrid? {halfway : Halfway} {units c : Nat} {k : Int}
    (h : onGrid? halfway units k = some c) : Covers units ⟨c, k⟩ := by
  apply inInterval_iff_covers.mp
  unfold onGrid? at h
  dsimp only at h
  generalize 4 * units * Nat.pow 10 (-k).toNat / (Nat.pow 10 k.toNat * (4 * one)) = low at h
  split at h
  · cases h
  · rename_i hlow hnext
    cases h
    exact hlow
  · rename_i hlow hnext
    cases h
    exact hnext
  · rename_i hlow hnext
    -- Both neighbours are inside, so it makes no difference which one is nearer.
    have hboth : c = low ∨ c = low + 1 := by
      split at h
      · exact .inl (Option.some.inj h).symm
      · split at h
        · exact .inr (Option.some.inj h).symm
        · cases halfway with
          | up => exact .inr (Option.some.inj h).symm
          | even =>
              dsimp only at h
              split at h
              · exact .inl (Option.some.inj h).symm
              · exact .inr (Option.some.inj h).symm
    rcases hboth with rfl | rfl
    · exact hlow
    · exact hnext

/-- A whole number of units is a multiple of a negative power of ten, and its interval covers it. -/
theorem covers_exact {k : Nat} {exponent : Int} (hk : one = powTwo k) (hexponent : exponent = -k)
    (units : Nat) : Covers units ⟨units * Nat.pow 5 k, exponent⟩ := by
  have hone : Nat.pow 5 k * one = Nat.pow 10 k := by
    rw [hk]
    exact (Nat.mul_pow 5 2 k).symm
  have hup : Nat.pow 10 exponent.toNat = 1 := by
    have hnone : exponent.toNat = 0 := by omega
    rw [hnone, Nat.pow_eq, Nat.pow_zero]
  have hdown : (-exponent).toNat = k := by omega
  have hpos : 0 < Nat.pow 10 k := Nat.pow_pos (by decide)
  have hstep := precision.spacing_pos units
  unfold Covers Decimal.unitsNum Decimal.unitsDen
  dsimp only
  rw [hup, hdown, Nat.mul_one, Nat.mul_assoc, hone, ← Nat.mul_assoc]
  have hlower : lowerEnd units ≤ 4 * units := Nat.sub_le _ _
  have hupper : 4 * units < upperEnd units := by
    unfold upperEnd
    omega
  split
  · exact ⟨Nat.mul_le_mul_right _ hlower, Nat.mul_le_mul_right _ hupper.le⟩
  · rename_i hopen
    have hunits : units ≠ 0 := by
      rintro rfl
      simp [closedEnds] at hopen
    have hless : lowerEnd units < 4 * units := by
      unfold lowerEnd
      dsimp only
      split <;> omega
    exact ⟨Nat.mul_lt_mul_of_pos_right hless hpos, Nat.mul_lt_mul_of_pos_right hupper hpos⟩

theorem covers_shortestFrom (halfway : Halfway) (units fuel : Nat) (k : Int) :
    Covers units (shortestFrom halfway units fuel k) := by
  induction fuel generalizing k with
  | zero =>
      rw [shortestFrom]
      apply covers_exact
      · exact one_eq
      · rfl
  | succ fuel ih =>
      unfold shortestFrom
      cases hgrid : onGrid? halfway units k with
      | some c => exact covers_of_onGrid? hgrid
      | none => exact ih (k - 1)

/-- **A shortest decimal lies in the interval of its number**, so it rounds to it. -/
theorem covers_shortest (halfway : Halfway) (x : Binary64) :
    Covers x.units (x.shortest halfway) := by
  unfold shortest
  split
  · rename_i hzero
    rw [hzero]
    simp [Covers, closedEnds, lowerEnd, Decimal.unitsNum]
  · exact covers_shortestFrom halfway x.units _ _

/-- The intervals of two magnitudes do not both cover a decimal if one of them is less: it would lie
between the intervals. -/
theorem not_lt_of_covers {m n : Nat} {d : Decimal} (hm : precision.spacing m ∣ m)
    (hn : precision.spacing n ∣ n) (hdm : Covers m d) (hdn : Covers n d) : ¬m < n := by
  intro hless
  obtain ⟨hapart, hmeet⟩ := upperEnd_le_lowerEnd hm hn hless
  have hends := Nat.mul_le_mul_right d.unitsDen hapart
  have hpos := d.unitsDen_pos
  unfold Covers at hdm hdn
  have hsame : upperEnd m * d.unitsDen = lowerEnd n * d.unitsDen := by
    split at hdm <;> split at hdn <;> omega
  rcases hmeet (Nat.eq_of_mul_eq_mul_right hpos hsame) with hopen | hopen
  · rw [hopen, if_neg (by decide)] at hdm
    split at hdn <;> omega
  · rw [hopen, if_neg (by decide)] at hdn
    split at hdm <;> omega

/-- **Intervals have no decimal in common**, whether at an end or inside. -/
theorem units_eq_of_covers {m n : Nat} {d : Decimal} (hm : precision.spacing m ∣ m)
    (hn : precision.spacing n ∣ n) (hdm : Covers m d) (hdn : Covers n d) : m = n := by
  apply Nat.le_antisymm
  · exact Nat.not_lt.mp (not_lt_of_covers hn hm hdn hdm)
  · exact Nat.not_lt.mp (not_lt_of_covers hm hn hdm hdn)

end Binary64

end Reporting
