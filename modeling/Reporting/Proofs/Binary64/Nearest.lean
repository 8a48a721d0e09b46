import Mathlib.Data.Nat.Dist
import Reporting.Binary64.Fixed

/-!
# Rounding takes the nearest

No whole number is nearer to a quotient than the one that `nearestEven` finds, and no magnitude of a
format is nearer to it than the one that `Precision.round` finds (`Precision.dist_round_le`).  Hence
rounding does not pass a magnitude of the format (`Precision.le_round`, `Precision.round_le`).

Two roundings meet where a number is shown with some decimal places and read again.  What is read is
a magnitude nearest to the shown decimal, so it is no further from it than the number that was
shown, and with the same decimal places it is shown in the same way
(`Binary64.nearestEven_round`).
-/

namespace Reporting

/-- A whole number is the nearest to a quotient, the even one of two, if the remainder says so. -/
theorem nearestEven_eq_iff {p q n : Nat} (hq : 0 < q) :
    nearestEven p q = n ↔
      2 * Nat.dist p (n * q) < q ∨ (2 * Nat.dist p (n * q) = q ∧ n % 2 = 0) := by
  have hp : p = p / q * q + p % q := (Nat.div_add_mod' p q).symm
  have hr : p % q < q := Nat.mod_lt p hq
  unfold nearestEven Nat.dist
  dsimp only
  generalize p / q = low at hp ⊢
  generalize p % q = r at hp hr ⊢
  have hnext : (low + 1) * q = low * q + q := Nat.succ_mul low q
  rcases Nat.lt_trichotomy n low with hless | rfl | hmore
  · -- A multiple below the floor is at least one step away.
    have hfar : n * q + q ≤ low * q := by
      rw [← Nat.succ_mul]
      exact Nat.mul_le_mul_right q hless
    split <;> omega
  · split <;> omega
  · rcases Nat.lt_or_eq_of_le (Nat.succ_le_of_lt hmore) with hfar | rfl
    · have hsteps : low * q + q + q ≤ n * q := by
        rw [← hnext, ← Nat.succ_mul]
        exact Nat.mul_le_mul_right q hfar
      split <;> omega
    · rw [Nat.succ_eq_add_one, hnext]
      split <;> omega

/-- Rounding does not go below the floor. -/
theorem le_nearestEven (p q : Nat) : p / q ≤ nearestEven p q := by
  unfold nearestEven
  dsimp only
  split <;> omega

/-- What is as near to a whole number as something that is rounded to it is rounded to it as
well. -/
theorem nearestEven_of_dist_le {p other q n : Nat} (hq : 0 < q) (h : nearestEven p q = n)
    (hle : Nat.dist other (n * q) ≤ Nat.dist p (n * q)) : nearestEven other q = n := by
  rw [nearestEven_eq_iff hq] at h ⊢
  omega

/-- No multiple is nearer than the one that is found. -/
theorem dist_nearestEven_le (p : Nat) {q : Nat} (hq : 0 < q) (m : Nat) :
    Nat.dist p (nearestEven p q * q) ≤ Nat.dist p (m * q) := by
  have hhalf := (nearestEven_eq_iff (p := p) hq).mp rfl
  generalize nearestEven p q = n at hhalf ⊢
  rcases Nat.lt_trichotomy m n with hless | rfl | hmore
  · have hfar : m * q + q ≤ n * q := by
      rw [← Nat.succ_mul]
      exact Nat.mul_le_mul_right q hless
    unfold Nat.dist at hhalf ⊢
    omega
  · exact Nat.le_refl _
  · have hfar : n * q + q ≤ m * q := by
      rw [← Nat.succ_mul]
      exact Nat.mul_le_mul_right q hmore
    unfold Nat.dist at hhalf ⊢
    omega

namespace Precision

variable (p : Precision)

/-- A magnitude of the format is a multiple of the step around another number, or a multiple of
this step lies between the two. -/
theorem spacing_dvd_or_exists_between {u n : Nat} (hu : p.spacing u ∣ u) :
    p.spacing n ∣ u ∨ ∃ m, u ≤ m * p.spacing n ∧ m * p.spacing n ≤ n := by
  have hbits := p.bits_pos
  by_cases hstep : p.stepExponent n ≤ p.stepExponent u
  · exact .inl (Nat.dvd_trans (powTwo_dvd_powTwo hstep) hu)
  · -- The number has more bits, so the power of two at its head lies between.
    refine .inr ⟨powTwo (n.log2 - p.stepExponent n), ?_⟩
    have hlog : p.stepExponent n ≤ n.log2 ∧ u.log2 < n.log2 := by
      unfold stepExponent at hstep ⊢
      omega
    have hhead : powTwo (n.log2 - p.stepExponent n) * p.spacing n = powTwo n.log2 := by
      unfold spacing
      rw [← powTwo_add]
      congr 1
      omega
    have hn : n ≠ 0 := by
      rintro rfl
      simp at hlog
    rw [hhead]
    refine ⟨?_, Nat.log2_self_le hn⟩
    rcases Nat.eq_zero_or_pos u with rfl | hpos
    · exact Nat.zero_le _
    · exact Nat.le_of_lt ((log2_lt_iff (Nat.pos_iff_ne_zero.mp hpos)).mp hlog.2)

/-- **No magnitude of the format is nearer** to a quotient than the one it is rounded to. -/
theorem dist_round_le (num : Nat) {den u : Nat} (hden : 0 < den) (hu : p.spacing u ∣ u) :
    Nat.dist num (den * p.round num den) ≤ Nat.dist num (den * u) := by
  let step := p.spacing (num / den)
  have hq : 0 < den * step := Nat.mul_pos hden (p.spacing_pos _)
  have hround : den * p.round num den = nearestEven num (den * step) * (den * step) :=
    Nat.mul_left_comm den (nearestEven num (den * step)) step
  have hmultiple (m : Nat) : den * (m * step) = m * (den * step) := Nat.mul_left_comm den m step
  rw [hround]
  rcases p.spacing_dvd_or_exists_between (n := num / den) hu with ⟨m, hm⟩ | ⟨m, hbelow, habove⟩
  · have hu : den * u = m * (den * step) := by
      rw [hm, Nat.mul_comm _ m]
      exact hmultiple m
    rw [hu]
    exact dist_nearestEven_le num hq m
  · have hnear : m * (den * step) ≤ num := by
      rw [← hmultiple]
      exact (Nat.mul_le_mul_left den habove).trans (Nat.mul_div_le num den)
    have hfar : den * u ≤ m * (den * step) := by
      rw [← hmultiple]
      exact Nat.mul_le_mul_left den hbelow
    have hbest := dist_nearestEven_le num hq m
    have hcloser : Nat.dist num (m * (den * step)) ≤ Nat.dist num (den * u) := by
      unfold Nat.dist
      omega
    exact hbest.trans hcloser

/-- Rounding does not go below a magnitude of the format. -/
theorem le_round {num den u : Nat} (hden : 0 < den) (hu : p.spacing u ∣ u) (h : den * u ≤ num) :
    u ≤ p.round num den := by
  have hnear := p.dist_round_le num hden hu
  by_contra hless
  have hbelow : den * p.round num den < den * u :=
    Nat.mul_lt_mul_of_pos_left (Nat.not_le.mp hless) hden
  unfold Nat.dist at hnear
  omega

/-- Rounding does not go above a magnitude of the format. -/
theorem round_le {num den u : Nat} (hden : 0 < den) (hu : p.spacing u ∣ u) (h : num ≤ den * u) :
    p.round num den ≤ u := by
  have hnear := p.dist_round_le num hden hu
  by_contra hmore
  have habove : den * u < den * p.round num den :=
    Nat.mul_lt_mul_of_pos_left (Nat.not_le.mp hmore) hden
  unfold Nat.dist at hnear
  omega

end Precision

/-- **A shown number is shown in the same way after it was read.**  If a number is nearest to `n`
steps of `10 ^ -(places + more)`, and `n` ends in `more` zeros, then so is the magnitude nearest to
the decimal with these zeros left out. -/
theorem Binary64.nearestEven_round {x : Binary64} {places more n : Nat}
    (h : x.fixedSteps (places + more) = n * Nat.pow 10 more) :
    nearestEven (precision.round (n * one) (Nat.pow 10 places) * Nat.pow 10 (places + more)) one
      = n * Nat.pow 10 more := by
  have hten : 0 < Nat.pow 10 places := Nat.pow_pos (by decide)
  have hscale (units : Nat) :
      Nat.dist (units * Nat.pow 10 (places + more)) (n * Nat.pow 10 more * one)
        = Nat.dist (n * one) (Nat.pow 10 places * units) * Nat.pow 10 more := by
    have hsplit : Nat.pow 10 (places + more) = Nat.pow 10 places * Nat.pow 10 more :=
      Nat.pow_add 10 places more
    rw [hsplit, Nat.mul_right_comm n, ← Nat.mul_assoc, Nat.dist_mul_right, Nat.dist_comm,
      Nat.mul_comm units]
  refine nearestEven_of_dist_le one_pos h ?_
  rw [hscale, hscale]
  exact Nat.mul_le_mul_right _ (precision.dist_round_le _ hten x.aligned)

end Reporting
