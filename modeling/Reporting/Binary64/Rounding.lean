/-!
# Rounding to a binary format

A binary floating-point format keeps a fixed number of significant bits, down to a finest step.
Counted in units of some fixed power of two below that step, its magnitudes are natural numbers:
those that are a multiple of the `spacing` at their own size.

`Precision.round` takes any quotient of natural numbers to such a magnitude, to the nearest one and
on a tie to the one with the even significand.  `spacing_dvd_round` says that the result is a
magnitude of the format, also where rounding carries into the next power of two.
-/

namespace Reporting

/-- The power of two with some exponent. -/
def powTwo (k : Nat) : Nat := Nat.pow 2 k

theorem powTwo_pos (k : Nat) : 0 < powTwo k := Nat.two_pow_pos k

theorem powTwo_add (a b : Nat) : powTwo (a + b) = powTwo a * powTwo b := Nat.pow_add 2 a b

theorem powTwo_le_powTwo {a b : Nat} (h : a ≤ b) : powTwo a ≤ powTwo b :=
  Nat.pow_le_pow_right (by decide) h

theorem powTwo_lt_powTwo {a b : Nat} (h : a < b) : powTwo a < powTwo b :=
  Nat.pow_lt_pow_right (by decide) h

theorem powTwo_dvd_powTwo {a b : Nat} (h : a ≤ b) : powTwo a ∣ powTwo b := Nat.pow_dvd_pow 2 h

theorem log2_powTwo (k : Nat) : (powTwo k).log2 = k := Nat.log2_two_pow

theorem lt_powTwo_log2 (n : Nat) : n < powTwo (n.log2 + 1) := Nat.lt_log2_self

theorem log2_lt_iff {n k : Nat} (h : n ≠ 0) : n.log2 < k ↔ n < powTwo k := Nat.log2_lt h

/-- The natural number nearest to `p / q`; halfway between two, the even one. -/
def nearestEven (p q : Nat) : Nat :=
  let low := p / q
  let twice := 2 * (p % q)
  if twice < q ∨ (twice = q ∧ low % 2 = 0) then low else low + 1

/-- How many bits a format keeps, and the exponent of its finest step. -/
structure Precision where
  bits : Nat
  finest : Nat
  bits_pos : 0 < bits := by decide

namespace Precision

/-- The exponent of the step between neighbouring magnitudes around `n`. -/
def stepExponent (p : Precision) (n : Nat) : Nat :=
  max (n.log2 + 1 - p.bits) p.finest

/-- The step between neighbouring magnitudes around `n`. -/
def spacing (p : Precision) (n : Nat) : Nat :=
  powTwo (p.stepExponent n)

/-- The magnitude nearest to the quotient `num / den`, on a tie the one with the even
significand. -/
def round (p : Precision) (num den : Nat) : Nat :=
  let step := p.spacing (num / den)
  nearestEven num (den * step) * step

end Precision

/-- Rounding goes up by less than one. -/
theorem nearestEven_le (p q : Nat) : nearestEven p q ≤ p / q + 1 := by
  unfold nearestEven
  dsimp only
  split <;> omega

/-- The product of a bounded number and a power of two is bounded by a greater power. -/
theorem mul_powTwo_lt {n a b c : Nat} (h : n ≤ powTwo a) (hc : a + b < c) :
    n * powTwo b < powTwo c :=
  calc n * powTwo b ≤ powTwo a * powTwo b := Nat.mul_le_mul_right _ h
    _ = powTwo (a + b) := (powTwo_add a b).symm
    _ < powTwo c := powTwo_lt_powTwo hc

/-- A multiple is not moved. -/
theorem nearestEven_mul (k : Nat) {q : Nat} (hq : 0 < q) : nearestEven (k * q) q = k := by
  unfold nearestEven
  simp [Nat.mul_div_cancel _ hq, hq]

namespace Precision

variable (p : Precision)

/-- Neighbouring magnitudes are apart. -/
theorem spacing_pos (n : Nat) : 0 < p.spacing n :=
  powTwo_pos _

/-- A number is below the power of two that its bits and its step allow. -/
theorem lt_powTwo (n : Nat) : n < powTwo (p.bits + p.stepExponent n) :=
  Nat.lt_of_lt_of_le (lt_powTwo_log2 n)
    (powTwo_le_powTwo (by unfold stepExponent; omega))

/-- The significand that rounding finds has at most one more than the format's bits, and then it
is a power of two. -/
theorem nearestEven_le_powTwo (num den : Nat) :
    nearestEven num (den * p.spacing (num / den)) ≤ powTwo p.bits := by
  have hquot : num / (den * p.spacing (num / den)) < powTwo p.bits := by
    rw [← Nat.div_div_eq_div_mul]
    refine Nat.div_lt_of_lt_mul ?_
    have h := p.lt_powTwo (num / den)
    rw [powTwo_add, Nat.mul_comm] at h
    exact h
  exact Nat.le_trans (nearestEven_le _ _) hquot

/-- A significand of the format's bits times a step that is not too fine is a magnitude of the
format, and so is the next power of two. -/
theorem spacing_dvd_mul_powTwo {k e : Nat} (hk : k ≤ powTwo p.bits) (he : p.finest ≤ e) :
    p.spacing (k * powTwo e) ∣ k * powTwo e := by
  have hbits := p.bits_pos
  unfold spacing
  rcases Nat.eq_zero_or_pos k with rfl | hpos
  · simp
  have hstep := powTwo_pos e
  have hne : k * powTwo e ≠ 0 := Nat.mul_ne_zero (by omega) (by omega)
  rcases Nat.lt_or_ge k (powTwo p.bits) with hlt | hge
  · have hlog : (k * powTwo e).log2 < p.bits + e := by
      rw [log2_lt_iff hne, powTwo_add]
      exact Nat.mul_lt_mul_of_pos_right hlt hstep
    refine Nat.dvd_trans (powTwo_dvd_powTwo ?_) (Nat.dvd_mul_left _ _)
    unfold stepExponent
    omega
  · have hkeq : k = powTwo p.bits := Nat.le_antisymm hk hge
    rw [hkeq, ← powTwo_add]
    refine powTwo_dvd_powTwo ?_
    unfold stepExponent
    rw [log2_powTwo]
    omega

/-- Rounding yields a magnitude of the format. -/
theorem spacing_dvd_round (num den : Nat) :
    p.spacing (p.round num den) ∣ p.round num den :=
  p.spacing_dvd_mul_powTwo (p.nearestEven_le_powTwo num den) (Nat.le_max_right _ _)

/-- Rounding does not pass a power of two that the format has. -/
theorem round_le_powTwo {num den k : Nat} (h : num / den < powTwo k)
    (hk : p.bits + p.finest ≤ k) : p.round num den ≤ powTwo k := by
  have hlog : (num / den).log2 < k := by
    rcases Nat.eq_zero_or_pos (num / den) with h0 | hpos
    · have hbits := p.bits_pos
      rw [h0, Nat.log2_zero]
      omega
    · exact (log2_lt_iff (Nat.pos_iff_ne_zero.mp hpos)).2 h
  calc p.round num den
      = nearestEven num (den * p.spacing (num / den)) * p.spacing (num / den) := rfl
    _ ≤ powTwo p.bits * p.spacing (num / den) :=
        Nat.mul_le_mul_right _ (p.nearestEven_le_powTwo num den)
    _ = powTwo (p.bits + p.stepExponent (num / den)) := (powTwo_add _ _).symm
    _ ≤ powTwo k := powTwo_le_powTwo (by unfold stepExponent; omega)

/-- A bounded number times a power of two rounds to less than a greater power. -/
theorem round_mul_powTwo_lt {n a b k : Nat} (h : n ≤ powTwo a) (hk : a + b + 1 < k)
    (hp : p.bits + p.finest ≤ a + b + 1) : p.round (n * powTwo b) 1 < powTwo k := by
  have hlt : n * powTwo b / 1 < powTwo (a + b + 1) := by
    rw [Nat.div_one]
    exact mul_powTwo_lt h (Nat.lt_succ_self _)
  exact Nat.lt_of_le_of_lt (p.round_le_powTwo hlt hp) (powTwo_lt_powTwo hk)

/-- A magnitude of the format is not moved by rounding. -/
theorem round_of_spacing_dvd {n : Nat} (h : p.spacing n ∣ n) : p.round n 1 = n := by
  obtain ⟨k, hk⟩ := h
  have hn : n = k * p.spacing n := by rw [Nat.mul_comm]; exact hk
  unfold round
  simp only [Nat.div_one, Nat.one_mul]
  calc nearestEven n (p.spacing n) * p.spacing n
      = nearestEven (k * p.spacing n) (p.spacing n) * p.spacing n :=
        congrArg (fun m => nearestEven m (p.spacing n) * p.spacing n) hn
    _ = k * p.spacing n := by rw [nearestEven_mul k (p.spacing_pos n)]
    _ = n := hn.symm

end Precision

end Reporting
