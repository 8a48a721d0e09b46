import Mathlib.Algebra.Order.Ring.Nat
import Mathlib.Data.List.Basic
import Mathlib.Data.List.TakeWhile
import Reporting.Text.Numeral

/-!
# Reading digits back

The digits of a number denote it, with or without zeros in front (`numeralValue_zeroPadded`).
Digits that stand one after the other denote the sum of what they denote at their places
(`numeralValue_append`), and only zeros denote zero (`numeralValue_eq_zero_iff`).  Digits in the same
number of places are ordered as texts like what they denote (`append_lt_append_of_numeralValue_lt`).
-/

namespace Reporting.Text

theorem toNat_of_isDigit {c : Char} (h : c.isDigit = true) : 48 ≤ c.toNat ∧ c.toNat ≤ 57 := by
  simpa [Char.isDigit, UInt32.le_iff_toNat_le] using h

theorem isDigit_of_mem_digits {n : Nat} {c : Char} (h : c ∈ digits n) : c.isDigit = true :=
  Nat.isDigit_of_mem_toDigits (by decide) (by decide) h

theorem count_digits {c : Char} (hc : c.isDigit = false) (n : Nat) : (digits n).count c = 0 := by
  refine List.count_eq_zero.mpr fun hmem => ?_
  rw [isDigit_of_mem_digits hmem] at hc
  cases hc

/-- A whole number shows a hyphen only as its sign. -/
theorem count_hyphen_signedDigits (n : Int) : (signedDigits n).count '-' ≤ 1 := by
  unfold signedDigits
  split
  · rw [List.count_cons, count_digits rfl]
    exact le_rfl
  · rw [count_digits rfl]
    exact Nat.zero_le 1

theorem numeralValue_digits (n : Nat) : numeralValue (digits n) = n :=
  Nat.ofDigitChars_ten_toDigits

/-- A number times a power of ten has as many zeros behind its digits. -/
theorem digits_mul_pow_ten {n : Nat} (hn : 0 < n) (k : Nat) :
    digits (n * Nat.pow 10 k) = digits n ++ List.replicate k '0' := by
  induction k with
  | zero => simp
  | succ k ih =>
      have hpos : 0 < n * Nat.pow 10 k := Nat.mul_pos hn (Nat.pow_pos (by decide))
      have hmore : n * Nat.pow 10 (k + 1) = 10 * (n * Nat.pow 10 k) + 0 := by
        rw [Nat.pow_eq, Nat.pow_eq, Nat.pow_succ, Nat.add_zero, Nat.mul_comm 10, Nat.mul_assoc]
      have hlast : digits (n * Nat.pow 10 k) ++ digits 0 = digits (n * Nat.pow 10 (k + 1)) := by
        rw [hmore]
        exact Nat.toDigits_append_toDigits (by decide) hpos (by decide)
      rw [← hlast, ih, List.replicate_succ', List.append_assoc]
      rfl

theorem numeralValue_append (cs ds : List Char) :
    numeralValue (cs ++ ds) = numeralValue cs * Nat.pow 10 ds.length + numeralValue ds :=
  calc numeralValue (cs ++ ds)
      = Nat.ofDigitChars 10 ds (numeralValue cs) := Nat.ofDigitChars_append 0
    _ = Nat.pow 10 ds.length * numeralValue cs + numeralValue ds :=
      Nat.ofDigitChars_eq_ofDigitChars_zero
    _ = numeralValue cs * Nat.pow 10 ds.length + numeralValue ds := by
      rw [Nat.mul_comm (Nat.pow 10 ds.length)]

/-- Zeros denote nothing. -/
theorem numeralValue_zeros (k : Nat) : numeralValue (List.replicate k '0') = 0 :=
  Nat.ofDigitChars_replicate_zero

theorem isDigit_of_mem_zeroPadded {width n : Nat} {c : Char} (h : c ∈ zeroPadded width n) :
    c.isDigit = true := by
  unfold zeroPadded padLeft at h
  rcases List.mem_append.mp h with hzero | hdigit
  · rw [List.eq_of_mem_replicate hzero]
    rfl
  · exact isDigit_of_mem_digits hdigit

/-- **Zeros in front do not change what digits denote.** -/
theorem numeralValue_zeroPadded (width n : Nat) : numeralValue (zeroPadded width n) = n := by
  unfold zeroPadded padLeft
  rw [numeralValue_append, numeralValue_zeros, numeralValue_digits, Nat.zero_mul, Nat.zero_add]

theorem le_length_zeroPadded (width n : Nat) : width ≤ (zeroPadded width n).length := by
  unfold zeroPadded padLeft
  rw [List.length_append, List.length_replicate]
  omega

/-- Zeros only fill a text up. -/
theorem length_zeroPadded {width n : Nat} (hwidth : 0 < width) (h : n < Nat.pow 10 width) :
    (zeroPadded width n).length = width := by
  have hdigits : (digits n).length ≤ width := (Nat.length_toDigits_le_iff (by decide) hwidth).mpr h
  unfold zeroPadded padLeft
  rw [List.length_append, List.length_replicate]
  omega

/-- Of the digits only zero is worth nothing. -/
theorem digitValue_eq_zero_iff {c : Char} (h : c.isDigit = true) : digitValue c = 0 ↔ c = '0' := by
  have hrange := toNat_of_isDigit h
  have hzero : ('0' : Char).toNat = 48 := rfl
  unfold digitValue
  constructor
  · intro hvalue
    have hsame : c.toNat = ('0' : Char).toNat := by omega
    exact Char.toNat_inj.mp hsame
  · rintro rfl
    rfl

/-- The first digit counts in front of the others. -/
theorem numeralValue_cons (c : Char) (rest : List Char) :
    numeralValue (c :: rest) = digitValue c * Nat.pow 10 rest.length + numeralValue rest := by
  have hfirst : numeralValue [c] = digitValue c := Nat.zero_add _
  rw [← hfirst]
  exact numeralValue_append [c] rest

/-- Digits denote less than the first number with one digit more. -/
theorem numeralValue_lt {cs : List Char} (h : ∀ c ∈ cs, c.isDigit = true) :
    numeralValue cs < Nat.pow 10 cs.length := by
  induction cs with
  | nil => decide
  | cons c rest ih =>
      have hrest := ih fun d hd => h d (List.mem_cons_of_mem c hd)
      have hrange := toNat_of_isDigit (h c List.mem_cons_self)
      have hvalue : digitValue c ≤ 9 := by
        have hzero : ('0' : Char).toNat = 48 := rfl
        unfold digitValue
        omega
      calc numeralValue (c :: rest)
          = digitValue c * Nat.pow 10 rest.length + numeralValue rest := numeralValue_cons c rest
        _ ≤ 9 * Nat.pow 10 rest.length + numeralValue rest :=
          Nat.add_le_add_right (Nat.mul_le_mul_right _ hvalue) _
        _ < Nat.pow 10 (c :: rest).length := by
          have hpow : Nat.pow 10 (c :: rest).length = Nat.pow 10 rest.length * 10 := rfl
          omega

/-- Digits denote zero only if all of them are zeros. -/
theorem numeralValue_eq_zero_iff {cs : List Char} (h : ∀ c ∈ cs, c.isDigit = true) :
    numeralValue cs = 0 ↔ ∀ c ∈ cs, c = '0' := by
  induction cs with
  | nil => exact iff_of_true rfl fun c hc => absurd hc List.not_mem_nil
  | cons c rest ih =>
      have hten : Nat.pow 10 rest.length ≠ 0 := Nat.pos_iff_ne_zero.mp (Nat.pow_pos (by decide))
      have hrest := ih fun d hd => h d (List.mem_cons_of_mem c hd)
      rw [numeralValue_cons, Nat.add_eq_zero_iff, Nat.mul_eq_zero, or_iff_left hten,
        digitValue_eq_zero_iff (h c List.mem_cons_self), hrest, List.forall_mem_cons]

/-- **Digits in the same number of places are ordered as texts**, whatever follows them. -/
theorem append_lt_append_of_numeralValue_lt {cs ds : List Char}
    (hcs : ∀ c ∈ cs, c.isDigit = true) (hds : ∀ c ∈ ds, c.isDigit = true)
    (hlength : cs.length = ds.length) (h : numeralValue cs < numeralValue ds)
    (rest rest' : List Char) : cs ++ rest < ds ++ rest' := by
  induction cs generalizing ds with
  | nil =>
      obtain rfl : ds = [] := List.length_eq_zero_iff.mp hlength.symm
      exact absurd h (Nat.lt_irrefl _)
  | cons c cs ih =>
      cases ds with
      | nil => cases hlength
      | cons d ds =>
          have hplaces : cs.length = ds.length := Nat.succ.inj hlength
          have hmore : ∀ c ∈ cs, c.isDigit = true := fun e he => hcs e (List.mem_cons_of_mem c he)
          have hmore' : ∀ c ∈ ds, c.isDigit = true := fun e he => hds e (List.mem_cons_of_mem d he)
          have hc := toNat_of_isDigit (hcs c List.mem_cons_self)
          have hd := toNat_of_isDigit (hds d List.mem_cons_self)
          have hzero : ('0' : Char).toNat = 48 := rfl
          rw [numeralValue_cons, numeralValue_cons, hplaces] at h
          rw [List.cons_append, List.cons_append, List.cons_lt_cons_iff]
          rcases Nat.lt_trichotomy c.toNat d.toNat with hless | hsame | hmoreThan
          · exact .inl hless
          · obtain rfl : c = d := Char.toNat_inj.mp hsame
            exact .inr ⟨rfl, ih hmore hmore' hplaces (Nat.lt_of_add_lt_add_left h)⟩
          · -- A greater first digit outweighs all others.
            have hbound := numeralValue_lt hmore'
            have hdigit : digitValue d + 1 ≤ digitValue c := by
              unfold digitValue
              omega
            have hweight := Nat.mul_le_mul_right (Nat.pow 10 ds.length) hdigit
            rw [Nat.add_mul, Nat.one_mul] at hweight
            omega

/-- Padded numbers are ordered as texts, whatever follows them. -/
theorem zeroPadded_append_lt {width m n : Nat} (hwidth : 0 < width) (h : m < n)
    (hn : n < Nat.pow 10 width) (rest rest' : List Char) :
    zeroPadded width m ++ rest < zeroPadded width n ++ rest' := by
  refine append_lt_append_of_numeralValue_lt (fun c => isDigit_of_mem_zeroPadded)
    (fun c => isDigit_of_mem_zeroPadded) ?_ ?_ rest rest'
  · rw [length_zeroPadded hwidth (Nat.lt_trans h hn), length_zeroPadded hwidth hn]
  · rw [numeralValue_zeroPadded, numeralValue_zeroPadded]
    exact h

/-- The digits in front of something else are all that is taken. -/
theorem spanDigits_append {ds rest : List Char} (hds : ∀ c ∈ ds, c.isDigit = true)
    (hrest : ∀ c ∈ rest.head?, c.isDigit = false) : spanDigits (ds ++ rest) = (ds, rest) := by
  have hstop : rest.takeWhile Char.isDigit = [] ∧ rest.dropWhile Char.isDigit = rest := by
    cases rest with
    | nil => exact ⟨rfl, rfl⟩
    | cons c rest =>
        have hc : c.isDigit = false := hrest c rfl
        simp [hc]
  unfold spanDigits
  rw [List.takeWhile_append_of_pos hds, List.dropWhile_append_of_pos hds, hstop.1, hstop.2,
    List.append_nil]

theorem spanDigits_self {ds : List Char} (hds : ∀ c ∈ ds, c.isDigit = true) :
    spanDigits ds = (ds, []) := by
  have hnothing : ∀ c ∈ ([] : List Char).head?, c.isDigit = false := by simp
  have happend := spanDigits_append hds hnothing
  rwa [List.append_nil] at happend

/-- What is no digit is not taken. -/
theorem mem_spanDigits_of_not_isDigit {c : Char} (hc : c.isDigit = false) {cs : List Char}
    (h : c ∈ cs) : c ∈ (spanDigits cs).2 := by
  rw [← List.takeWhile_append_dropWhile (p := Char.isDigit) (l := cs)] at h
  rcases List.mem_append.mp h with htaken | hleft
  · rw [List.mem_takeWhile_imp htaken] at hc
    cases hc
  · exact hleft

end Reporting.Text
