import Mathlib.Tactic.Ring
import Reporting.Proofs.Grouping.Numbers

/-!
# Averages of whole numbers

If the numbers at a path are whole and their sizes add up to at most `2 ^ 53`, their sum is exact.
It is divided by their count, which is exact as well if there are at most `2 ^ 53` of them.  If there
are more, some of them are zero, and then the quotient is too small to be anywhere but between zero
and one of the numbers.  In either case the average lies between the least and the greatest number
(`WholeWithin.exists_result_avg`).
-/

namespace Reporting

open Grouping

/-- A sum that is at most a bound for each of its terms is at most the bound times their rounded
number. -/
theorem mul_one_le_mul_count {sum bound count : Int} {n : Nat} (hsum : sum ≤ n * bound)
    (hsmall : sum ≤ powTwo 53 * Binary64.one) (hdvd : (Binary64.one : Int) ∣ bound)
    (hcount : count = n * Binary64.one ∨ (0 ≤ bound ∧ powTwo 53 * Binary64.one ≤ count)) :
    sum * Binary64.one ≤ bound * count := by
  have hone : (0 : Int) ≤ Binary64.one := Int.natCast_nonneg _
  rcases hcount with rfl | ⟨hbound, hlarge⟩
  · calc sum * Binary64.one ≤ n * bound * Binary64.one := Int.mul_le_mul_of_nonneg_right hsum hone
      _ = bound * (n * Binary64.one) := by ring
  · rcases Int.lt_or_eq_of_le hbound with hpos | rfl
    · have hstep : (Binary64.one : Int) ≤ bound := Int.le_of_dvd hpos hdvd
      have hcount : 0 ≤ count := (Int.natCast_nonneg (powTwo 53 * Binary64.one)).trans hlarge
      calc sum * Binary64.one ≤ count * Binary64.one :=
            Int.mul_le_mul_of_nonneg_right (hsmall.trans hlarge) hone
        _ ≤ count * bound := Int.mul_le_mul_of_nonneg_left hstep hcount
        _ = bound * count := Int.mul_comm _ _
    · have hnone : sum ≤ 0 := by omega
      simpa using Int.mul_le_mul_of_nonneg_right hnone hone

namespace WholeWithin

variable {field : String} {records : List Json} (h : WholeWithin field records)
include h

/-- The numbers are multiples of one. -/
theorem one_dvd_of_mem {x : Binary64} (hx : x ∈ numbersAt field records) :
    (Binary64.one : Int) ∣ x.value := by
  obtain ⟨record, hrecord, hnumber⟩ := mem_numbersAt.mp hx
  have hamount : record.amountAt field = x.value := by
    rw [Json.amountAt, hnumber]
    rfl
  rw [← hamount]
  exact h.one_dvd_amountAt hrecord

/-- Numbers other than zero are few. -/
theorem length_le_of_ne_zero (hne : ∀ x ∈ numbersAt field records, x.value ≠ 0) :
    (numbersAt field records).length ≤ powTwo 53 := by
  have hsizes := sum_map_numbersAt Int.natAbs rfl field records
  have hleast : ∀ size ∈ (numbersAt field records).map fun x => x.value.natAbs,
      Binary64.one ≤ size := by
    intro size hsize
    obtain ⟨x, hx, rfl⟩ := List.mem_map.mp hsize
    have hdvd : Binary64.one ∣ x.value.natAbs := Int.natCast_dvd.mp (h.one_dvd_of_mem hx)
    exact Nat.le_of_dvd (Int.natAbs_pos.mpr (hne x hx)) hdvd
  have hsum := List.card_nsmul_le_sum _ _ hleast
  rw [List.length_map, nsmul_eq_mul, Nat.cast_id, hsizes] at hsum
  exact Nat.le_of_mul_le_mul_right (hsum.trans h.bounded) Binary64.one_pos

/-- The running sum of the numbers is exact and within the bound. -/
theorem exists_runningSum :
    ∃ z, runningSum field records = .finite z ∧
      z.value = ((numbersAt field records).map Binary64.value).sum ∧
      z.value.natAbs ≤ powTwo 53 * Binary64.one := by
  obtain ⟨z, hz, hvalue⟩ := Accumulator.sum_ofList_of_wholeWithin h
  obtain ⟨n, hsum, hn⟩ := h.exists_sum_eq
  rw [ofList_eq_ofNumbers] at hz
  refine ⟨z, hz, ?_, ?_⟩
  · rw [hvalue]
    exact (sum_map_numbersAt (fun n => n) rfl field records).symm
  · rw [hvalue, hsum, Int.natAbs_mul]
    exact Nat.mul_le_mul_right _ hn

section Average

variable {lo hi : Binary64} (hlo : lo ∈ numbersAt field records)
  (hhi : hi ∈ numbersAt field records)
  (hleast : ∀ x ∈ numbersAt field records, lo.value ≤ x.value)
  (hgreatest : ∀ x ∈ numbersAt field records, x.value ≤ hi.value)
include hlo hhi hleast hgreatest

/-- The exact sum, divided by a count that is exact or large, lies between the least and the greatest
number. -/
theorem exists_sum_div {z c : Binary64}
    (hz : z.value = ((numbersAt field records).map Binary64.value).sum)
    (hsmall : z.value.natAbs ≤ powTwo 53 * Binary64.one) (hc : 0 < c.value)
    (hcount : c.value = (numbersAt field records).length * Binary64.one ∨
      (lo.value ≤ 0 ∧ 0 ≤ hi.value ∧ powTwo 53 * Binary64.one ≤ c.value)) :
    ∃ a, Extended.finite z / .finite c = .finite a ∧ lo.value ≤ a.value ∧ a.value ≤ hi.value := by
  have hlower := List.card_nsmul_le_sum ((numbersAt field records).map Binary64.value) lo.value
    (by simpa using hleast)
  have hupper := List.sum_le_card_nsmul ((numbersAt field records).map Binary64.value) hi.value
    (by simpa using hgreatest)
  rw [List.length_map, nsmul_eq_mul, ← hz] at hlower hupper
  have hbound : z.value ≤ powTwo 53 * Binary64.one ∧ -z.value ≤ powTwo 53 * Binary64.one := by
    omega
  refine Extended.exists_div_between hc ?_ ?_
  · have hneg : -z.value * Binary64.one ≤ -lo.value * c.value := by
      refine mul_one_le_mul_count ?_ hbound.2 (Int.dvd_neg.mpr (h.one_dvd_of_mem hlo))
        (hcount.imp_right fun hlarge => ⟨by omega, hlarge.2.2⟩)
      rw [Int.mul_neg]
      exact Int.neg_le_neg hlower
    rw [Int.neg_mul, Int.neg_mul] at hneg
    omega
  · exact mul_one_le_mul_count hupper hbound.1 (h.one_dvd_of_mem hhi)
      (hcount.imp_right fun hlarge => ⟨hlarge.2.1, hlarge.2.2⟩)

/-- **An average of whole numbers lies between the least and the greatest of them.** -/
theorem exists_result_avg :
    ∃ a, result .avg field records = .ofExtended (.finite a) ∧ lo.value ≤ a.value ∧
      a.value ≤ hi.value := by
  have hne : numbersAt field records ≠ [] := List.ne_nil_of_mem hlo
  have hpos : 0 < (numbersAt field records).length := List.length_pos_iff.mpr hne
  obtain ⟨z, hz, hvalue, hsmall⟩ := h.exists_runningSum
  rw [result_avg hne, hz]
  by_cases hfew : (numbersAt field records).length ≤ powTwo 53
  · obtain ⟨c, hc, hcvalue⟩ := Extended.ofNat_whole hfew
    have hcpos : 0 < c.value := by
      rw [hcvalue]
      exact_mod_cast Nat.mul_pos hpos Binary64.one_pos
    obtain ⟨a, ha, hbetween⟩ := h.exists_sum_div hlo hhi hleast hgreatest hvalue hsmall hcpos
      (.inl hcvalue)
    exact ⟨a, by rw [hc, ha], hbetween⟩
  · -- One of so many numbers is zero, so the least and the greatest are on its two sides.
    have hzero : lo.value ≤ 0 ∧ 0 ≤ hi.value := by
      by_contra hsides
      apply hfew
      apply h.length_le_of_ne_zero
      intro x hx hnone
      exact hsides ⟨hnone ▸ hleast x hx, hnone ▸ hgreatest x hx⟩
    have hlarge : (Binary64.power (53 + 1074) (by decide)).value
        ≤ (numbersAt field records).length * Binary64.one := by
      rw [Binary64.value_power, powTwo_add, Binary64.one_eq]
      exact_mod_cast Nat.mul_le_mul_right _ (Nat.not_le.mp hfew).le
    rcases Extended.ofNat_ge hlarge with hinf | ⟨c, hc, hcvalue⟩
    · refine ⟨Binary64.zero (z.negative != false), by rw [hinf]; rfl, ?_⟩
      have hnone : (Binary64.zero (z.negative != false)).value = 0 := by
        simp [Binary64.value, Binary64.zero]
      rw [hnone]
      exact hzero
    · rw [Binary64.value_power, powTwo_add, ← Binary64.one_eq, Int.natCast_mul] at hcvalue
      have hcpos : 0 < c.value := by
        have hbase : (0 : Int) < powTwo 53 * Binary64.one := by
          exact_mod_cast Nat.mul_pos (powTwo_pos 53) Binary64.one_pos
        omega
      obtain ⟨a, ha, hbetween⟩ := h.exists_sum_div hlo hhi hleast hgreatest hvalue hsmall hcpos
        (.inr ⟨hzero.1, hzero.2, hcvalue⟩)
      exact ⟨a, by rw [hc, ha], hbetween⟩

end Average

end WholeWithin

end Reporting
