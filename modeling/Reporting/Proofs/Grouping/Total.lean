import Mathlib.Algebra.BigOperators.Ring.List
import Mathlib.Algebra.Order.BigOperators.Group.List
import Mathlib.Algebra.Order.Ring.Nat
import Mathlib.Algebra.Ring.Int.Defs
import Mathlib.Data.List.Induction
import Reporting.Grouping.Accumulator
import Reporting.Proofs.Binary64.Whole
import Reporting.Record.Path

/-!
# Counts and totals

An accumulator counts every value, numeric or not, and adds up the numeric ones with a rounding
after each.  If the numbers are whole and their sizes add up to at most `2 ^ 53`, then so does every
part of them, no rounding moves a partial sum, and the total is exact
(`Accumulator.sum_ofList_of_wholeWithin`).
-/

namespace Reporting

/-- The number at a path in units, and zero if there is no number. -/
def Json.amountAt (field : String) (record : Json) : Int :=
  ((record.resolve? field).bind Json.numberView).elim 0 Binary64.value

/-- The numbers that some records have at a path are whole, and their sizes add up to at most
`2 ^ 53`. -/
structure WholeWithin (field : String) (records : List Json) : Prop where
  whole : ∀ record ∈ records, ∀ x,
    (record.resolve? field).bind Json.numberView = some x → x.isWhole = true
  bounded : (records.map fun record => (record.amountAt field).natAbs).sum
    ≤ powTwo 53 * Binary64.one

namespace WholeWithin

variable {field : String} {records : List Json}

/-- What holds of some records holds of a part of them. -/
theorem sublist {part : List Json} (h : WholeWithin field records) (hpart : part.Sublist records) :
    WholeWithin field part where
  whole := fun record hrecord => h.whole record (hpart.subset hrecord)
  bounded := ((hpart.map _).sum_le_sum fun _ _ => Nat.zero_le _).trans h.bounded

/-- A number at the path is a multiple of one. -/
theorem one_dvd_amountAt (h : WholeWithin field records) {record : Json}
    (hrecord : record ∈ records) : (Binary64.one : Int) ∣ record.amountAt field := by
  unfold Json.amountAt
  cases hnumber : (record.resolve? field).bind Json.numberView with
  | none => exact Int.dvd_zero _
  | some x =>
      refine ⟨x.truncate, ?_⟩
      rw [Int.mul_comm]
      exact Binary64.value_eq_truncate_mul (h.whole record hrecord x hnumber)

/-- The sum of the numbers is a whole number of at most `2 ^ 53` in size. -/
theorem exists_sum_eq (h : WholeWithin field records) :
    ∃ n : Int, (records.map (Json.amountAt field)).sum = n * Binary64.one ∧
      n.natAbs ≤ powTwo 53 := by
  have hdvd : (Binary64.one : Int) ∣ (records.map (Json.amountAt field)).sum := by
    refine List.dvd_sum fun amount hamount => ?_
    obtain ⟨record, hrecord, rfl⟩ := List.mem_map.mp hamount
    exact h.one_dvd_amountAt hrecord
  have habs : ∀ part : List Json, (part.map (Json.amountAt field)).sum.natAbs
      ≤ (part.map fun record => (record.amountAt field).natAbs).sum := by
    intro part
    induction part with
    | nil => exact Nat.le_refl 0
    | cons record rest ih =>
        simp only [List.map_cons, List.sum_cons]
        omega
  obtain ⟨n, hn⟩ := hdvd
  rw [Int.mul_comm] at hn
  refine ⟨n, hn, ?_⟩
  have hsize := (habs records).trans h.bounded
  rw [hn, Int.natAbs_mul] at hsize
  exact Nat.le_of_mul_le_mul_right hsize Binary64.one_pos

end WholeWithin

namespace Accumulator

theorem ofList_concat (values : List (Option Json)) (value : Option Json) :
    ofList (values ++ [value]) = (ofList values).add value := by
  simp [ofList]

theorem count_ofList (values : List (Option Json)) : (ofList values).count = values.length := by
  induction values using List.reverseRecOn with
  | nil => rfl
  | append_singleton values value ih =>
      have hadd : ((ofList values).add value).count = (ofList values).count + 1 := by
        unfold add
        cases value.bind Json.numberView <;> rfl
      rw [ofList_concat, hadd, ih, List.length_append, List.length_singleton]

/-- **A total of whole numbers is exact** if their sizes add up to at most `2 ^ 53`. -/
theorem sum_ofList_of_wholeWithin {field : String} {records : List Json}
    (h : WholeWithin field records) :
    ∃ z, (ofList (records.map fun record => record.resolve? field)).sum = .finite z ∧
      z.value = (records.map (Json.amountAt field)).sum := by
  induction records using List.reverseRecOn with
  | nil => exact ⟨Binary64.zero false, rfl, rfl⟩
  | append_singleton records record ih =>
      -- The bound holds of every part, so the total so far is exact and one addition more is too.
      obtain ⟨total, htotal, hvalue⟩ := ih (h.sublist (List.sublist_append_left _ _))
      obtain ⟨n, hsum, hn⟩ := h.exists_sum_eq
      rw [List.map_append, List.map_singleton, ofList_concat]
      rw [List.map_append, List.map_singleton, List.sum_append, List.sum_singleton] at hsum ⊢
      unfold add
      cases hnumber : (record.resolve? field).bind Json.numberView with
      | none =>
          have hamount : record.amountAt field = 0 := by rw [Json.amountAt, hnumber]; rfl
          exact ⟨total, htotal, by rw [hvalue, hamount, Int.add_zero]⟩
      | some x =>
          have hamount : record.amountAt field = x.value := by rw [Json.amountAt, hnumber]; rfl
          rw [hamount, ← hvalue] at hsum ⊢
          obtain ⟨z, hz, hzvalue⟩ := Extended.add_whole hsum hn
          refine ⟨z, ?_, hzvalue⟩
          show (ofList (records.map fun record => record.resolve? field)).sum + .finite x = _
          rw [htotal, hz]

end Accumulator

end Reporting
