import Mathlib.Data.List.Forall2
import Reporting.Proofs.Grouping.Coarsening
import Reporting.Proofs.Grouping.Numbers

/-!
# Sums near the end of the range

A running sum of numbers none of which is negative never falls below a number that it has taken, and
it is at most twice the exact sum, because an addition is rounded by at most what is added.  So
there are two cases (`Grouping.KeepsMagnitude`).  While the running sum is in range, what is shown of
it is at least the greatest number, and a group with a number of at least one has a positive average.
Once the running sum has left the range it does not come back, and then the sum and the average are
both shown as zero, which takes numbers that add up to at least `2 ^ 1023`.
-/

namespace Reporting

namespace Accumulator

variable {xs : List Binary64} (h : ∀ x ∈ xs, 0 ≤ x.value)
include h

/-- **A running sum of numbers that are not negative** is beyond the range or at least each of
them. -/
theorem sum_ofNumbers_of_nonneg :
    (ofNumbers xs).sum = .infinite false ∨
      ∃ z, (ofNumbers xs).sum = .finite z ∧ 0 ≤ z.value ∧ ∀ x ∈ xs, x.value ≤ z.value := by
  induction xs using List.reverseRecOn with
  | nil => exact .inr ⟨Binary64.zero false, rfl, Int.le_refl 0, List.forall_mem_nil _⟩
  | append_singleton xs x ih =>
      obtain ⟨hbefore, hx⟩ := List.forall_mem_append.mp h
      have hx : 0 ≤ x.value := hx x (List.mem_singleton_self x)
      have hstep : (ofNumbers (xs ++ [x])).sum = (ofNumbers xs).sum + .finite x := by
        rw [ofNumbers_concat]
        rfl
      rcases ih hbefore with hinf | ⟨z, hz, hpos, hle⟩
      · -- A sum that has left the range does not come back.
        rw [hstep, hinf]
        exact .inl rfl
      · rw [hstep, hz]
        rcases Extended.add_nonneg hpos hx with ⟨hinf, -⟩ | ⟨w, hw, hzw, hxw, -⟩
        · exact .inl hinf
        · refine .inr ⟨w, hw, hpos.trans hzw, ?_⟩
          intro y hy
          rcases List.mem_append.mp hy with hold | hnew
          · exact (hle y hold).trans hzw
          · rw [List.mem_singleton.mp hnew]
            exact hxw

/-- A running sum is in range if twice the exact sum is, and then it is at most that. -/
theorem exists_sum_ofNumbers_le (hrange : 2 * (xs.map Binary64.value).sum < Binary64.limit) :
    ∃ z, (ofNumbers xs).sum = .finite z ∧ 0 ≤ z.value ∧
      z.value ≤ 2 * (xs.map Binary64.value).sum := by
  induction xs using List.reverseRecOn with
  | nil => exact ⟨Binary64.zero false, rfl, Int.le_refl 0, Int.le_refl 0⟩
  | append_singleton xs x ih =>
      obtain ⟨hbefore, hx⟩ := List.forall_mem_append.mp h
      have hx : 0 ≤ x.value := hx x (List.mem_singleton_self x)
      rw [List.map_append, List.map_singleton, List.sum_append, List.sum_singleton] at hrange ⊢
      obtain ⟨z, hz, hpos, hle⟩ := ih hbefore (by omega)
      have hstep : (ofNumbers (xs ++ [x])).sum = .finite z + .finite x := by
        rw [ofNumbers_concat, ← hz]
        rfl
      rcases Extended.add_nonneg hpos hx with ⟨_, hout⟩ | ⟨w, hw, hzw, -, hupper⟩
      · omega
      · exact ⟨w, hstep.trans hw, hpos.trans hzw, by omega⟩

end Accumulator

/-- Divided by a count of up to 64 bits, a number of at least one is positive. -/
theorem Extended.exists_div_ofNat_pos {z : Binary64} {n : Nat} (hz : Binary64.one ≤ z.value)
    (hn : 0 < n) (hcount : n ≤ powTwo 64) :
    ∃ a, Extended.finite z / .ofNat n = .finite a ∧ 0 < a.value := by
  obtain ⟨c, hc, hclo, hchi⟩ := Extended.exists_ofNat_of_pos hn hcount
  have hone : (Binary64.one : Int) = powTwo 1074 := by rw [Binary64.one_eq]
  have hcpos : 0 < c.value := (Int.natCast_pos.mpr (powTwo_pos 1074)).trans_le hclo
  have hproduct : powTwo 1010 * powTwo (64 + 1074) = powTwo 1074 * powTwo 1074 := by
    rw [← powTwo_add, ← powTwo_add]
  -- The quotient is at least the least number by the greatest count.
  have hbelow : (Binary64.power 1010 (by decide)).value * c.value ≤ z.value * Binary64.one := by
    rw [Binary64.value_power]
    calc (powTwo 1010 : Int) * c.value ≤ powTwo 1010 * powTwo (64 + 1074) :=
          Int.mul_le_mul_of_nonneg_left hchi (Int.natCast_nonneg _)
      _ = powTwo 1074 * powTwo 1074 := by
          rw [← Int.natCast_mul, hproduct, Int.natCast_mul]
      _ ≤ z.value * Binary64.one := by
          rw [hone] at hz ⊢
          exact Int.mul_le_mul_of_nonneg_right hz (Int.natCast_nonneg _)
  have habove : z.value * Binary64.one ≤ z.value * c.value :=
    Int.mul_le_mul_of_nonneg_left (hone.trans_le hclo) ((Int.natCast_nonneg _).trans hz)
  obtain ⟨a, ha, hpos, -⟩ := Extended.exists_div_between hcpos hbelow habove
  rw [Binary64.value_power] at hpos
  refine ⟨a, ?_, (Int.natCast_pos.mpr (powTwo_pos 1010)).trans_le hpos⟩
  rw [hc, ha]

/-- The number in a cell is that of its value. -/
theorem Row.amount?_of_get? {row : Row} {key : String} {value : Json}
    (h : row.get? key = some value) : row.amount? key = value.amount? := by
  rw [amount?, h]
  rfl

/-- A number that is not finite is shown as zero. -/
theorem Json.ofExtended_of_finite?_eq_none {x : Extended} (h : x.finite? = none) :
    Json.ofExtended x = Json.ofInt 0 := by
  cases x with
  | finite x => cases h
  | infinite negative | undefined => rfl

/-- A quotient of a number that is not finite is not finite. -/
theorem Extended.finite?_div_eq_none {x : Extended} (h : x.finite? = none) (d : Extended) :
    (x / d).finite? = none := by
  cases x with
  | finite x => cases h
  | infinite negative | undefined => cases d <;> rfl

namespace Grouping

/-- What is shown of the sum and of the average of some numbers none of which is negative.  While
the running sum is in range, the sum is at least the greatest number, and the average of up to
`2 ^ 64` numbers is positive if the greatest is at least one.  Numbers that add up to less than
`2 ^ 1023` stay in range.  A sum that is not in range is shown as zero and so is the average. -/
structure KeepsMagnitude (field : String) (records : List Json) : Prop where
  inRange : ∀ total, runningSum field records = .finite total → ∃ greatest,
    (result .sum field records).amount? = some total.value ∧
    (result .max field records).amount? = some greatest ∧ greatest ≤ total.value ∧
    ((numbersAt field records).length ≤ powTwo 64 → Binary64.one ≤ greatest →
      ∃ mean, (result .avg field records).amount? = some mean ∧ 0 < mean)
  small : ((numbersAt field records).map Binary64.value).sum < powTwo 1023 * Binary64.one →
    ∃ total, runningSum field records = .finite total
  beyond : (runningSum field records).finite? = none →
    result .sum field records = .ofInt 0 ∧ result .avg field records = .ofInt 0

/-- Numbers none of which is negative keep their magnitude while their sum is in range. -/
theorem keepsMagnitude_of_nonneg {field : String} {records : List Json}
    (hne : numbersAt field records ≠ [])
    (hnonneg : ∀ x ∈ numbersAt field records, 0 ≤ x.value) : KeepsMagnitude field records where
  inRange := by
    intro total htotal
    obtain ⟨m, hm, hmax, -⟩ := exists_result_max hne
    have hle : m.value ≤ total.value := by
      rcases Accumulator.sum_ofNumbers_of_nonneg hnonneg with hinf | ⟨z, hz, -, hle⟩
      · cases hinf.symm.trans htotal
      · obtain rfl := Extended.finite.inj (hz.symm.trans htotal)
        exact hle m hm
    refine ⟨m.value, ?_, ?_, hle, ?_⟩
    · rw [result_sum, htotal, Json.amount?_ofExtended]
    · rw [hmax, Json.amount?_ofExtended]
    · intro hcount hlarge
      have hpos : 0 < (numbersAt field records).length := List.length_pos_iff.mpr hne
      obtain ⟨a, ha, hapos⟩ :=
        Extended.exists_div_ofNat_pos (hlarge.trans hle) hpos hcount
      refine ⟨a.value, ?_, hapos⟩
      rw [result_avg hne, htotal, ha, Json.amount?_ofExtended]
  small := by
    intro hsmall
    have hrange : 2 * ((numbersAt field records).map Binary64.value).sum < Binary64.limit := by
      have hlimit : powTwo 1 * (powTwo 1023 * Binary64.one) = Binary64.limit := by
        rw [Binary64.one_eq, Binary64.limit_eq, ← powTwo_add, ← powTwo_add]
      have htwo : powTwo 1 = 2 := rfl
      rw [htwo] at hlimit
      omega
    obtain ⟨total, htotal, -⟩ := Accumulator.exists_sum_ofNumbers_le hnonneg hrange
    exact ⟨total, htotal⟩
  beyond := by
    intro hbeyond
    constructor
    · rw [result_sum, Json.ofExtended_of_finite?_eq_none hbeyond]
    · rw [result_avg hne]
      exact Json.ofExtended_of_finite?_eq_none (Extended.finite?_div_eq_none hbeyond _)

/-- **Totals keep their magnitude in range.**  The cells of each group's row are the results over its
members, and for each path at which these have numbers, none of them negative, what is shown of the
sum and of the average keeps the magnitude of the numbers while the running sum is in range, and is
zero beyond it. -/
theorem rows_keepMagnitude (grouping : Grouping) (records : List Json) :
    List.Forall₂
      (fun key row =>
        (∀ place agg, LastAt Aggregation.label grouping.aggregations place agg →
          row.get? agg.label = some (result agg.function agg.field
            (members grouping.groupBy key records))) ∧
        ∀ field, numbersAt field (members grouping.groupBy key records) ≠ [] →
          (∀ x ∈ numbersAt field (members grouping.groupBy key records), 0 ≤ x.value) →
            KeepsMagnitude field (members grouping.groupBy key records))
      (keys grouping.groupBy records) (grouping.rows records) := by
  rw [rows_eq, List.forall₂_map_right_iff, List.forall₂_same]
  intro key _
  constructor
  · intro place agg hlast
    exact get?_row_of_lastAt hlast key _
  · intro field hne hnonneg
    exact keepsMagnitude_of_nonneg hne hnonneg

/-- The theorem at two deals whose prices add up to a number in range, beside one without a price: the
total is shown at least as large as the greatest price, and the average is positive. -/
theorem rows_keepMagnitude_of_large_deals :
    let deal (price : String) : Json := .obj [("city", .str "Dubai"), ("price", .str price)]
    let deals := [deal "3e307", deal "on request", deal "4e307"]
    let grouping : Grouping :=
      ⟨["city"], [⟨"price", .sum, "total"⟩, ⟨"price", .avg, "mean"⟩, ⟨"price", .max, "greatest"⟩]⟩
    numbersAt "price" deals ≠ [] ∧ (∀ x ∈ numbersAt "price" deals, 0 ≤ x.value) ∧
      ∃ row ∈ grouping.rows deals, ∃ total mean greatest,
        row.amount? "total" = some total ∧ row.amount? "mean" = some mean ∧
        row.amount? "greatest" = some greatest ∧
        greatest ≤ total ∧ Binary64.one ≤ greatest ∧ 0 < mean := by
  intro deal deals grouping
  have hnumbers : numbersAt "price" deals ≠ [] ∧ ∀ x ∈ numbersAt "price" deals, 0 ≤ x.value := by
    decide +kernel
  have hkeys : keys grouping.groupBy deals = ["Dubai"] := by decide +kernel
  have hmembers : members grouping.groupBy "Dubai" deals = deals := rfl
  -- There is one group, and all deals are in it.
  have hrows := rows_keepMagnitude grouping deals
  rw [hkeys, List.forall₂_cons_left_iff] at hrows
  obtain ⟨row, rest, ⟨hcells, hkeeps⟩, -, hrow⟩ := hrows
  rw [hmembers] at hcells hkeeps
  have hkeep := hkeeps "price" hnumbers.1 hnumbers.2
  obtain ⟨total, htotal⟩ := hkeep.small (by decide +kernel)
  obtain ⟨greatest, hsum, hmax, hle, hmean⟩ := hkeep.inRange total htotal
  have hlarge : Binary64.one ≤ greatest := by
    have hany : ((result .max "price" deals).amount?.any fun amount =>
        (Binary64.one : Int) ≤ amount) = true := by decide +kernel
    rw [hmax] at hany
    exact of_decide_eq_true hany
  obtain ⟨mean, havg, hpos⟩ := hmean (by decide +kernel) hlarge
  refine ⟨hnumbers.1, hnumbers.2, row, ?_, total.value, mean, greatest, ?_, ?_, ?_, hle, hlarge, hpos⟩
  · rw [hrow]
    exact List.mem_cons_self
  · rw [Row.amount?_of_get? (hcells 0 ⟨"price", .sum, "total"⟩ ⟨rfl, by decide⟩), hsum]
  · rw [Row.amount?_of_get? (hcells 1 ⟨"price", .avg, "mean"⟩ ⟨rfl, by decide⟩), havg]
  · rw [Row.amount?_of_get? (hcells 2 ⟨"price", .max, "greatest"⟩ ⟨rfl, by decide⟩), hmax]

/-- Two deals at `2 ^ 1023` each add up to `2 ^ 1024`, which is out of range: the total is shown
below the greatest price, and the average as zero. -/
theorem total_below_greatest_of_two_deals :
    let deal : Json := .obj [("city", .str "Dubai"), ("price", .str "8.98846567431158e307")]
    let grouping : Grouping :=
      ⟨["city"], [⟨"price", .sum, "total"⟩, ⟨"price", .avg, "mean"⟩, ⟨"price", .max, "greatest"⟩]⟩
    numbersAt "price" [deal, deal] ≠ [] ∧ (∀ x ∈ numbersAt "price" [deal, deal], 0 ≤ x.value) ∧
      ∃ row ∈ grouping.rows [deal, deal], ∃ total mean greatest,
        row.amount? "total" = some total ∧ row.amount? "mean" = some mean ∧
        row.amount? "greatest" = some greatest ∧
        total < greatest ∧ Binary64.one ≤ greatest ∧ mean = 0 := by
  intro deal grouping
  have hnumbers : numbersAt "price" [deal, deal] ≠ [] ∧
      ∀ x ∈ numbersAt "price" [deal, deal], 0 ≤ x.value := by decide +kernel
  have hrows : (grouping.rows [deal, deal]).map
        (fun row => (row.amount? "total", row.amount? "mean", row.amount? "greatest"))
      = [(some 0, some 0, some (powTwo 2097 : Int))] := by decide +kernel
  obtain ⟨row, hrow, hcells⟩ := List.map_eq_singleton_iff.mp hrows
  simp only [Prod.mk.injEq] at hcells
  obtain ⟨htotal, hmean, hgreatest⟩ := hcells
  refine ⟨hnumbers.1, hnumbers.2, row, ?_, 0, 0, powTwo 2097, htotal, hmean, hgreatest, ?_, ?_, rfl⟩
  · rw [hrow]
    exact List.mem_singleton_self row
  · exact Int.natCast_pos.mpr (powTwo_pos 2097)
  · rw [Binary64.one_eq]
    exact Int.ofNat_le.mpr (powTwo_le_powTwo (by decide))

end Grouping

end Reporting
