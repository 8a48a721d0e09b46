import Reporting.Proofs.Grouping.Average
import Reporting.Proofs.Grouping.Coarsening

/-!
# Groups of records in another order

An accumulator takes its values one by one, but what it shows does not depend on their order
(`Grouping.result_perm`).  A count and the least and the greatest number never do.  A sum and an
average do not as long as every partial sum is exact, which it is for whole numbers whose sizes add
up to at most `2 ^ 53` (`Aggregation.Settled`).

Records in another order have the same keys and the same members of each key, in another order.  So
they have the same rows, which come as their texts first occur (`Grouping.rows_perm`).
-/

namespace Reporting

/-- Another order of the records has the same numbers. -/
theorem WholeWithin.perm {field : String} {records records' : List Json}
    (h : WholeWithin field records) (hperm : records'.Perm records) :
    WholeWithin field records' where
  whole := fun record hrecord => h.whole record (hperm.subset hrecord)
  bounded := by
    rw [(hperm.map _).sum_eq]
    exact h.bounded

/-- A bound for every number and the number of records bound the sizes of the numbers together. -/
theorem WholeWithin.of_forall (bound : Nat) {field : String} {records : List Json}
    (h : ∀ record ∈ records, ∀ x, (record.resolve? field).bind Json.numberView = some x →
      x.isWhole = true ∧ x.value.natAbs ≤ bound * Binary64.one)
    (hbound : records.length * bound ≤ powTwo 53) : WholeWithin field records where
  whole := fun record hrecord x hx => (h record hrecord x hx).1
  bounded := by
    have hsize : ∀ size ∈ records.map fun record => (record.amountAt field).natAbs,
        size ≤ bound * Binary64.one := by
      intro size hsize
      obtain ⟨record, hrecord, rfl⟩ := List.mem_map.mp hsize
      rw [Json.amountAt]
      cases hnumber : (record.resolve? field).bind Json.numberView with
      | none => exact Nat.zero_le _
      | some x => exact (h record hrecord x hnumber).2
    have hsum := List.sum_le_card_nsmul _ _ hsize
    rw [List.length_map, nsmul_eq_mul, Nat.cast_id, ← Nat.mul_assoc] at hsum
    exact hsum.trans (Nat.mul_le_mul_right _ hbound)

/-- The result of an aggregation over some records does not depend on partial sums, or these are
exact. -/
def Aggregation.Settled (agg : Aggregation) (records : List Json) : Prop :=
  agg.function = .sum ∨ agg.function = .avg → WholeWithin agg.field records

namespace Grouping

/-! ## Results -/

section Results

variable {field : String} {records records' : List Json}

/-- Another order of the records gives another order of the numbers. -/
theorem numbersAt_perm (field : String) (hperm : records'.Perm records) :
    (numbersAt field records').Perm (numbersAt field records) :=
  (hperm.map _).filterMap _

/-- The exact sum of the numbers is shown. -/
theorem amount?_result_sum (h : WholeWithin field records) :
    (result .sum field records).amount? = some (records.map (Json.amountAt field)).sum := by
  obtain ⟨z, hz, hvalue, -⟩ := h.exists_runningSum
  rw [result_sum, hz, Json.amount?_ofExtended, hvalue]
  exact congrArg some (sum_map_numbersAt (fun n => n) rfl field records)

variable (hperm : records'.Perm records)
include hperm

/-- Exact running sums do not depend on the order. -/
theorem exists_runningSum_perm (h : WholeWithin field records) :
    ∃ z' z, runningSum field records' = .finite z' ∧ runningSum field records = .finite z ∧
      z'.value = z.value := by
  obtain ⟨z', hz', hvalue', -⟩ := (h.perm hperm).exists_runningSum
  obtain ⟨z, hz, hvalue, -⟩ := h.exists_runningSum
  refine ⟨z', z, hz', hz, ?_⟩
  rw [hvalue', hvalue, ((numbersAt_perm field hperm).map _).sum_eq]

/-- **The order of the records does not show** in a count, in the least and in the greatest number,
and not in the sum and in the average of whole numbers. -/
theorem result_perm {function : AggregationFunction}
    (hsettled : function = .sum ∨ function = .avg → WholeWithin field records) :
    result function field records' = result function field records := by
  have hnumbers := numbersAt_perm field hperm
  by_cases hcount : function = .count
  · rw [hcount, result_count, result_count, hperm.length_eq]
  by_cases hnone : numbersAt field records = []
  · have hnone' : numbersAt field records' = [] := by
      rw [hnone] at hnumbers
      exact hnumbers.eq_nil
    rw [result_of_numbersAt_eq_nil hcount hnone', result_of_numbersAt_eq_nil hcount hnone]
  have hne' : numbersAt field records' ≠ [] := by
    intro hnone'
    rw [hnone'] at hnumbers
    exact hnone hnumbers.symm.eq_nil
  -- What is left compares numbers of equal value, of which only the sign of a zero may differ.
  cases function with
  | count => exact absurd rfl hcount
  | sum =>
      obtain ⟨z', z, hz', hz, hvalue⟩ := exists_runningSum_perm hperm (hsettled (.inl rfl))
      rw [result_sum, result_sum, hz', hz]
      exact Json.ofExtended_congr hvalue
  | avg =>
      obtain ⟨z', z, hz', hz, hvalue⟩ := exists_runningSum_perm hperm (hsettled (.inr rfl))
      rw [result_avg hne', result_avg hnone, hnumbers.length_eq, hz', hz]
      exact Json.ofExtended_div_congr hvalue _
  | min =>
      obtain ⟨m', hm', hshown', hleast'⟩ := exists_result_min hne'
      obtain ⟨m, hm, hshown, hleast⟩ := exists_result_min hnone
      rw [hshown', hshown]
      apply Json.ofExtended_congr
      exact Int.le_antisymm (hleast' m (hnumbers.mem_iff.mpr hm))
        (hleast m' (hnumbers.mem_iff.mp hm'))
  | max =>
      obtain ⟨m', hm', hshown', hgreatest'⟩ := exists_result_max hne'
      obtain ⟨m, hm, hshown, hgreatest⟩ := exists_result_max hnone
      rw [hshown', hshown]
      apply Json.ofExtended_congr
      exact Int.le_antisymm (hgreatest m' (hnumbers.mem_iff.mp hm'))
        (hgreatest' m (hnumbers.mem_iff.mpr hm))

end Results

/-! ## Groups -/

/-- The rows of some records: one for each list of texts, as these first occur, with the results over
the records that have the texts.  For whole numbers whose sizes add up to at most `2 ^ 53` the sum is
exact and the average lies between the least and the greatest number. -/
structure Tabulates (grouping : Grouping) (records : List Json) (rows : List Row) : Prop where
  texts : rows.map (Row.textsAt grouping.groupBy)
    = (records.map fun record => (texts grouping.groupBy record).map some).eraseDups
  cells : ∀ row ∈ rows, ∀ agg ∈ grouping.aggregations,
    row.get? agg.label
      = some (result agg.function agg.field (groupOf grouping.groupBy records row))
  total : ∀ row ∈ rows, ∀ field, WholeWithin field (groupOf grouping.groupBy records row) →
    (result .sum field (groupOf grouping.groupBy records row)).amount?
      = some ((groupOf grouping.groupBy records row).map (Json.amountAt field)).sum
  average : ∀ row ∈ rows, ∀ field, WholeWithin field (groupOf grouping.groupBy records row) →
    numbersAt field (groupOf grouping.groupBy records row) ≠ [] →
      ∃ least average greatest,
        (result .min field (groupOf grouping.groupBy records row)).amount? = some least ∧
        (result .avg field (groupOf grouping.groupBy records row)).amount? = some average ∧
        (result .max field (groupOf grouping.groupBy records row)).amount? = some greatest ∧
        least ≤ average ∧ average ≤ greatest

/-- Among whole numbers the average is shown between the least and the greatest number. -/
theorem exists_amounts_between {field : String} {records : List Json}
    (h : WholeWithin field records) (hne : numbersAt field records ≠ []) :
    ∃ least average greatest,
      (result .min field records).amount? = some least ∧
      (result .avg field records).amount? = some average ∧
      (result .max field records).amount? = some greatest ∧
      least ≤ average ∧ average ≤ greatest := by
  obtain ⟨lo, hlo, hmin, hleast⟩ := exists_result_min hne
  obtain ⟨hi, hhi, hmax, hgreatest⟩ := exists_result_max hne
  obtain ⟨a, havg, hbetween⟩ := h.exists_result_avg hlo hhi hleast hgreatest
  refine ⟨lo.value, a.value, hi.value, ?_, ?_, ?_, hbetween⟩
  · rw [hmin, Json.amount?_ofExtended]
  · rw [havg, Json.amount?_ofExtended]
  · rw [hmax, Json.amount?_ofExtended]

theorem members_perm (paths : List String) (key : String) {records records' : List Json}
    (hperm : records'.Perm records) :
    (members paths key records').Perm (members paths key records) :=
  hperm.filter _

/-- Another order of the records gives another order of the keys. -/
theorem keys_perm (paths : List String) {records records' : List Json}
    (hperm : records'.Perm records) : (keys paths records').Perm (keys paths records) := by
  rw [List.perm_ext_iff_of_nodup (nodup_keys paths records') (nodup_keys paths records)]
  intro key
  rw [mem_keys, mem_keys]
  simp only [hperm.mem_iff]

section Rows

variable {grouping : Grouping} (hpaths : grouping.groupBy ≠ [])
  (hlabels : (grouping.aggregations.map Aggregation.label).Nodup)
  (hdistinct : ∀ agg ∈ grouping.aggregations, agg.label ∉ grouping.groupBy)

include hpaths hlabels hdistinct

theorem tabulates_rows (records : List Json) :
    grouping.Tabulates records (grouping.rows records) where
  texts := map_textsAt_rows_self hpaths hdistinct
  cells := by
    intro row hrow agg hagg
    rw [rows_eq] at hrow
    obtain ⟨key, hkey, rfl⟩ := List.mem_map.mp hrow
    rw [groupOf_rowFor grouping hpaths hdistinct hkey]
    exact get?_row_label hlabels hagg (hdistinct agg hagg) key _
  total := fun _ _ _ hwhole => amount?_result_sum hwhole
  average := fun _ _ _ hwhole hne => exists_amounts_between hwhole hne

variable {records records' : List Json} (hperm : records'.Perm records)
include hperm

omit hpaths hlabels hdistinct in
/-- If the results over a group are settled, its row is the same in another order. -/
theorem rowFor_perm {key : String} (hsettled : ∀ agg ∈ grouping.aggregations,
      agg.Settled (members grouping.groupBy key records)) :
    grouping.rowFor records' key = grouping.rowFor records key := by
  have hcells : resultCells grouping.aggregations
        (accumulate grouping.aggregations (members grouping.groupBy key records'))
      = resultCells grouping.aggregations
        (accumulate grouping.aggregations (members grouping.groupBy key records)) := by
    rw [resultCells_accumulate, resultCells_accumulate]
    apply List.map_congr_left
    intro agg hagg
    exact congrArg (agg.label, ·)
      (result_perm (members_perm grouping.groupBy key hperm) (hsettled agg hagg))
  unfold rowFor row
  rw [hcells]

/-- **Groups do not depend on the order of the records.**  Let there be paths to group by, and let
the labels of the aggregations be distinct and different from the paths.  Records in another order
have the same rows, which come as their texts first occur, if in every group sums and averages are
taken of whole numbers whose sizes add up to at most `2 ^ 53`.  If they are not, every row still has
a counterpart with the same texts and with the same results as far as this holds, and always the
same counts, least and greatest numbers. -/
theorem rows_perm :
    grouping.Tabulates records (grouping.rows records) ∧
      grouping.Tabulates records' (grouping.rows records') ∧
      ((∀ row ∈ grouping.rows records, ∀ agg ∈ grouping.aggregations,
          agg.Settled (groupOf grouping.groupBy records row)) →
        (grouping.rows records').Perm (grouping.rows records)) ∧
      ∀ row ∈ grouping.rows records, ∃ row' ∈ grouping.rows records',
        row'.textsAt grouping.groupBy = row.textsAt grouping.groupBy ∧
        ∀ agg ∈ grouping.aggregations, agg.Settled (groupOf grouping.groupBy records row) →
          row'.get? agg.label = row.get? agg.label := by
  have hkeys := keys_perm grouping.groupBy hperm
  refine ⟨tabulates_rows hpaths hlabels hdistinct records,
    tabulates_rows hpaths hlabels hdistinct records', ?_, ?_⟩
  · -- The keys are permuted, and under each key the row stays.
    intro hsettled
    rw [rows_eq] at hsettled
    rw [rows_eq, rows_eq]
    have hrows : (keys grouping.groupBy records).map (grouping.rowFor records')
        = (keys grouping.groupBy records).map (grouping.rowFor records) := by
      apply List.map_congr_left
      intro key hkey
      apply rowFor_perm hperm
      rw [← groupOf_rowFor grouping hpaths hdistinct hkey]
      exact hsettled _ (List.mem_map_of_mem hkey)
    rw [← hrows]
    exact hkeys.map _
  · intro row hrow
    rw [rows_eq] at hrow
    obtain ⟨key, hkey, rfl⟩ := List.mem_map.mp hrow
    refine ⟨grouping.rowFor records' key, ?_, ?_, ?_⟩
    · rw [rows_eq]
      exact List.mem_map_of_mem (hkeys.mem_iff.mpr hkey)
    · obtain ⟨record, _, rfl⟩ := mem_keys.mp hkey
      unfold rowFor
      rw [textsAt_row grouping (fun _ hpath => hpath) hdistinct,
        textsAt_row grouping (fun _ hpath => hpath) hdistinct]
    · intro agg hagg hsettled
      rw [groupOf_rowFor grouping hpaths hdistinct hkey] at hsettled
      unfold rowFor
      rw [get?_row_label hlabels hagg (hdistinct agg hagg),
        get?_row_label hlabels hagg (hdistinct agg hagg)]
      exact congrArg some (result_perm (members_perm grouping.groupBy key hperm) hsettled)

end Rows

/-- The theorem at deals of two cities, one of them without a price, and their reversal. -/
theorem rows_perm_deals_reversed :
    let deal (city : String) (price : Json) : Json :=
      .obj [("city", .str city), ("price", price)]
    let records :=
      [deal "Dubai" (.ofNat 5), deal "Sharjah" (.ofNat 7), deal "Dubai" .null,
        deal "Sharjah" (.ofNat 5)]
    let grouping : Grouping :=
      ⟨["city"], [⟨"price", .count, "n"⟩, ⟨"price", .sum, "total"⟩, ⟨"price", .avg, "mean"⟩]⟩
    grouping.groupBy ≠ [] ∧ (grouping.aggregations.map Aggregation.label).Nodup ∧
      (∀ agg ∈ grouping.aggregations, agg.label ∉ grouping.groupBy) ∧
      records.reverse.Perm records ∧
      (∀ row ∈ grouping.rows records, ∀ agg ∈ grouping.aggregations,
        agg.Settled (groupOf grouping.groupBy records row)) ∧
      (grouping.rows records.reverse).Perm (grouping.rows records) ∧
      (grouping.rows records).map (Row.textsAt ["city"]) = [[some "Dubai"], [some "Sharjah"]] ∧
      (grouping.rows records.reverse).map (Row.textsAt ["city"])
        = [[some "Sharjah"], [some "Dubai"]] := by
  intro deal records grouping
  have hpaths : grouping.groupBy ≠ [] := List.cons_ne_nil _ _
  have hlabels : (grouping.aggregations.map Aggregation.label).Nodup := by decide
  have hdistinct : ∀ agg ∈ grouping.aggregations, agg.label ∉ grouping.groupBy := by decide
  have hperm : records.reverse.Perm records := List.reverse_perm records
  have hwhole : WholeWithin "price" records := by
    refine WholeWithin.of_forall 7 ?_ (by decide)
    intro record hrecord x hx
    have hnumber : (record.resolve? "price").bind Json.numberView = none ∨
        (record.resolve? "price").bind Json.numberView = some (.ofInt 5 (by decide)) ∨
        (record.resolve? "price").bind Json.numberView = some (.ofInt 7 (by decide)) := by
      simp only [records, List.mem_cons, List.not_mem_nil, or_false] at hrecord
      rcases hrecord with rfl | rfl | rfl | rfl
      · exact .inr (.inl rfl)
      · exact .inr (.inr rfl)
      · exact .inl rfl
      · exact .inr (.inl rfl)
    rw [hx] at hnumber
    rcases hnumber with hnone | hfive | hseven
    · cases hnone
    · obtain rfl := Option.some.inj hfive
      refine ⟨Binary64.isWhole_ofInt _ (by decide), ?_⟩
      rw [Binary64.value_ofInt _ (by decide)]
      omega
    · obtain rfl := Option.some.inj hseven
      refine ⟨Binary64.isWhole_ofInt _ (by decide), ?_⟩
      rw [Binary64.value_ofInt _ (by decide)]
      omega
  have hfields : ∀ agg ∈ grouping.aggregations, agg.field = "price" := by decide
  have hsettled : ∀ row ∈ grouping.rows records, ∀ agg ∈ grouping.aggregations,
      agg.Settled (groupOf grouping.groupBy records row) := by
    intro row _ agg hagg _
    rw [hfields agg hagg]
    exact hwhole.sublist List.filter_sublist
  obtain ⟨htexts, htexts', hrows, _⟩ := rows_perm hpaths hlabels hdistinct hperm
  refine ⟨hpaths, hlabels, hdistinct, hperm, hsettled, hrows hsettled, ?_, ?_⟩
  · rw [htexts.texts]
    rfl
  · rw [htexts'.texts]
    rfl

end Grouping

end Reporting
