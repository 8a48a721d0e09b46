import Reporting.Proofs.Binary64.Range
import Reporting.Proofs.Grouping.Total

/-!
# What an accumulator knows

An accumulator has seen a list of values, of which it keeps how many there were and what the numbers
among them come to (`Accumulator.ofList_eq`).  The least and the greatest number are members of the
list that no member is beyond (`Accumulator.exists_min`, `Accumulator.exists_max`).

`Grouping.result` is what a report shows of a function over the values at a path in some records.
Numbers of the same value are shown alike (`Json.ofExtended_congr`), although zero has two signs.
-/

namespace Reporting

namespace Accumulator

/-- The numbers among some values. -/
def numbers (values : List (Option Json)) : List Binary64 :=
  values.filterMap fun value => value.bind Json.numberView

/-- The state after some numbers. -/
def ofNumbers (xs : List Binary64) : Accumulator :=
  xs.foldl addNumber empty

theorem ofNumbers_concat (xs : List Binary64) (x : Binary64) :
    ofNumbers (xs ++ [x]) = (ofNumbers xs).addNumber x := by
  simp [ofNumbers]

/-- **An accumulator keeps its numbers and how many values there were.** -/
theorem ofList_eq (values : List (Option Json)) :
    ofList values = { ofNumbers (numbers values) with count := values.length } := by
  induction values using List.reverseRecOn with
  | nil => rfl
  | append_singleton values value ih =>
      have hnumbers : numbers (values ++ [value])
          = numbers values ++ (value.bind Json.numberView).toList := by
        unfold numbers
        rw [List.filterMap_append]
        cases hvalue : value.bind Json.numberView <;> simp [hvalue]
      rw [ofList_concat, ih, hnumbers, List.length_append, List.length_singleton]
      unfold add
      cases value.bind Json.numberView with
      | none => simp
      | some x =>
          rw [Option.toList_some, ofNumbers_concat]
          rfl

theorem numericCount_ofNumbers (xs : List Binary64) : (ofNumbers xs).numericCount = xs.length := by
  induction xs using List.reverseRecOn with
  | nil => rfl
  | append_singleton xs x ih =>
      rw [ofNumbers_concat, List.length_append, List.length_singleton, ← ih]
      rfl

section Best

variable (choose : Binary64 → Binary64 → Binary64)

/-- A number chosen from the best one so far, if there is one, and a number more. -/
def better (best : Option Binary64) (x : Binary64) : Option Binary64 :=
  some (match best with
    | some m => choose m x
    | none => x)

/-- If the choice is one of the two and neither is better, then of some numbers one is chosen that
none of them is better than. -/
theorem exists_foldl_better {choose : Binary64 → Binary64 → Binary64} {size : Binary64 → Int}
    (hmem : ∀ x y, choose x y = x ∨ choose x y = y)
    (hsize : ∀ x y, size (choose x y) ≤ size x ∧ size (choose x y) ≤ size y) {xs : List Binary64}
    (hne : xs ≠ []) :
    ∃ m ∈ xs, xs.foldl (better choose) none = some m ∧ ∀ x ∈ xs, size m ≤ size x := by
  induction xs using List.reverseRecOn with
  | nil => exact absurd rfl hne
  | append_singleton xs x ih =>
      rw [List.foldl_append, List.foldl_cons, List.foldl_nil]
      by_cases hfirst : xs = []
      · subst hfirst
        exact ⟨x, List.mem_singleton_self x, rfl, by simp⟩
      · obtain ⟨m, hm, hfold, hleast⟩ := ih hfirst
        rw [hfold]
        refine ⟨choose m x, ?_, rfl, ?_⟩
        · rcases hmem m x with h | h <;> rw [h]
          · exact List.mem_append_left _ hm
          · exact List.mem_append_right _ (List.mem_singleton_self x)
        · intro y hy
          have hboth := hsize m x
          rcases List.mem_append.mp hy with hold | hnew
          · exact hboth.1.trans (hleast y hold)
          · rw [List.mem_singleton.mp hnew]
            exact hboth.2

theorem min_ofNumbers (xs : List Binary64) :
    (ofNumbers xs).min = xs.foldl (better Binary64.min) none := by
  induction xs using List.reverseRecOn with
  | nil => rfl
  | append_singleton xs x ih =>
      rw [ofNumbers_concat, List.foldl_append, ← ih]
      rfl

theorem max_ofNumbers (xs : List Binary64) :
    (ofNumbers xs).max = xs.foldl (better Binary64.max) none := by
  induction xs using List.reverseRecOn with
  | nil => rfl
  | append_singleton xs x ih =>
      rw [ofNumbers_concat, List.foldl_append, ← ih]
      rfl

end Best

/-- **The least number** is one of them, and none is less. -/
theorem exists_min {xs : List Binary64} (hne : xs ≠ []) :
    ∃ m ∈ xs, (ofNumbers xs).min = some m ∧ ∀ x ∈ xs, m.value ≤ x.value := by
  rw [min_ofNumbers]
  apply exists_foldl_better
  · grind [Binary64.min]
  · grind [Binary64.min]
  · exact hne

/-- **The greatest number** is one of them, and none is greater. -/
theorem exists_max {xs : List Binary64} (hne : xs ≠ []) :
    ∃ m ∈ xs, (ofNumbers xs).max = some m ∧ ∀ x ∈ xs, x.value ≤ m.value := by
  -- The greatest number is the one whose negation is the least.
  rw [max_ofNumbers]
  have hmem : ∀ x y : Binary64, x.max y = x ∨ x.max y = y := by grind [Binary64.max]
  have hsize : ∀ x y : Binary64,
      -(x.max y).value ≤ -x.value ∧ -(x.max y).value ≤ -y.value := by grind [Binary64.max]
  simpa using exists_foldl_better hmem hsize hne

/-- Without any number all results but the count are zero. -/
theorem compute_of_numbers_eq_nil {values : List (Option Json)} (hnone : numbers values = [])
    {function : AggregationFunction} (hcount : function ≠ .count) :
    (ofList values).compute function = Extended.zero := by
  rw [ofList_eq, hnone]
  cases function with
  | count => exact absurd rfl hcount
  | sum | avg | min | max => rfl

end Accumulator

/-! ## What is shown -/

/-- The number that a value is seen as, counted in units. -/
def Json.amount? (json : Json) : Option Int :=
  json.numberView.map Binary64.value

/-- A computed number is seen as itself. -/
theorem Json.amount?_ofExtended (x : Binary64) :
    (Json.ofExtended (.finite x)).amount? = some x.value := by
  obtain ⟨y, hy, hvalue⟩ := Json.numberView_ofExtended x
  rw [Json.amount?, hy, Option.map_some, hvalue]

/-- A number without units is shown as zero, whatever its sign is. -/
theorem Json.ofExtended_of_units_eq_zero {x : Binary64} (h : x.units = 0) :
    Json.ofExtended (.finite x) = Json.ofInt 0 := by
  have hone := Binary64.one_pos
  have hcell : Json.ofExtended (.finite x)
      = if x.isWhole ∧ x.units < 9 * Nat.pow 10 15 * Binary64.one then Json.ofInt x.truncate
        else .num (.real x) := rfl
  have hwhole : x.isWhole = true := by
    simp [Binary64.isWhole, h]
  have hsmall : x.units < 9 * Nat.pow 10 15 * Binary64.one := by
    rw [h]
    exact Nat.mul_pos (by decide) hone
  have htruncate : x.truncate = 0 := by
    simp [Binary64.truncate, h]
  rw [hcell, if_pos ⟨hwhole, hsmall⟩, htruncate]

/-- Numbers of the same value are the same or zeros. -/
theorem Binary64.eq_or_units_eq_zero {x y : Binary64} (h : x.value = y.value) :
    x = y ∨ (x.units = 0 ∧ y.units = 0) := by
  obtain ⟨xn, xu, _, _⟩ := x
  obtain ⟨yn, yu, _, _⟩ := y
  cases xn <;> cases yn <;> simp [Binary64.value] at h ⊢ <;> omega

/-- **Numbers of the same value are shown alike.** -/
theorem Json.ofExtended_congr {x y : Binary64} (h : x.value = y.value) :
    Json.ofExtended (.finite x) = Json.ofExtended (.finite y) := by
  rcases Binary64.eq_or_units_eq_zero h with rfl | ⟨hx, hy⟩
  · rfl
  · rw [Json.ofExtended_of_units_eq_zero hx, Json.ofExtended_of_units_eq_zero hy]

/-- A quotient of a number without units is shown as zero, also if it is no number. -/
theorem Json.ofExtended_div_of_units_eq_zero {x : Binary64} (h : x.units = 0) (d : Extended) :
    Json.ofExtended (.finite x / d) = Json.ofInt 0 := by
  cases d with
  | undefined => rfl
  | infinite negative => exact Json.ofExtended_of_units_eq_zero rfl
  | finite y =>
      have hdiv : Extended.finite x / .finite y
          = if y.units = 0 then .undefined
            else .ofQuotient (x.negative != y.negative) 0 y.units := by
        show Extended.div _ _ = _
        simp only [Extended.div, h, if_true, Nat.zero_mul]
      rw [hdiv]
      by_cases hy : y.units = 0
      · rw [if_pos hy]
        rfl
      · rw [if_neg hy]
        have hcases := Extended.ofQuotient_cases (x.negative != y.negative) 0 y.units
        rcases hcases with ⟨hinf, -⟩ | ⟨z, hz, _, hunits⟩
        · rw [hinf]
          rfl
        · have hnone : Binary64.precision.round 0 y.units ≤ 0 :=
            Binary64.precision.round_le (Nat.pos_of_ne_zero hy) (Nat.dvd_zero _) (Nat.zero_le _)
          rw [hz]
          exact Json.ofExtended_of_units_eq_zero (hunits.trans (Nat.le_zero.mp hnone))

/-- **Quotients of numbers of the same value are shown alike.** -/
theorem Json.ofExtended_div_congr {x y : Binary64} (h : x.value = y.value) (d : Extended) :
    Json.ofExtended (.finite x / d) = Json.ofExtended (.finite y / d) := by
  rcases Binary64.eq_or_units_eq_zero h with rfl | ⟨hx, hy⟩
  · rfl
  · rw [Json.ofExtended_div_of_units_eq_zero hx, Json.ofExtended_div_of_units_eq_zero hy]

namespace Grouping

/-- What a report shows of a function over the values at a path in some records. -/
def result (function : AggregationFunction) (field : String) (records : List Json) : Json :=
  .ofExtended ((Accumulator.ofList (records.map fun record => record.resolve? field)).compute
    function)

/-- The numbers at a path in some records. -/
def numbersAt (field : String) (records : List Json) : List Binary64 :=
  Accumulator.numbers (records.map fun record => record.resolve? field)

theorem mem_numbersAt {field : String} {records : List Json} {x : Binary64} :
    x ∈ numbersAt field records
      ↔ ∃ record ∈ records, (record.resolve? field).bind Json.numberView = some x := by
  simp [numbersAt, Accumulator.numbers]

theorem ofList_eq_ofNumbers (field : String) (records : List Json) :
    Accumulator.ofList (records.map fun record => record.resolve? field)
      = { Accumulator.ofNumbers (numbersAt field records) with count := records.length } := by
  rw [Accumulator.ofList_eq, List.length_map, numbersAt]

/-- A sum over the records, in which the others weigh nothing, is one over the numbers. -/
theorem sum_map_numbersAt {M : Type} [AddMonoid M] (weight : Int → M) (hzero : weight 0 = 0)
    (field : String) (records : List Json) :
    ((numbersAt field records).map fun x => weight x.value).sum
      = (records.map fun record => weight (record.amountAt field)).sum := by
  unfold numbersAt Accumulator.numbers
  induction records with
  | nil => rfl
  | cons record rest ih =>
      rw [List.map_cons, List.filterMap_cons, List.map_cons, List.sum_cons, ← ih, Json.amountAt]
      cases (record.resolve? field).bind Json.numberView with
      | none => rw [Option.elim_none, hzero, zero_add]
      | some x => rw [List.map_cons, List.sum_cons, Option.elim_some]

/-- The running sum of the numbers at a path after all of some records. -/
def runningSum (field : String) (records : List Json) : Extended :=
  (Accumulator.ofNumbers (numbersAt field records)).sum

/-- The running sum is shown. -/
theorem result_sum (field : String) (records : List Json) :
    result .sum field records = .ofExtended (runningSum field records) := by
  rw [result, ofList_eq_ofNumbers]
  rfl

/-- A count is shown of all records, whether they have a number or not. -/
theorem result_count (field : String) (records : List Json) :
    result .count field records = .ofExtended (.ofNat records.length) := by
  rw [result, Accumulator.compute, Accumulator.count_ofList, List.length_map]

/-- Without any number all but a count is shown as zero. -/
theorem result_of_numbersAt_eq_nil {function : AggregationFunction} {field : String}
    {records : List Json} (hcount : function ≠ .count) (hnone : numbersAt field records = []) :
    result function field records = .ofInt 0 := by
  rw [result, Accumulator.compute_of_numbers_eq_nil hnone hcount]
  exact Json.ofExtended_of_units_eq_zero rfl

/-- The least of some numbers is shown. -/
theorem exists_result_min {field : String} {records : List Json}
    (hne : numbersAt field records ≠ []) :
    ∃ m ∈ numbersAt field records, result .min field records = .ofExtended (.finite m) ∧
      ∀ x ∈ numbersAt field records, m.value ≤ x.value := by
  obtain ⟨m, hm, hmin, hleast⟩ := Accumulator.exists_min hne
  refine ⟨m, hm, ?_, hleast⟩
  rw [result, ofList_eq_ofNumbers, Accumulator.compute, hmin, Option.getD_some]

/-- The greatest of some numbers is shown. -/
theorem exists_result_max {field : String} {records : List Json}
    (hne : numbersAt field records ≠ []) :
    ∃ m ∈ numbersAt field records, result .max field records = .ofExtended (.finite m) ∧
      ∀ x ∈ numbersAt field records, x.value ≤ m.value := by
  obtain ⟨m, hm, hmax, hgreatest⟩ := Accumulator.exists_max hne
  refine ⟨m, hm, ?_, hgreatest⟩
  rw [result, ofList_eq_ofNumbers, Accumulator.compute, hmax, Option.getD_some]

/-- Of numbers the average is shown as their running sum by their rounded count. -/
theorem result_avg {field : String} {records : List Json} (hne : numbersAt field records ≠ []) :
    result .avg field records
      = .ofExtended (runningSum field records / .ofNat (numbersAt field records).length) := by
  have hcount := Accumulator.numericCount_ofNumbers (numbersAt field records)
  have hpos : (numbersAt field records).length ≠ 0 := mt List.length_eq_zero_iff.mp hne
  rw [result, ofList_eq_ofNumbers, Accumulator.compute, hcount, if_neg hpos]
  rfl

end Grouping

end Reporting
