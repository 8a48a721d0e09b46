import Reporting.Proofs.Grouping.Numbers

/-!
# What an accumulator says of its values

An accumulator starts empty and takes values one by one, of which any may be missing, `null`, a text
or anything else that is no number.  After each of them its counters, its bounds and its sum say
about the values so far what `Accumulator.Summarizes` lists (`Accumulator.ofList_summarizes`).

All numbers it takes are finite.  So a sum that is undefined would need an undefined sum before it,
and a sum that has left the range stays where it is.  There are bounds exactly if there was any
number, so the results without one are zero, and no average is divided by zero.
-/

namespace Reporting

namespace Extended

theorem ofQuotient_ne_undefined (negative : Bool) (num den : Nat) :
    ofQuotient negative num den ≠ undefined := by
  rcases ofQuotient_cases negative num den with ⟨hinf, -⟩ | ⟨z, hz, -, -⟩
  · rw [hinf]
    exact Extended.noConfusion
  · rw [hz]
    exact Extended.noConfusion

/-- Adding a finite number leaves a sum defined. -/
theorem add_finite_ne_undefined {x : Extended} (h : x ≠ undefined) (y : Binary64) :
    x + finite y ≠ undefined := by
  cases x with
  | undefined => exact absurd rfl h
  | infinite negative => exact Extended.noConfusion
  | finite x =>
      have hadd : finite x + finite y
          = if x.value + y.value = 0 then finite (Binary64.zero (x.negative && y.negative))
            else ofQuotient (x.value + y.value < 0) (x.value + y.value).natAbs 1 := rfl
      rw [hadd]
      split
      · exact Extended.noConfusion
      · apply ofQuotient_ne_undefined

/-- Dividing by a positive number leaves a quotient defined. -/
theorem div_finite_ne_undefined {x : Extended} (h : x ≠ undefined) {c : Binary64}
    (hc : 0 < c.value) : x / finite c ≠ undefined := by
  cases x with
  | undefined => exact absurd rfl h
  | infinite negative => exact Extended.noConfusion
  | finite x =>
      rw [div_of_pos x hc]
      apply ofQuotient_ne_undefined

/-- A quotient by a positive count of up to 64 bits is defined. -/
theorem div_ofNat_ne_undefined {x : Extended} (h : x ≠ undefined) {n : Nat} (hn : 0 < n)
    (hcount : n ≤ powTwo 64) : x / ofNat n ≠ undefined := by
  obtain ⟨c, hc, hone, -⟩ := exists_ofNat_of_pos hn hcount
  rw [hc]
  apply div_finite_ne_undefined h
  exact (Int.natCast_pos.mpr (powTwo_pos 1074)).trans_le hone

end Extended

namespace Accumulator

/-! ## The sum -/

/-- **What adding a number preserves holds of the sum after any values**, if it holds before. -/
theorem sum_foldl_add {P : Extended → Prop} (hstep : ∀ sum y, P sum → P (sum + .finite y))
    {acc : Accumulator} (h : P acc.sum) (values : List (Option Json)) :
    P (values.foldl add acc).sum := by
  induction values generalizing acc with
  | nil => exact h
  | cons value rest ih =>
      rw [List.foldl_cons]
      apply ih
      unfold add
      cases value.bind Json.numberView with
      | none => exact h
      | some y => exact hstep acc.sum y h

/-- A sum is never undefined. -/
theorem sum_ofList_ne_undefined (values : List (Option Json)) :
    (ofList values).sum ≠ .undefined := by
  apply sum_foldl_add (P := fun sum => sum ≠ .undefined)
  · intro sum y hsum
    exact Extended.add_finite_ne_undefined hsum y
  · exact Extended.noConfusion

/-- A sum that has left the range does not come back. -/
theorem sum_foldl_add_of_infinite {acc : Accumulator} {negative : Bool}
    (h : acc.sum = .infinite negative) (values : List (Option Json)) :
    (values.foldl add acc).sum = .infinite negative := by
  apply sum_foldl_add (P := fun sum => sum = .infinite negative)
  · intro sum y hsum
    rw [hsum]
    rfl
  · exact h

/-! ## The counters and the bounds -/

theorem length_numbers (values : List (Option Json)) :
    (numbers values).length
      = values.countP fun value => (value.bind Json.numberView).isSome :=
  List.length_filterMap_eq_countP

theorem numericCount_ofList (values : List (Option Json)) :
    (ofList values).numericCount = (numbers values).length := by
  rw [ofList_eq]
  exact numericCount_ofNumbers (numbers values)

/-- Either there was no number and there are no bounds, or the bounds are the least and the greatest
number. -/
theorem bounds_ofList (values : List (Option Json)) :
    (numbers values = [] ∧ (ofList values).min = none ∧ (ofList values).max = none) ∨
      ∃ least ∈ numbers values, ∃ greatest ∈ numbers values,
        (ofList values).min = some least ∧ (ofList values).max = some greatest ∧
        ∀ x ∈ numbers values, least.value ≤ x.value ∧ x.value ≤ greatest.value := by
  rw [ofList_eq]
  by_cases hnone : numbers values = []
  · rw [hnone]
    exact .inl ⟨rfl, rfl, rfl⟩
  · obtain ⟨least, hleast, hmin, hbelow⟩ := exists_min hnone
    obtain ⟨greatest, hgreatest, hmax, habove⟩ := exists_max hnone
    refine .inr ⟨least, hleast, greatest, hgreatest, hmin, hmax, ?_⟩
    intro x hx
    exact ⟨hbelow x hx, habove x hx⟩

/-- There are bounds exactly if numbers were counted. -/
theorem isSome_bounds_ofList (values : List (Option Json)) :
    ((ofList values).min.isSome ↔ 0 < (ofList values).numericCount) ∧
      ((ofList values).max.isSome ↔ 0 < (ofList values).numericCount) := by
  rw [numericCount_ofList]
  rcases bounds_ofList values with ⟨hnone, hmin, hmax⟩ | ⟨m, hm, _, _, hmin, hmax, -⟩
  · simp [hnone, hmin, hmax]
  · have hpos : 0 < (numbers values).length := List.length_pos_of_mem hm
    simp [hmin, hmax, hpos]

theorem min_ofList {values : List (Option Json)} {m : Binary64}
    (h : (ofList values).min = some m) :
    m ∈ numbers values ∧ ∀ x ∈ numbers values, m.value ≤ x.value := by
  rcases bounds_ofList values with ⟨-, hmin, -⟩ | ⟨least, hleast, _, _, hmin, -, hbounds⟩
  · cases hmin.symm.trans h
  · obtain rfl := Option.some.inj (hmin.symm.trans h)
    exact ⟨hleast, fun x hx => (hbounds x hx).1⟩

theorem max_ofList {values : List (Option Json)} {m : Binary64}
    (h : (ofList values).max = some m) :
    m ∈ numbers values ∧ ∀ x ∈ numbers values, x.value ≤ m.value := by
  rcases bounds_ofList values with ⟨-, -, hmax⟩ | ⟨_, _, greatest, hgreatest, -, hmax, hbounds⟩
  · cases hmax.symm.trans h
  · obtain rfl := Option.some.inj (hmax.symm.trans h)
    exact ⟨hgreatest, fun x hx => (hbounds x hx).2⟩

/-! ## The results -/

/-- The results of a defined sum are defined.  An average is divided by a positive count only, which
is finite if it is a word of 64 bits. -/
theorem compute_ne_undefined {acc : Accumulator} (hsum : acc.sum ≠ .undefined)
    {function : AggregationFunction} (hword : function = .avg → acc.numericCount < powTwo 64) :
    acc.compute function ≠ .undefined := by
  cases function with
  | sum => exact hsum
  | count => apply Extended.ofQuotient_ne_undefined
  | avg =>
      rw [compute]
      split
      · exact Extended.noConfusion
      · rename_i hnonzero
        exact Extended.div_ofNat_ne_undefined hsum (Nat.pos_of_ne_zero hnonzero) (hword rfl).le
  | min | max => exact Extended.noConfusion

/-! ## All together -/

/-- What an accumulator says of some values.

It counts all of them and the numbers among them.  There are bounds exactly if there are numbers,
and they are two of these that none is beyond.  The sum is defined, and if it has left the range no
more values bring it back.  All results are defined, an average as long as the counters are words of
64 bits, and without any number all but the count are zero. -/
structure Summarizes (acc : Accumulator) (values : List (Option Json)) : Prop where
  count : acc.count = values.length
  numericCount : acc.numericCount = values.countP fun value => (value.bind Json.numberView).isSome
  numericCount_le : acc.numericCount ≤ acc.count
  hasMin : acc.min.isSome ↔ 0 < acc.numericCount
  hasMax : acc.max.isSome ↔ 0 < acc.numericCount
  least : ∀ m, acc.min = some m → m ∈ numbers values ∧ ∀ x ∈ numbers values, m.value ≤ x.value
  greatest : ∀ m, acc.max = some m → m ∈ numbers values ∧ ∀ x ∈ numbers values, x.value ≤ m.value
  min_le_max : ∀ m n, acc.min = some m → acc.max = some n → m.value ≤ n.value
  sum_defined : acc.sum ≠ .undefined
  sum_beyond : ∀ negative, acc.sum = .infinite negative →
    ∀ more : List (Option Json), (more.foldl add acc).sum = .infinite negative
  result_defined : ∀ function : AggregationFunction,
    (function = .avg → acc.count < powTwo 64) → acc.compute function ≠ .undefined
  result_zero : acc.numericCount = 0 →
    ∀ function : AggregationFunction, function ≠ .count → acc.compute function = Extended.zero

/-- **An accumulator summarizes its values**, whatever they are and whatever their sum becomes. -/
theorem ofList_summarizes (values : List (Option Json)) : (ofList values).Summarizes values := by
  have hnumeric := numericCount_ofList values
  have hle : (ofList values).numericCount ≤ (ofList values).count := by
    rw [hnumeric, length_numbers, count_ofList]
    exact List.countP_le_length
  obtain ⟨hhasMin, hhasMax⟩ := isSome_bounds_ofList values
  refine
    { count := count_ofList values
      numericCount := hnumeric.trans (length_numbers values)
      numericCount_le := hle
      hasMin := hhasMin
      hasMax := hhasMax
      least := fun _ => min_ofList
      greatest := fun _ => max_ofList
      min_le_max := ?ordered
      sum_defined := sum_ofList_ne_undefined values
      sum_beyond := fun _ => sum_foldl_add_of_infinite
      result_defined := ?defined
      result_zero := ?zero }
  case ordered =>
    -- The least number is one of those that the greatest is not less than.
    intro m n hmin hmax
    exact (max_ofList hmax).2 m (min_ofList hmin).1
  case defined =>
    intro function hword
    apply compute_ne_undefined (sum_ofList_ne_undefined values)
    intro havg
    exact hle.trans_lt (hword havg)
  case zero =>
    intro hzero function hcount
    rw [hnumeric] at hzero
    exact compute_of_numbers_eq_nil (List.length_eq_zero_iff.mp hzero) hcount

/-- Two texts of `2 ^ 1023` among values of other kinds take the sum out of range.  They are counted,
a negative number does not bring the sum back, and its average is defined. -/
theorem ofList_summarizes_beyond_range :
    let large : Option Json := some (.str "8.98846567431158e307")
    let values := [none, large, some .null, some (.bool true), large, some (.str "flat")]
    let acc := ofList values
    acc.sum = .infinite false ∧
      (([some (.str "-8.98846567431158e307")] : List (Option Json)).foldl add acc).sum
        = .infinite false ∧
      acc.count < powTwo 64 ∧ acc.compute .avg ≠ .undefined ∧ acc.numericCount = 2 := by
  intro large values acc
  have hsummary : acc.Summarizes values := ofList_summarizes values
  have hsum : acc.sum = .infinite false := by decide +kernel
  have hword : acc.count < powTwo 64 := by decide +kernel
  refine ⟨hsum, ?_, hword, ?_, ?_⟩
  · exact hsummary.sum_beyond false hsum _
  · exact hsummary.result_defined .avg fun _ => hword
  · rw [hsummary.numericCount]
    decide +kernel

end Accumulator

end Reporting
