import Reporting.Filter.Match
import Reporting.Proofs.Record.Path

/-!
# The algebra of filter operators

Rules that differ only in operator and target ask different questions about one value
(`FilterRule.ask`).  About a value that is missing or `null` the answer is no, unless the question is
whether it is missing.  For numbers and dates every question of size and of equality reads one
comparison (`FilterRule.outcome?`), which is there if both sides have the field type's view and is
that of two integers (`Json.sizeAs?`).  Hence the laws that connect the operators
(`FilterRule.operators_algebra`).
-/

namespace Reporting

/-- Whether the values of a type are ordered: those of numbers, amounts, shares and dates. -/
def FieldType.isOrdered : FieldType → Bool
  | .number | .currency | .percentage | .date => true
  | .text | .boolean => false

/-- Exactly one of three questions is answered with yes. -/
def ExactlyOne (a b c : Bool) : Prop :=
  a.toNat + b.toNat + c.toNat = 1

/-! ## Sizes -/

/-- Dates are the same if their day numbers are. -/
theorem Date.beq_eq_dayNumber (a b : Date) : (a == b) = (a.dayNumber == b.dayNumber) := by
  rw [Bool.eq_iff_iff, beq_iff_eq, beq_iff_eq]
  obtain ⟨m, _, _⟩ := a
  obtain ⟨n, _, _⟩ := b
  rw [Date.mk.injEq]

/-- Integers are equal if their comparison says so. -/
theorem beq_eq_compare (m n : Int) : (m == n) = (compare m n == .eq) := by
  rw [Bool.eq_iff_iff, beq_iff_eq, beq_iff_eq, Std.LawfulEqOrd.compare_eq_iff_eq]

namespace Json

/-- Whether a value coerces to an ordered type: to a date, otherwise to a number. -/
def coercesTo (type : FieldType) (value : Json) : Bool :=
  match type with
  | .date => value.dateView.isSome
  | _ => value.numberView.isSome

/-- The integer that tells the size of a value in the terms of an ordered type. -/
def sizeAs? (type : FieldType) (value : Json) : Option Int :=
  match type with
  | .date => value.dateView.map Date.dayNumber
  | _ => value.numberView.map Binary64.value

/-- A value other than `null` at a path is there. -/
theorem resolvePresent?_eq_some {record value : Json} {path : String}
    (hvalue : record.resolve? path = some value) (hnull : value ≠ .null) :
    record.resolvePresent? path = some value :=
  resolvePresent?_eq_some_iff.mpr ⟨hvalue, hnull⟩

/-- A value has a size if it coerces to the type. -/
theorem isSome_sizeAs? (type : FieldType) (value : Json) :
    (value.sizeAs? type).isSome = value.coercesTo type := by
  cases type <;> simp [sizeAs?, coercesTo]

/-- **Values are ordered by size.** -/
theorem orderAs?_eq_sizes (type : FieldType) (value target : Json) :
    value.orderAs? type target
      = (value.sizeAs? type).bind fun m => (target.sizeAs? type).map fun n => compare m n := by
  cases type
  case date =>
    cases hvalue : value.dateView <;> cases htarget : target.dateView <;>
      simp [orderAs?, sizeAs?, hvalue, htarget, Date.compare]
  all_goals
    cases hvalue : value.numberView <;> cases htarget : target.numberView <;>
      simp [orderAs?, sizeAs?, hvalue, htarget, Binary64.compare]

/-- **Equality in the terms of an ordered type is the outcome `eq`**, although it is tested on its
own. -/
theorem equalAs_eq_orderAs? {type : FieldType} (hordered : type.isOrdered = true)
    (value target : Json) :
    value.equalAs type target = (value.orderAs? type target == some .eq) := by
  cases type
  case text => cases hordered
  case boolean => cases hordered
  case date =>
    cases hvalue : value.dateView <;> cases htarget : target.dateView <;>
      simp [equalAs, bothEqual, orderAs?, hvalue, htarget, Date.compare, Date.beq_eq_dayNumber,
        beq_eq_compare]
  all_goals
    cases hvalue : value.numberView <;> cases htarget : target.numberView <;>
      simp [equalAs, bothEqual, orderAs?, hvalue, htarget, Binary64.compare, Binary64.sameValue,
        beq_eq_compare]

end Json

namespace FilterRule

/-! ## Questions about one value -/

/-- The answer of a rule with another operator and another target. -/
def ask (rule : FilterRule) (operator : FilterOperator) (target record : Json) : Bool :=
  ({ rule with operator := operator, target := target } : FilterRule).accepts record

/-- How the value of a record compares to a target, if both sides have the field type's view. -/
def outcome? (rule : FilterRule) (target record : Json) : Option Ordering :=
  (record.resolvePresent? rule.field).bind fun value => value.orderAs? rule.fieldType target

/-- Whether the value of a record and a target both coerce to the rule's field type. -/
def Comparable (rule : FilterRule) (target record : Json) : Prop :=
  ∃ value, record.resolvePresent? rule.field = some value ∧
    value.coercesTo rule.fieldType = true ∧ target.coercesTo rule.fieldType = true

/-- There is an outcome if both sides have a size, and it is that of the sizes. -/
theorem outcome?_eq_some_iff {rule : FilterRule} {target record : Json} {outcome : Ordering} :
    rule.outcome? target record = some outcome ↔
      ∃ value m n, record.resolvePresent? rule.field = some value ∧
        value.sizeAs? rule.fieldType = some m ∧ target.sizeAs? rule.fieldType = some n ∧
        compare m n = outcome := by
  simp only [outcome?, Json.orderAs?_eq_sizes, Option.bind_eq_some_iff, Option.map_eq_some_iff]
  constructor
  · rintro ⟨value, hvalue, m, hm, n, hn, houtcome⟩
    exact ⟨value, m, n, hvalue, hm, hn, houtcome⟩
  · rintro ⟨value, m, n, hvalue, hm, hn, houtcome⟩
    exact ⟨value, hvalue, m, hm, n, hn, houtcome⟩

variable (rule : FilterRule) (target record : Json)

theorem comparable_iff_isSome_outcome? :
    rule.Comparable target record ↔ (rule.outcome? target record).isSome = true := by
  rw [Option.isSome_iff_exists]
  constructor
  · rintro ⟨value, hvalue, hcoerces, htarget⟩
    rw [← Json.isSome_sizeAs?, Option.isSome_iff_exists] at hcoerces htarget
    obtain ⟨m, hm⟩ := hcoerces
    obtain ⟨n, hn⟩ := htarget
    exact ⟨compare m n, outcome?_eq_some_iff.mpr ⟨value, m, n, hvalue, hm, hn, rfl⟩⟩
  · rintro ⟨outcome, houtcome⟩
    obtain ⟨value, m, n, hvalue, hm, hn, _⟩ := outcome?_eq_some_iff.mp houtcome
    refine ⟨value, hvalue, ?_, ?_⟩
    · rw [← Json.isSome_sizeAs?, hm]
      rfl
    · rw [← Json.isSome_sizeAs?, hn]
      rfl

/-- About a missing value only one question is answered with yes. -/
theorem ask_of_missing {rule : FilterRule} {record : Json}
    (hmissing : record.resolvePresent? rule.field = none) (operator : FilterOperator)
    (target : Json) : rule.ask operator target record = (operator == .isNull) := by
  simp [ask, accepts, hmissing]

theorem ask_of_present {rule : FilterRule} {record value : Json}
    (hpresent : record.resolvePresent? rule.field = some value) (operator : FilterOperator)
    (target : Json) : rule.ask operator target record
      = ({ rule with operator := operator, target := target } : FilterRule).acceptsValue value := by
  simp [ask, accepts, hpresent]

theorem ask_lessThan :
    rule.ask .lessThan target record = (rule.outcome? target record == some .lt) := by
  cases h : record.resolvePresent? rule.field <;> simp [ask, accepts, h, acceptsValue, outcome?]

theorem ask_greaterThan :
    rule.ask .greaterThan target record = (rule.outcome? target record == some .gt) := by
  cases h : record.resolvePresent? rule.field <;> simp [ask, accepts, h, acceptsValue, outcome?]

theorem ask_equals (hordered : rule.fieldType.isOrdered = true) :
    rule.ask .equals target record = (rule.outcome? target record == some .eq) := by
  cases h : record.resolvePresent? rule.field <;>
    simp [ask, accepts, h, acceptsValue, outcome?, Json.equalAs_eq_orderAs? hordered]

theorem ask_lessOrEqual :
    rule.ask .lessOrEqual target record
      = (rule.outcome? target record == some .lt || rule.outcome? target record == some .eq) := by
  cases h : record.resolvePresent? rule.field with
  | none => simp [ask, accepts, h, outcome?]
  | some value =>
      simp only [ask, accepts, h, acceptsValue, outcome?, Option.bind_some, Json.atMost]
      rcases value.orderAs? rule.fieldType target with _ | _ | _ | _ <;> rfl

theorem ask_greaterOrEqual :
    rule.ask .greaterOrEqual target record
      = (rule.outcome? target record == some .gt || rule.outcome? target record == some .eq) := by
  cases h : record.resolvePresent? rule.field with
  | none => simp [ask, accepts, h, outcome?]
  | some value =>
      simp only [ask, accepts, h, acceptsValue, outcome?, Option.bind_some, Json.atLeast]
      rcases value.orderAs? rule.fieldType target with _ | _ | _ | _ <;> rfl

/-- A range asks for both of its ends. -/
theorem ask_between (low high : Json) :
    rule.ask .between (.arr [low, high]) record
      = (rule.ask .greaterOrEqual low record && rule.ask .lessOrEqual high record) := by
  cases h : record.resolvePresent? rule.field with
  | none => simp [ask_of_missing h]; rfl
  | some value => simp [ask_of_present h, acceptsValue]

/-! ## The laws -/

/-- Of less, equal and greater exactly one is the outcome, if there is one. -/
theorem exactlyOne_of_comparable {rule : FilterRule} {target record : Json}
    (hordered : rule.fieldType.isOrdered = true) (h : rule.Comparable target record) :
    ExactlyOne (rule.ask .lessThan target record) (rule.ask .equals target record)
      (rule.ask .greaterThan target record) := by
  rw [comparable_iff_isSome_outcome?, Option.isSome_iff_exists] at h
  obtain ⟨outcome, houtcome⟩ := h
  rw [ask_lessThan, ask_greaterThan, ask_equals rule target record hordered, houtcome]
  cases outcome <;> rfl

/-- If there is none, no question of size or of equality is answered with yes. -/
theorem none_of_not_comparable {rule : FilterRule} {target record : Json}
    (hordered : rule.fieldType.isOrdered = true) (h : ¬ rule.Comparable target record) :
    ∀ operator ∈ [FilterOperator.lessThan, .equals, .greaterThan, .lessOrEqual, .greaterOrEqual],
      rule.ask operator target record = false := by
  rw [comparable_iff_isSome_outcome?, Option.not_isSome_iff_eq_none] at h
  simp [ask_lessThan, ask_greaterThan, ask_equals rule target record hordered, ask_lessOrEqual,
    ask_greaterOrEqual, h]

/-- Less than a value that is less is less. -/
theorem lessThan_trans {rule : FilterRule} {target record next other : Json}
    (hother : other.resolve? rule.field = some target)
    (hless : rule.ask .lessThan target record = true)
    (hnext : rule.ask .lessThan next other = true) : rule.ask .lessThan next record = true := by
  rw [ask_lessThan, beq_iff_eq] at *
  obtain ⟨value, m, n, hvalue, hm, hn, hlt⟩ := outcome?_eq_some_iff.mp hless
  obtain ⟨value', n', k, hvalue', hn', hk, hlt'⟩ := outcome?_eq_some_iff.mp hnext
  obtain ⟨hresolve, _⟩ := Json.resolvePresent?_eq_some_iff.mp hvalue'
  obtain rfl : target = value' := Option.some.inj (hother.symm.trans hresolve)
  obtain rfl : n = n' := Option.some.inj (hn.symm.trans hn')
  refine outcome?_eq_some_iff.mpr ⟨value, m, k, hvalue, hm, hk, ?_⟩
  rw [Int.compare_eq_lt] at *
  omega

/-- **The operators obey one algebra.**  About a value that is missing or `null` only the question
whether it is missing is answered with yes.  About a value that is there three operators are the
negations of three others.  For an ordered type exactly one of less, equal and greater holds if both
sides coerce to the type, and otherwise none of them and no form with equality; the forms with
equality and the range are made of these; and less is transitive through a record that holds the
first target. -/
theorem operators_algebra :
    (record.resolve? rule.field = none ∨ record.resolve? rule.field = some .null →
      ∀ operator, rule.ask operator target record = (operator == .isNull)) ∧
    (∀ value, record.resolve? rule.field = some value → value ≠ .null →
      rule.ask .notEquals target record = !rule.ask .equals target record ∧
      rule.ask .notContains target record = !rule.ask .contains target record ∧
      rule.ask .isNotNull target record = !rule.ask .isNull target record) ∧
    (rule.fieldType.isOrdered = true →
      (rule.Comparable target record →
        ExactlyOne (rule.ask .lessThan target record) (rule.ask .equals target record)
          (rule.ask .greaterThan target record)) ∧
      (¬ rule.Comparable target record →
        ∀ operator ∈ [.lessThan, .equals, .greaterThan, .lessOrEqual, .greaterOrEqual],
          rule.ask operator target record = false) ∧
      rule.ask .greaterOrEqual target record
        = (rule.ask .greaterThan target record || rule.ask .equals target record) ∧
      rule.ask .lessOrEqual target record
        = (rule.ask .lessThan target record || rule.ask .equals target record) ∧
      (∀ high, rule.ask .between (.arr [target, high]) record
        = (rule.ask .greaterOrEqual target record && rule.ask .lessOrEqual high record)) ∧
      rule.ask .between (.arr [target, target]) record = rule.ask .equals target record ∧
      ∀ next other, other.resolve? rule.field = some target →
        rule.ask .lessThan target record = true → rule.ask .lessThan next other = true →
          rule.ask .lessThan next record = true) := by
  refine ⟨?missing, ?present, ?ordered⟩
  case missing =>
    intro hmissing operator
    apply ask_of_missing
    unfold Json.resolvePresent?
    rcases hmissing with hnone | hnull
    · rw [hnone]
      rfl
    · rw [hnull]
      rfl
  case present =>
    intro value hvalue hnull
    have hpresent := Json.resolvePresent?_eq_some hvalue hnull
    simp [ask_of_present hpresent, acceptsValue]
  case ordered =>
    intro hordered
    refine ⟨exactlyOne_of_comparable hordered, none_of_not_comparable hordered, ?_, ?_,
      fun high => ask_between rule record target high, ?_, fun _ _ => lessThan_trans⟩
    · rw [ask_greaterOrEqual, ask_greaterThan, ask_equals rule target record hordered]
    · rw [ask_lessOrEqual, ask_lessThan, ask_equals rule target record hordered]
    · rw [ask_between, ask_greaterOrEqual, ask_lessOrEqual, ask_equals rule target record hordered]
      rcases rule.outcome? target record with _ | _ | _ | _ <;> rfl

/-- The theorem at a missing day, at two days in order and at a text that is no day. -/
theorem operators_algebra_of_days :
    let rule : FilterRule := ⟨"signed", "signedAt", .date, .isNull, .null, .and⟩
    let deal (value : Json) : Json := .obj [("signedAt", value)]
    let january : Json := .str "2024-01-31"
    let february : Json := .str "2024-02-29"
    rule.ask .lessThan january (deal .null) = false ∧
    rule.ask .notEquals february (deal january) = true ∧
    ExactlyOne (rule.ask .lessThan february (deal january))
      (rule.ask .equals february (deal january)) (rule.ask .greaterThan february (deal january)) ∧
    rule.ask .lessOrEqual (.str "soon") (deal january) = false ∧
    rule.ask .lessThan (.str "2024-03-01") (deal january) = true := by
  intro rule deal january february
  have hat : ∀ value, (deal value).resolve? rule.field = some value := by
    intro value
    rw [Json.resolve?_eq_get? (by decide) (by decide)]
    rfl
  have hpresent : (deal january).resolvePresent? rule.field = some january :=
    Json.resolvePresent?_eq_some (hat january) nofun
  have hnext : (deal february).resolvePresent? rule.field = some february :=
    Json.resolvePresent?_eq_some (hat february) nofun
  refine ⟨?_, ?_, ?_, ?_, ?_⟩
  · exact (operators_algebra rule january (deal .null)).1 (.inr (hat .null)) .lessThan
  · rw [((operators_algebra rule february (deal january)).2.1 january (hat january) nofun).1,
      ask_of_present hpresent]
    decide
  · exact ((operators_algebra rule february (deal january)).2.2 rfl).1
      ⟨january, hpresent, by decide, by decide⟩
  · have hnot : ¬ rule.Comparable (.str "soon") (deal january) := by
      rintro ⟨_, _, _, hcoerces⟩
      revert hcoerces
      decide
    exact ((operators_algebra rule (.str "soon") (deal january)).2.2 rfl).2.1 hnot .lessOrEqual
      (by decide)
  · refine ((operators_algebra rule february (deal january)).2.2 rfl).2.2.2.2.2.2
      (.str "2024-03-01") (deal february) (hat february) ?_ ?_
    · rw [ask_of_present hpresent]
      decide
    · rw [ask_of_present hnext]
      decide

end FilterRule

end Reporting
