import Mathlib.Data.List.Basic
import Reporting.Filter.Rule

/-!
# Rules without a fault

What a rule needs so that it can be evaluated, said without the order in which its parts are looked
at: `FilterRule.fault?_eq_none_iff`.
-/

namespace Reporting.FilterRule

/-- Whether a rule can be evaluated: it names a path, its field type has the operator, and the
target has the shape that the operator asks for. -/
structure Usable (rule : FilterRule) : Prop where
  path : Text.isBlankText rule.field = false
  operator : rule.operator ∈ FilterOperator.allowedFor rule.fieldType
  pair : rule.operator = .between → ∃ low high, rule.target = .arr [low, high]
  alternatives : rule.operator = .oneOf → ∃ items, rule.target = .arr items

/-- The shape of the target is at fault only where the operator asks for one. -/
theorem targetFault?_eq_none_iff (rule : FilterRule) :
    rule.targetFault? = none ↔
      (rule.operator = .between → ∃ low high, rule.target = .arr [low, high]) ∧
      (rule.operator = .oneOf → ∃ items, rule.target = .arr items) := by
  unfold targetFault?
  split
  · rename_i low high hoperator htarget
    simp [hoperator, htarget]
  · rename_i hoperator hshape
    simpa [hoperator] using hshape
  · rename_i items hoperator htarget
    simp [hoperator, htarget]
  · rename_i hoperator hshape
    simpa [hoperator] using hshape
  · rename_i hbetween hbetween' honeOf honeOf'
    simp_all

theorem fault?_eq_none_iff (rule : FilterRule) : rule.fault? = none ↔ rule.Usable := by
  have hvalid : rule.operator.isValidFor rule.fieldType = true
      ↔ rule.operator ∈ FilterOperator.allowedFor rule.fieldType := by
    unfold FilterOperator.isValidFor
    exact List.contains_iff_mem
  have hshape := rule.targetFault?_eq_none_iff
  unfold fault?
  constructor
  · intro h
    split at h
    · cases h
    · rename_i hpath
      split at h
      · cases h
      · rename_i hoperator
        obtain ⟨hpair, halternatives⟩ := hshape.mp h
        exact ⟨by simpa using hpath, hvalid.mp (by simpa using hoperator), hpair, halternatives⟩
  · intro ⟨hpath, hoperator, hpair, halternatives⟩
    rw [if_neg (by simp [hpath]), if_neg (by simp [hvalid.mpr hoperator])]
    exact hshape.mpr ⟨hpair, halternatives⟩

end Reporting.FilterRule
