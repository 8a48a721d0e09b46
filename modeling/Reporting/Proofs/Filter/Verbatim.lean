import Reporting.Proofs.Filter.Algebra
import Reporting.Proofs.Text.Lower

/-!
# Verbatim matches

Text is searched after it has been brought to lower case, each of the two texts as a whole.  What
stands in a value letter by letter is found there as long as its capital sigmas have the forms in the
value that they have in the target alone (`FilterRule.finds_verbatim`).  At the start and at the end
of a value that is also needed.

The form of a sigma depends on the letters around it.  So a target that ends in the middle of a word
is missed if it ends with a capital sigma (`FilterRule.misses_verbatim_of_open_sigma`), and a target
that decides the forms of its sigmas is always found.
-/

namespace Reporting

/-- The characters of the text view of a value. -/
def Json.textChars (value : Json) : List Char :=
  value.textView.toList

namespace FilterRule

section Questions

variable {rule : FilterRule} {record value : Json}
  (hvalue : record.resolvePresent? rule.field = some value) (target : Json)
include hvalue

/-- A value contains a target if the lower-case form of the target is a stretch of its own. -/
theorem ask_contains_iff :
    rule.ask .contains target record = true ↔
      Text.lower target.textChars <:+: Text.lower value.textChars := by
  rw [ask_of_present hvalue, ← Text.occursIn_iff_isInfix]
  rfl

theorem ask_startsWith_iff :
    rule.ask .startsWith target record = true ↔
      Text.lower target.textChars <+: Text.lower value.textChars := by
  rw [ask_of_present hvalue, ← List.isPrefixOf_iff_prefix]
  rfl

theorem ask_endsWith_iff :
    rule.ask .endsWith target record = true ↔
      Text.lower target.textChars <:+ Text.lower value.textChars := by
  rw [ask_of_present hvalue, ← List.isSuffixOf_iff_suffix]
  rfl

/-- A value contains a target or does not. -/
theorem ask_notContains :
    rule.ask .notContains target record = !rule.ask .contains target record := by
  rw [ask_of_present hvalue, ask_of_present hvalue]
  rfl

/-- **Verbatim matches.**  A value that holds the text of a target letter by letter contains it if
the sigmas of the target keep their forms where it stands.  A value that starts with the text of a
target, or ends with it, is accepted if, and only if, they do.  All of these matches are found if the
target decides the forms of its sigmas; a target without capital sigmas does. -/
theorem finds_verbatim :
    (∀ front back, value.textChars = front ++ target.textChars ++ back →
      Text.KeepsSigmas front target.textChars back →
        rule.ask .contains target record = true ∧ rule.ask .notContains target record = false) ∧
    (∀ back, value.textChars = target.textChars ++ back →
      (rule.ask .startsWith target record = true ↔ Text.KeepsSigmas [] target.textChars back)) ∧
    (∀ front, value.textChars = front ++ target.textChars →
      (rule.ask .endsWith target record = true ↔ Text.KeepsSigmas front target.textChars [])) ∧
    (Text.SettlesSigmas target.textChars →
      (target.textChars <:+: value.textChars →
        rule.ask .contains target record = true ∧ rule.ask .notContains target record = false) ∧
      (target.textChars <+: value.textChars → rule.ask .startsWith target record = true) ∧
      (target.textChars <:+ value.textChars → rule.ask .endsWith target record = true)) ∧
    ('Σ' ∉ target.textChars → Text.SettlesSigmas target.textChars) := by
  have hcontains : ∀ front back, value.textChars = front ++ target.textChars ++ back →
      Text.KeepsSigmas front target.textChars back →
        rule.ask .contains target record = true ∧ rule.ask .notContains target record = false := by
    intro front back hplace hkeeps
    have hfound : rule.ask .contains target record = true := by
      rw [ask_contains_iff hvalue, hplace]
      exact Text.isInfix_lower hkeeps
    refine ⟨hfound, ?_⟩
    rw [ask_notContains hvalue, hfound]
    rfl
  have hstarts : ∀ back, value.textChars = target.textChars ++ back →
      (rule.ask .startsWith target record = true ↔
        Text.KeepsSigmas [] target.textChars back) := by
    intro back hplace
    rw [ask_startsWith_iff hvalue, hplace]
    exact Text.isPrefix_lower_iff
  have hends : ∀ front, value.textChars = front ++ target.textChars →
      (rule.ask .endsWith target record = true ↔
        Text.KeepsSigmas front target.textChars []) := by
    intro front hplace
    rw [ask_endsWith_iff hvalue, hplace]
    exact Text.isSuffix_lower_iff
  refine ⟨hcontains, hstarts, hends, fun hsettles => ?_, fun hnone => ?_⟩
  · have hkeeps := (Text.settlesSigmas_iff target.textChars).mp hsettles
    refine ⟨?_, ?_, ?_⟩
    · rintro ⟨front, back, hplace⟩
      exact hcontains front back hplace.symm (hkeeps front back)
    · rintro ⟨back, hplace⟩
      exact (hstarts back hplace.symm).mpr (hkeeps [] back)
    · rintro ⟨front, hplace⟩
      exact (hends front hplace.symm).mpr (hkeeps front [])
  · intro before after hplace
    exact absurd (hplace ▸ List.mem_append_right before List.mem_cons_self) hnone

end Questions

/-- The theorem at the middle of a name, which decides the forms of its two sigmas, and at its start
up to the first of them, which does not. -/
theorem finds_verbatim_within_name :
    let rule : FilterRule := ⟨"name", "name", .text, .contains, .null, .and⟩
    let record : Json := .obj [("name", .str "ΟΔΥΣΣΕΑΣ")]
    Text.SettlesSigmas "ΔΥΣΣΕ".toList ∧
      rule.ask .contains (.str "ΔΥΣΣΕ") record = true ∧
      rule.ask .notContains (.str "ΔΥΣΣΕ") record = false ∧
      ¬ Text.KeepsSigmas [] "ΟΔΥΣ".toList "ΣΕΑΣ".toList ∧
      rule.ask .startsWith (.str "ΟΔΥΣ") record = false := by
  intro rule record
  have hvalue : record.resolvePresent? rule.field = some (.str "ΟΔΥΣΣΕΑΣ") := by
    refine Json.resolvePresent?_eq_some ?_ nofun
    rw [Json.resolve?_eq_get? (by decide) (by decide)]
    rfl
  have hsettles : Text.SettlesSigmas "ΔΥΣΣΕ".toList := by decide +kernel
  have hopen : ¬ Text.KeepsSigmas [] "ΟΔΥΣ".toList "ΣΕΑΣ".toList := by decide +kernel
  have hmiddle : "ΔΥΣΣΕ".toList <:+: "ΟΔΥΣΣΕΑΣ".toList :=
    ⟨"Ο".toList, "ΑΣ".toList, by decide⟩
  have hstart : "ΟΔΥΣΣΕΑΣ".toList = "ΟΔΥΣ".toList ++ "ΣΕΑΣ".toList := by decide
  obtain ⟨hfound, hnot⟩ := ((finds_verbatim hvalue (.str "ΔΥΣΣΕ")).2.2.2.1 hsettles).1 hmiddle
  have hstarts := (finds_verbatim hvalue (.str "ΟΔΥΣ")).2.1 "ΣΕΑΣ".toList hstart
  refine ⟨hsettles, hfound, hnot, hopen, ?_⟩
  rw [← Bool.not_eq_true, hstarts]
  exact hopen

/-- A name starts with the letters of a target and is not found by any question, since the target
ends with a sigma that is no end of a word in the name. -/
theorem misses_verbatim_of_open_sigma :
    let rule : FilterRule := ⟨"name", "name", .text, .contains, .null, .and⟩
    let record : Json := .obj [("name", .str "ΟΔΥΣΣΕΑΣ")]
    "ΟΔΥΣ".toList <+: "ΟΔΥΣΣΕΑΣ".toList ∧
      rule.ask .contains (.str "ΟΔΥΣ") record = false ∧
      rule.ask .notContains (.str "ΟΔΥΣ") record = true ∧
      rule.ask .startsWith (.str "ΟΔΥΣ") record = false ∧
      "Σ".toList <:+ "ΟΔΥΣΣΕΑΣ".toList ∧
      rule.ask .endsWith (.str "Σ") record = false := by
  intro rule record
  refine ⟨by decide, ?_, ?_, ?_, by decide, ?_⟩ <;> decide +kernel

end FilterRule

end Reporting
