import Reporting.Engine.Basic

/-!
# When a report is made

A report is made of every configuration without issues, and of no other one
(`Engine.generate_eq`).  What it shows are the rows of the configuration, under the columns of its
fields.
-/

namespace Reporting

/-- What can be seen without a catalog is also seen with one. -/
theorem Configuration.requiredIssues_eq_nil {catalog : Option Catalog} {config : Configuration}
    (h : config.issues catalog = []) : config.requiredIssues = [] := by
  unfold issues at h
  have hown := (List.append_eq_nil_iff.mp h).1
  exact (List.append_eq_nil_iff.mp hown).1

namespace Engine

variable (engine : Engine) (config : Configuration) (scope : Scope) (stamp : Stamp)

/-- A configuration that has all it needs is reported on. -/
theorem generateUnchecked_eq_ok (h : config.requiredIssues = []) :
    engine.generateUnchecked config scope stamp = .ok
      { id := stamp.reportId
        config := config
        data := engine.rows config scope
        columns := Column.ofFields config.fields
        generatedAt := stamp.moment
        generatedBy := scope.userId
        rowCount := (engine.rows config scope).length } := by
  unfold generateUnchecked Report.generate
  rw [h]
  rfl

theorem exists_generateUnchecked_eq_error_iff :
    (∃ reason, engine.generateUnchecked config scope stamp = .error reason) ↔
      config.requiredIssues ≠ [] := by
  unfold generateUnchecked Report.generate
  cases config.requiredIssues <;> simp

/-- **A configuration is rejected with all its issues, and reported on if it has none.** -/
theorem generate_eq :
    engine.generate config scope stamp
      = if config.issues (some engine.catalog) = [] then
          engine.generateUnchecked config scope stamp
        else
          .error (.configurationInvalid
            ((config.issues (some engine.catalog)).map Issue.message)) := by
  have hvalid : (engine.validate config).toResult
      = if (config.issues (some engine.catalog)).isEmpty then .ok ()
        else .error (.configurationInvalid
          ((config.issues (some engine.catalog)).map Issue.message)) := rfl
  unfold generate
  rw [hvalid]
  cases config.issues (some engine.catalog) <;> rfl

/-- A configuration that passes validation has all that a report needs, so that no report of it
fails. -/
theorem exists_generate_eq_error_iff :
    (∃ reason, engine.generate config scope stamp = .error reason) ↔
      config.issues (some engine.catalog) ≠ [] := by
  rw [generate_eq]
  by_cases h : config.issues (some engine.catalog) = []
  · rw [if_pos h, exists_generateUnchecked_eq_error_iff]
    have hrequired := Configuration.requiredIssues_eq_nil h
    exact iff_of_false (fun hfails => hfails hrequired) (fun hfails => hfails h)
  · rw [if_neg h]
    exact iff_of_true ⟨_, rfl⟩ h

end Engine

end Reporting
