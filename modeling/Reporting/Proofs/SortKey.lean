import Reporting.Proofs.SortValue

/-!
# What a record is sorted by

A projected row keeps three things under its keys, and two of them are filled in opposite ways: for
an id the last field counts, for a path the first one that reads a value.  What a key means in the
end is told by the record alone (`Row.SortsBy`).  If the key is the id of a field, it means the value
at the path of the last such field, and null where that field sees nothing.  Otherwise it means the
value at the path, if a field with this path sees the record, and it makes no difference which one.

So records of several sources that are sorted by a path are sorted by what each of them holds there
(`Row.sort_projectAll_path`).
-/

namespace Reporting

namespace SelectedField

/-- A field sees the records that name its source, and those that do not name any. -/
def Visible (field : SelectedField) (record : Json) : Prop :=
  ∀ name, record.get? sourceKey = some (.str name) → Source.ofName name = field.source

/-- A field reads the value at its path from the records that it sees. -/
theorem valueIn?_of_visible {field : SelectedField} {record : Json} (h : field.Visible record) :
    field.valueIn? record = record.resolve? field.path := by
  unfold valueIn? Json.source?
  cases hname : (record.get? sourceKey).bind Json.str? with
  | none => rfl
  | some name =>
      obtain ⟨value, hvalue, hstr⟩ := Option.bind_eq_some_iff.mp hname
      cases value with
      | str text =>
          obtain rfl := Option.some.inj hstr
          simp [h _ hvalue]
      | null | bool | num | arr | obj => cases hstr

/-- A field reads nothing from the records that it does not see. -/
theorem valueIn?_of_not_visible {field : SelectedField} {record : Json}
    (h : ¬field.Visible record) : field.valueIn? record = none := by
  unfold Visible at h
  push Not at h
  obtain ⟨name, hname, hother⟩ := h
  unfold valueIn? Json.source?
  simp [hname, Json.str?, hother]

end SelectedField

namespace Row

/-- What a record is sorted by under a key, when some fields are selected. -/
inductive SortsBy (fields : List SelectedField) (record : Json) (key : String) :
    Option Json → Prop where
  /-- The last field with the key for its id reads a value. -/
  | read {place : Nat} {field : SelectedField} {value : Json} :
      LastAt SelectedField.id fields place field → field.id = key → field.Visible record →
        record.resolve? field.path = some value → SortsBy fields record key (some value)
  /-- The last field with the key for its id reads nothing. -/
  | missing {place : Nat} {field : SelectedField} :
      LastAt SelectedField.id fields place field → field.id = key →
        (¬field.Visible record ∨ record.resolve? field.path = none) →
          SortsBy fields record key (some .null)
  /-- The key is no id, and a field with the key for its path reads the value there. -/
  | path {field : SelectedField} {value : Json} :
      (∀ other ∈ fields, other.id ≠ key) → field ∈ fields → field.path = key →
        field.Visible record → record.resolve? key = some value →
          SortsBy fields record key (some value)
  /-- The key is no id, and no field with the key for its path reads a value. -/
  | absent :
      (∀ other ∈ fields, other.id ≠ key) →
        (∀ field ∈ fields, field.path = key → field.Visible record →
          record.resolve? key = none) →
            SortsBy fields record key none

section Keys

variable (settings : FormatSettings) {fields : List SelectedField} {record : Json} {key : String}

/-- An id of a field means what the last field with this id reads. -/
theorem sortValue?_project_of_lastAt {place : Nat} {field : SelectedField}
    (hlast : LastAt SelectedField.id fields place field) (record : Json) :
    (project settings fields record).sortValue? field.id
      = some ((field.valueIn? record).getD .null) := by
  rw [sortValue?_project, hlast.findRev?_eq, Option.map_some, Option.some_or]

variable (hid : ∀ field ∈ fields, field.id ≠ key)
include hid

/-- A key that is no id means what stands at the path, if a field reads it. -/
theorem sortValue?_project_of_no_id (record : Json) :
    (project settings fields record).sortValue? key
      = if readsAt fields record key then record.resolve? key else none := by
  have hnone : (fields.findRev? fun field => field.id == key) = none := by
    rw [List.findRev?_eq_find?_reverse, List.find?_eq_none]
    intro field hfield
    simpa using hid field (List.mem_reverse.mp hfield)
  rw [sortValue?_project, hnone, Option.map_none, Option.none_or]

/-- A key that is no id means what stands at the path, if a field with this path sees the record. -/
theorem sortValue?_project_path
    (hvisible : ∃ field ∈ fields, field.path = key ∧ field.Visible record) :
    (project settings fields record).sortValue? key = record.resolve? key := by
  obtain ⟨field, hfield, rfl, hvisible⟩ := hvisible
  rw [sortValue?_project_of_no_id settings hid]
  cases hresolve : record.resolve? field.path with
  | none => rw [ite_self]
  | some value =>
      have hreads : readsAt fields record field.path = true := by
        refine List.any_eq_true.mpr ⟨field, hfield, ?_⟩
        simp [SelectedField.valueIn?_of_visible hvisible, hresolve]
      rw [if_pos hreads]

/-- A key that is no id means nothing if no field with this path sees a value. -/
theorem sortValue?_project_absent
    (hnone : ∀ field ∈ fields, field.path = key → field.Visible record →
      record.resolve? key = none) :
    (project settings fields record).sortValue? key = none := by
  by_cases hvisible : ∃ field ∈ fields, field.path = key ∧ field.Visible record
  · rw [sortValue?_project_path settings hid hvisible]
    obtain ⟨field, hfield, hpath, hsees⟩ := hvisible
    exact hnone field hfield hpath hsees
  · have hreads : readsAt fields record key = false := by
      refine List.any_eq_false.mpr ?_
      intro field hfield hread
      obtain ⟨hpath, hvalue⟩ := Bool.and_eq_true_iff.mp hread
      rw [SelectedField.valueIn?_of_not_visible fun hsees =>
        hvisible ⟨field, hfield, eq_of_beq hpath, hsees⟩] at hvalue
      cases hvalue
    rw [sortValue?_project_of_no_id settings hid, hreads]
    rfl

end Keys

/-- A row has the value that its record is sorted by. -/
theorem SortsBy.sortValue?_eq {fields : List SelectedField} {record : Json} {key : String}
    {value : Option Json} (h : SortsBy fields record key value) (settings : FormatSettings) :
    (project settings fields record).sortValue? key = value := by
  cases h with
  | read hlast hid hvisible hresolve =>
      subst hid
      rw [sortValue?_project_of_lastAt settings hlast,
        SelectedField.valueIn?_of_visible hvisible, hresolve, Option.getD_some]
  | @missing _ field hlast hid hnone =>
      subst hid
      have hvalue : field.valueIn? record = none := by
        by_cases hvisible : field.Visible record
        · rw [SelectedField.valueIn?_of_visible hvisible]
          exact hnone.resolve_left (not_not_intro hvisible)
        · exact SelectedField.valueIn?_of_not_visible hvisible
      rw [sortValue?_project_of_lastAt settings hlast, hvalue, Option.getD_none]
  | path hid hfield hpath hvisible hresolve =>
      rw [sortValue?_project_path settings hid ⟨_, hfield, hpath, hvisible⟩, hresolve]
  | absent hid hnone => exact sortValue?_project_absent settings hid hnone

/-- Every record is sorted by something under every key, or known not to be. -/
theorem exists_sortsBy (fields : List SelectedField) (record : Json) (key : String) :
    ∃ value, SortsBy fields record key value := by
  -- An id goes before a path, and of the fields with the id the last one counts.
  by_cases hid : ∃ field ∈ fields, field.id = key
  · obtain ⟨place, field, hlast, hkey⟩ := exists_lastAt hid
    by_cases hvisible : field.Visible record
    · cases hresolve : record.resolve? field.path with
      | none => exact ⟨_, .missing hlast hkey (.inr hresolve)⟩
      | some value => exact ⟨_, .read hlast hkey hvisible hresolve⟩
    · exact ⟨_, .missing hlast hkey (.inl hvisible)⟩
  · have hid : ∀ field ∈ fields, field.id ≠ key := by
      intro field hfield hsame
      exact hid ⟨field, hfield, hsame⟩
    by_cases hvisible : ∃ field ∈ fields, field.path = key ∧ field.Visible record
    · obtain ⟨field, hfield, hpath, hsees⟩ := hvisible
      cases hresolve : record.resolve? key with
      | none => exact ⟨_, .absent hid fun _ _ _ _ => hresolve⟩
      | some value => exact ⟨_, .path hid hfield hpath hsees hresolve⟩
    · refine ⟨_, .absent hid ?_⟩
      intro field hfield hpath hsees
      exact absurd ⟨field, hfield, hpath, hsees⟩ hvisible

/-- The value that a record is sorted by is told by the record. -/
theorem sortsBy_iff (settings : FormatSettings) (fields : List SelectedField) (record : Json)
    (key : String) (value : Option Json) :
    SortsBy fields record key value ↔ (project settings fields record).sortValue? key = value := by
  constructor
  · intro h
    exact h.sortValue?_eq settings
  · intro h
    obtain ⟨other, hother⟩ := exists_sortsBy fields record key
    rw [hother.sortValue?_eq settings] at h
    rwa [← h]

/-- Records in the order of what stands at a path. -/
def orderByPath (rule : SortRule) (records : List Json) : List Json :=
  records.mergeSort fun a b =>
    (match rule.direction with
      | .asc => Json.order (a.resolve? rule.field) (b.resolve? rule.field)
      | .desc => (Json.order (a.resolve? rule.field) (b.resolve? rule.field)).swap) != .gt

/-- Records are sorted by their own value at a path, whatever source they are from, if the path is
no id and each record is seen by a field with this path. -/
theorem sort_projectAll_path (settings : FormatSettings) {fields : List SelectedField}
    {rule : SortRule} (hid : ∀ field ∈ fields, field.id ≠ rule.field) {records : List Json}
    (hvisible : ∀ record ∈ records, ∃ field ∈ fields, field.path = rule.field ∧
      field.Visible record) :
    sort [rule] (projectAll settings fields records)
      = projectAll settings fields (orderByPath rule records) := by
  unfold sort projectAll orderByPath
  refine (List.map_mergeSort ?_).symm
  intro a ha b hb
  unfold precedes
  have hthen : compare [rule] (project settings fields a) (project settings fields b)
      = rule.compare (project settings fields a) (project settings fields b) :=
    Ordering.then_eq
  have hleft := sortValue?_project_path settings hid (hvisible a ha)
  have hright := sortValue?_project_path settings hid (hvisible b hb)
  rw [hthen]
  cases hdirection : rule.direction <;>
    simp only [SortRule.compare, hdirection, hleft, hright]

/-- **A record tells what its row is sorted by.**  Whatever the display settings are, the row has the
value that the record is sorted by under the key, and no other.  Under a key that is no id it makes
no difference in which order the fields are selected; and if each of some records is seen by a field
with this path, sorting the rows by it in either direction is sorting the records by their own
values there. -/
theorem sortValue?_told_by_record (settings : FormatSettings) (fields : List SelectedField)
    (key : String) :
    (∀ record value,
      SortsBy fields record key value ↔ (project settings fields record).sortValue? key = value) ∧
    ((∀ field ∈ fields, field.id ≠ key) →
      (∀ fields' : List SelectedField, fields'.Perm fields → ∀ record,
        (project settings fields' record).sortValue? key
          = (project settings fields record).sortValue? key) ∧
      ∀ direction records,
        (∀ record ∈ records, ∃ field ∈ fields, field.path = key ∧ field.Visible record) →
          sort [⟨key, direction⟩] (projectAll settings fields records)
            = projectAll settings fields (orderByPath ⟨key, direction⟩ records)) := by
  refine ⟨fun record value => sortsBy_iff settings fields record key value, ?_⟩
  intro hid
  constructor
  · intro fields' hperm record
    have hid' : ∀ field ∈ fields', field.id ≠ key :=
      fun field hfield => hid field (hperm.mem_iff.mp hfield)
    have hreads : readsAt fields' record key = readsAt fields record key := hperm.any_eq
    rw [sortValue?_project_of_no_id settings hid', hreads,
      sortValue?_project_of_no_id settings hid]
  · intro direction records hvisible
    exact sort_projectAll_path settings hid hvisible

/-- The theorem at the amounts of commissions and expenses, which two fields show in columns of
their own. -/
theorem sortValue?_told_by_record_shared_path :
    let fields : List SelectedField :=
      [⟨"com-amount", .builtIn .commissions, "amount", "Commission", .number⟩,
        ⟨"exp-amount", .builtIn .expenses, "amount", "Expense", .number⟩]
    let entry (source : String) (amount : Nat) : Json :=
      .obj [(sourceKey, .str source), ("amount", .ofNat amount)]
    let records := [entry "commissions" 10, entry "commissions" 30, entry "expenses" 20,
      entry "expenses" 40]
    (∀ field ∈ fields, field.id ≠ "amount") ∧
      (∀ record ∈ records, ∃ field ∈ fields, field.path = "amount" ∧ field.Visible record) ∧
      sort [.descending "amount"] (projectAll .default fields records)
        = projectAll .default fields (orderByPath (.descending "amount") records) ∧
      (project .default fields (entry "expenses" 20)).sortValue? "com-amount" = some .null := by
  intro fields entry records
  have hid : ∀ field ∈ fields, field.id ≠ "amount" := by decide
  have hsource : ∀ (source name : String) (amount : Nat),
      (entry source amount).get? sourceKey = some (.str name) → source = name := by
    intro source name amount hname
    have hstored : (entry source amount).get? sourceKey = some (.str source) := rfl
    exact Json.str.inj (Option.some.inj (hstored.symm.trans hname))
  have hvisible : ∀ record ∈ records, ∃ field ∈ fields, field.path = "amount" ∧
      field.Visible record := by
    have hcommission : ∀ amount, ∃ field ∈ fields, field.path = "amount" ∧
        field.Visible (entry "commissions" amount) := by
      intro amount
      refine ⟨_, List.mem_cons_self, rfl, ?_⟩
      intro name hname
      obtain rfl := hsource _ _ _ hname
      rfl
    have hexpense : ∀ amount, ∃ field ∈ fields, field.path = "amount" ∧
        field.Visible (entry "expenses" amount) := by
      intro amount
      refine ⟨_, List.mem_cons_of_mem _ List.mem_cons_self, rfl, ?_⟩
      intro name hname
      obtain rfl := hsource _ _ _ hname
      rfl
    simp only [records, List.forall_mem_cons, List.not_mem_nil, false_imp_iff, implies_true,
      and_true]
    exact ⟨hcommission 10, hcommission 30, hexpense 20, hexpense 40⟩
  obtain ⟨_, hpath⟩ := sortValue?_told_by_record .default fields "amount"
  obtain ⟨hvalue, _⟩ := sortValue?_told_by_record .default fields "com-amount"
  refine ⟨hid, hvisible, (hpath hid).2 .desc records hvisible, ?_⟩
  have hlast : LastAt SelectedField.id fields 0
      ⟨"com-amount", .builtIn .commissions, "amount", "Commission", .number⟩ := ⟨rfl, by decide⟩
  rw [← hvalue]
  apply SortsBy.missing hlast rfl
  left
  intro hsees
  cases hsees "expenses" rfl

end Row

end Reporting
