import Mathlib.Algebra.GroupWithZero.Nat
import Mathlib.Data.List.Forall2
import Mathlib.Data.List.Induction
import Reporting.Sql.Select

/-!
# Placeholders of a select statement

A select statement is built by calls of three kinds, each of which changes a part of its own: the
last choice of columns stays, while conditions and clauses to order by add up (`SelectCall.run_eq`,
`Select.ofCalls_eq`).  Calls that change different parts may therefore change places.

The text is made of names alone.  What a condition compares with is not in it, only a placeholder
is, and the value goes to a list of its own.  Each call extends both lists or none, so that they
stay in step.  If no name brings a question mark, the placeholders are those of the conditions, and
the text falls apart around each of them (`Select.exists_text_eq`): the placeholder with some number
stands behind the column of the condition with this number, whose value is the parameter with this
number.
-/

namespace Reporting

/-- The parts of a select statement that calls change. -/
inductive SelectPart where
  | columns
  | conditions
  | ordering
  deriving DecidableEq

/-- A call that changes a select statement. -/
inductive SelectCall where
  | select (columns : List String)
  | whereEq (column value : String)
  | orderBy (clauses : List String)

namespace SelectCall

/-- The statement after a call. -/
def run (query : Select) : SelectCall → Select
  | select columns => query.select columns
  | whereEq column value => query.whereEq column value
  | orderBy clauses => query.orderBy clauses

/-- The part that a call changes. -/
def part : SelectCall → SelectPart
  | select _ => .columns
  | whereEq _ _ => .conditions
  | orderBy _ => .ordering

/-- The columns that a call chooses. -/
def columns? : SelectCall → Option (List String)
  | select columns => some columns
  | whereEq _ _ | orderBy _ => none

/-- The condition that a call adds. -/
def condition? : SelectCall → Option (String × String)
  | whereEq column value => some (column, value)
  | select _ | orderBy _ => none

/-- The clauses to order by that a call adds. -/
def clauses : SelectCall → List String
  | orderBy clauses => clauses
  | select _ | whereEq _ _ => []

/-- The names that a call is about: everything but the value of a condition. -/
def names : SelectCall → List String
  | select columns => columns
  | whereEq column _ => [column]
  | orderBy clauses => clauses

/-- Whether two calls differ at most in the value of a condition. -/
inductive SameNames : SelectCall → SelectCall → Prop where
  | select (columns : List String) : SameNames (.select columns) (.select columns)
  | whereEq (column value other : String) :
      SameNames (.whereEq column value) (.whereEq column other)
  | orderBy (clauses : List String) : SameNames (.orderBy clauses) (.orderBy clauses)

/-- **What a call does.**  It replaces the columns or adds to one of the other parts. -/
theorem run_eq (query : Select) (call : SelectCall) :
    call.run query
      = { columns := call.columns?.getD query.columns
          table := query.table
          conditions := query.conditions ++ call.condition?.toList.map fun c => Select.term c.1
          parameters := query.parameters ++ call.condition?.toList.map Prod.snd
          ordering := query.ordering ++ call.clauses } := by
  cases call <;> simp [run, columns?, condition?, clauses, Select.select, Select.whereEq,
    Select.orderBy]

/-- A condition was added by a call for it. -/
theorem whereEq_mem {calls : List SelectCall} {c : String × String}
    (hc : c ∈ calls.filterMap condition?) : whereEq c.1 c.2 ∈ calls := by
  obtain ⟨call, hcall, hcondition⟩ := List.mem_filterMap.mp hc
  cases call with
  | whereEq column value =>
      obtain rfl := Option.some.inj hcondition
      exact hcall
  | select columns | orderBy clauses => cases hcondition

/-- Calls that change different parts do not see each other. -/
theorem run_run_of_part_ne {first second : SelectCall} (h : first.part ≠ second.part)
    (query : Select) : second.run (first.run query) = first.run (second.run query) := by
  cases first <;> cases second <;> first | rfl | exact absurd rfl h

end SelectCall

namespace Select

/-- The statement that some calls lead to, from everything in a table on. -/
def ofCalls (table : String) (calls : List SelectCall) : Select :=
  calls.foldl SelectCall.run (fromTable table)

/-- **What calls lead to.**  The columns are those of the last call that chose any, the conditions,
their values and the clauses are those of all calls in their order. -/
theorem ofCalls_eq (table : String) (calls : List SelectCall) :
    ofCalls table calls
      = { columns := (calls.filterMap SelectCall.columns?).getLastD ["*"]
          table := table
          conditions := (calls.filterMap SelectCall.condition?).map fun c => term c.1
          parameters := (calls.filterMap SelectCall.condition?).map Prod.snd
          ordering := calls.flatMap SelectCall.clauses } := by
  induction calls using List.reverseRecOn with
  | nil => rfl
  | append_singleton calls call ih =>
      have hlast : ofCalls table (calls ++ [call]) = call.run (ofCalls table calls) := by
        simp [ofCalls]
      rw [hlast, ih, SelectCall.run_eq]
      cases call <;> simp [SelectCall.columns?, SelectCall.condition?, SelectCall.clauses]

/-- Neighbouring calls that change different parts may change places. -/
theorem ofCalls_swap (table : String) (before after : List SelectCall) {first second : SelectCall}
    (h : first.part ≠ second.part) :
    ofCalls table (before ++ second :: first :: after)
      = ofCalls table (before ++ first :: second :: after) := by
  unfold ofCalls
  simp only [List.foldl_append, List.foldl_cons]
  rw [SelectCall.run_run_of_part_ne h]

/-- The text does not see the parameters. -/
theorem text_congr {query other : Select} (hcolumns : query.columns = other.columns)
    (htable : query.table = other.table) (hconditions : query.conditions = other.conditions)
    (hordering : query.ordering = other.ordering) : query.text = other.text := by
  rw [text, text, hcolumns, htable, hconditions, hordering]

/-- **Values never become part of the text.** -/
theorem text_ofCalls_of_sameNames (table : String) {calls other : List SelectCall}
    (h : List.Forall₂ SelectCall.SameNames calls other) :
    (ofCalls table other).text = (ofCalls table calls).text := by
  have hparts : calls.filterMap SelectCall.columns? = other.filterMap SelectCall.columns? ∧
      (calls.filterMap SelectCall.condition?).map (fun c => term c.1)
        = (other.filterMap SelectCall.condition?).map (fun c => term c.1) ∧
      calls.flatMap SelectCall.clauses = other.flatMap SelectCall.clauses := by
    induction h with
    | nil => exact ⟨rfl, rfl, rfl⟩
    | cons hcall _ ih =>
        obtain ⟨hcolumns, hconditions, hclauses⟩ := ih
        cases hcall <;>
          simp [SelectCall.columns?, SelectCall.condition?, SelectCall.clauses,
            List.filterMap_cons, hcolumns, hconditions, hclauses]
  obtain ⟨hcolumns, hconditions, hclauses⟩ := hparts
  rw [ofCalls_eq, ofCalls_eq]
  exact text_congr (by rw [hcolumns]) rfl hconditions.symm hclauses.symm

/-! ## Counting placeholders -/

/-- The number of placeholders in a text. -/
def placeholders (text : String) : Nat :=
  text.toList.count '?'

@[simp] theorem placeholders_append (front back : String) :
    placeholders (front ++ back) = placeholders front + placeholders back := by
  simp [placeholders]

/-- Between separators without placeholders those of the parts add up. -/
theorem placeholders_intercalate {separator : String} (hseparator : placeholders separator = 0)
    (parts : List String) :
    placeholders (separator.intercalate parts) = (parts.map placeholders).sum := by
  induction parts with
  | nil => simp [placeholders]
  | cons part rest ih =>
      cases rest with
      | nil => simp
      | cons next rest =>
          rw [String.intercalate_cons_cons, placeholders_append, placeholders_append, hseparator,
            ih]
          simp

/-- Of the placeholders of a list those of the earlier parts stand in front of a part. -/
theorem exists_intercalate_eq {separator : String} (hseparator : placeholders separator = 0)
    (before : List String) (part : String) (after : List String) :
    ∃ front back, separator.intercalate (before ++ part :: after) = front ++ part ++ back ∧
      placeholders front = (before.map placeholders).sum := by
  have hback : ∃ back, separator.intercalate (part :: after) = part ++ back := by
    cases after with
    | nil => exact ⟨"", by simp⟩
    | cons next rest => exact ⟨separator ++ separator.intercalate (next :: rest),
        by rw [String.intercalate_cons_cons, String.append_assoc]⟩
  obtain ⟨back, hback⟩ := hback
  by_cases hbefore : before = []
  · subst hbefore
    exact ⟨"", back, by simpa using hback, rfl⟩
  · refine ⟨separator.intercalate before ++ separator, back, ?_, ?_⟩
    · rw [String.intercalate_append_of_ne_nil hbefore (List.cons_ne_nil _ _), hback,
        String.append_assoc]
      simp only [String.append_assoc]
    · rw [placeholders_append, hseparator, placeholders_intercalate hseparator, Nat.add_zero]

/-- A clause as it stands behind the line before it. -/
def clauseText (keyword separator : String) (parts : List String) : String :=
  if parts.isEmpty then "" else "\n" ++ (keyword ++ " " ++ separator.intercalate parts)

/-- The placeholders of a clause are those of its parts. -/
theorem placeholders_clauseText {keyword separator : String} (hkeyword : placeholders keyword = 0)
    (hseparator : placeholders separator = 0) (parts : List String) :
    placeholders (clauseText keyword separator parts) = (parts.map placeholders).sum := by
  have hfeed : placeholders "\n" = 0 := rfl
  have hblank : placeholders " " = 0 := rfl
  unfold clauseText
  cases parts with
  | nil => rfl
  | cons part rest =>
      rw [if_neg (by simp), placeholders_append, placeholders_append, placeholders_append,
        placeholders_intercalate hseparator, hfeed, hkeyword, hblank]
      simp

/-- A clause falls apart around each of its parts. -/
theorem exists_clauseText_eq {keyword separator : String} (hkeyword : placeholders keyword = 0)
    (hseparator : placeholders separator = 0) (before : List String) (part : String)
    (after : List String) :
    ∃ front back, clauseText keyword separator (before ++ part :: after) = front ++ part ++ back ∧
      placeholders front = (before.map placeholders).sum := by
  have hfeed : placeholders "\n" = 0 := rfl
  have hblank : placeholders " " = 0 := rfl
  obtain ⟨front, back, hparts, hcount⟩ := exists_intercalate_eq hseparator before part after
  refine ⟨"\n" ++ (keyword ++ " " ++ front), back, ?_, ?_⟩
  · rw [clauseText, if_neg (by simp), hparts]
    simp only [String.append_assoc]
  · rw [placeholders_append, placeholders_append, placeholders_append, hfeed, hkeyword, hblank,
      hcount]
    simp

/-- The lines in front of the conditions. -/
def opening (query : Select) : String :=
  "SELECT " ++ String.intercalate ", " query.columns ++ "\n" ++ ("FROM " ++ query.table)

/-- The lines of a statement, one behind the other. -/
theorem text_eq (query : Select) :
    query.text
      = query.opening
        ++ clauseText "WHERE" " AND " query.conditions
        ++ clauseText "ORDER BY" ", " query.ordering := by
  unfold text clause clauseText opening
  cases query.conditions <;> cases query.ordering <;> simp [String.append_assoc]

/-- No name in a statement has a placeholder of its own, so that a condition has the one for its
value. -/
structure Plain (query : Select) : Prop where
  columns : ∀ name ∈ query.columns, placeholders name = 0
  table : placeholders query.table = 0
  conditions : ∀ condition ∈ query.conditions, placeholders condition = 1
  ordering : ∀ clause ∈ query.ordering, placeholders clause = 0

theorem sum_placeholders_eq_zero {names : List String}
    (h : ∀ name ∈ names, placeholders name = 0) : (names.map placeholders).sum = 0 := by
  rw [List.sum_eq_zero_iff_forall_eq_nat]
  simpa using h

namespace Plain

variable {query : Select} (h : query.Plain)
include h

/-- In front of the conditions there is no placeholder. -/
theorem placeholders_opening : placeholders query.opening = 0 := by
  have hnames : placeholders (String.intercalate ", " query.columns) = 0 := by
    rw [placeholders_intercalate rfl, sum_placeholders_eq_zero h.columns]
  simp only [opening, placeholders_append, hnames, h.table]
  rfl

/-- Some of the conditions have one placeholder each. -/
theorem sum_placeholders_conditions {part : List String} (hpart : part ⊆ query.conditions) :
    (part.map placeholders).sum = part.length := by
  have hone : part.map placeholders = part.map fun _ => 1 := by
    apply List.map_congr_left
    intro condition hcondition
    exact h.conditions condition (hpart hcondition)
  rw [hone, List.map_const', List.sum_replicate_nat, Nat.mul_one]

/-- **The text has one placeholder for each condition.** -/
theorem placeholders_text : placeholders query.text = query.conditions.length := by
  rw [text_eq, placeholders_append, placeholders_append, h.placeholders_opening,
    placeholders_clauseText rfl rfl, placeholders_clauseText rfl rfl,
    h.sum_placeholders_conditions (List.Subset.refl _), sum_placeholders_eq_zero h.ordering,
    Nat.zero_add, Nat.add_zero]

/-- **The text falls apart around each condition.**  In front of the condition with some number
stand the placeholders of the conditions before it. -/
theorem exists_text_eq {k : Nat} {condition : String}
    (hk : query.conditions[k]? = some condition) :
    ∃ front back, query.text = front ++ condition ++ back ∧ placeholders front = k := by
  obtain ⟨hlt, hcondition⟩ := List.getElem?_eq_some_iff.mp hk
  let earlier := query.conditions.take k
  let later := query.conditions.drop (k + 1)
  have hsplit : query.conditions = earlier ++ condition :: later := by
    rw [← hcondition, ← List.drop_eq_getElem_cons hlt, List.take_append_drop]
  have hkeyword : placeholders "WHERE" = 0 := rfl
  have hseparator : placeholders " AND " = 0 := rfl
  obtain ⟨front, back, hwhere, hcount⟩ :=
    exists_clauseText_eq hkeyword hseparator earlier condition later
  refine ⟨query.opening ++ front, back ++ clauseText "ORDER BY" ", " query.ordering, ?_, ?_⟩
  · rw [text_eq, hsplit, hwhere]
    simp only [String.append_assoc]
  · rw [placeholders_append, h.placeholders_opening, hcount,
      h.sum_placeholders_conditions (List.take_subset _ _), Nat.zero_add, List.length_take]
    exact Nat.min_eq_left (Nat.le_of_lt hlt)

end Plain

/-- The condition on a column without placeholders has one. -/
theorem placeholders_term {column : String} (h : placeholders column = 0) :
    placeholders (term column) = 1 := by
  rw [term, placeholders_append, h]
  rfl

/-- What names without question marks lead to has placeholders for values only. -/
theorem plain_ofCalls {table : String} {calls : List SelectCall}
    (h : ∀ name ∈ table :: calls.flatMap SelectCall.names, '?' ∉ name.toList) :
    (ofCalls table calls).Plain := by
  have hname : ∀ call ∈ calls, ∀ name ∈ call.names, placeholders name = 0 := by
    intro call hcall name hmem
    refine List.count_eq_zero.mpr (h name (List.mem_cons_of_mem _ ?_))
    exact List.mem_flatMap.mpr ⟨call, hcall, hmem⟩
  rw [ofCalls_eq]
  refine ⟨?chosen, List.count_eq_zero.mpr (h table List.mem_cons_self), ?compared, ?ordered⟩
  case chosen =>
    intro name hmem
    rcases List.mem_cons.mp List.getLastD_mem_cons with hdefault | hlast
    · rw [hdefault, List.mem_singleton] at hmem
      rw [hmem]
      rfl
    · obtain ⟨call, hcall, hcolumns⟩ := List.mem_filterMap.mp hlast
      cases call with
      | select columns =>
          obtain rfl := Option.some.inj hcolumns
          exact hname _ hcall name hmem
      | whereEq column value | orderBy clauses => cases hcolumns
  case compared =>
    intro condition hmem
    obtain ⟨c, hc, rfl⟩ := List.mem_map.mp hmem
    exact placeholders_term (hname _ (SelectCall.whereEq_mem hc) c.1 List.mem_cons_self)
  case ordered =>
    intro clause hclause
    obtain ⟨call, hcall, hmem⟩ := List.mem_flatMap.mp hclause
    cases call with
    | orderBy clauses => exact hname _ hcall clause hmem
    | select columns | whereEq column value => cases hmem

/-- **Values are bound and never written.**  Take any calls on any table.  The same calls with other
values have the same text.  The parameters are the values in the order of the calls.  If no table,
column or clause has a question mark, there are as many placeholders as parameters, and the one with
some number stands behind the column of the condition with this number.  Neighbouring calls of
different kinds may change places.  And the text is the last choice of columns, all conditions and
all clauses to order by. -/
theorem ofCalls_binds_values (table : String) (calls : List SelectCall) :
    (∀ other, List.Forall₂ SelectCall.SameNames calls other →
      (ofCalls table other).text = (ofCalls table calls).text) ∧
    (ofCalls table calls).parameters = (calls.filterMap SelectCall.condition?).map Prod.snd ∧
    ((∀ name ∈ table :: calls.flatMap SelectCall.names, '?' ∉ name.toList) →
      placeholders (ofCalls table calls).text = (ofCalls table calls).parameters.length ∧
      ∀ k column value, (calls.filterMap SelectCall.condition?)[k]? = some (column, value) →
        '?' ∉ column.toList ∧
        ∃ front back, (ofCalls table calls).text = front ++ (column ++ " = ?") ++ back ∧
          placeholders front = k) ∧
    (∀ before first second after, calls = before ++ first :: second :: after →
      first.part ≠ second.part →
        ofCalls table (before ++ second :: first :: after) = ofCalls table calls) ∧
    (ofCalls table calls).text
      = "SELECT " ++ String.intercalate ", " ((calls.filterMap SelectCall.columns?).getLastD ["*"])
        ++ "\n" ++ ("FROM " ++ table)
        ++ clauseText "WHERE" " AND "
          ((calls.filterMap SelectCall.condition?).map fun c => c.1 ++ " = ?")
        ++ clauseText "ORDER BY" ", " (calls.flatMap SelectCall.clauses) := by
  have hparameters : (ofCalls table calls).parameters
      = (calls.filterMap SelectCall.condition?).map Prod.snd := by rw [ofCalls_eq]
  have hconditions : (ofCalls table calls).conditions
      = (calls.filterMap SelectCall.condition?).map fun c => term c.1 := by rw [ofCalls_eq]
  refine ⟨fun other h => text_ofCalls_of_sameNames table h, hparameters, ?placed, ?swapped, ?lines⟩
  case placed =>
    intro hnames
    have hplain := plain_ofCalls hnames
    constructor
    · -- Both lists have an entry for each condition.
      rw [hplain.placeholders_text, hconditions, hparameters, List.length_map, List.length_map]
    · intro k column value hk
      have hterm : (ofCalls table calls).conditions[k]? = some (term column) := by
        rw [hconditions, List.getElem?_map, hk]
        rfl
      have hcall : .whereEq column value ∈ calls :=
        SelectCall.whereEq_mem (List.mem_of_getElem? hk)
      have hcolumn : column ∈ calls.flatMap SelectCall.names :=
        List.mem_flatMap.mpr ⟨_, hcall, List.mem_cons_self⟩
      exact ⟨hnames column (List.mem_cons_of_mem _ hcolumn), hplain.exists_text_eq hterm⟩
  case swapped =>
    rintro before first second after rfl hpart
    exact ofCalls_swap table before after hpart
  case lines =>
    rw [text_eq, ofCalls_eq]
    rfl

/-- Calls in any order, one of them with a value that looks like a statement and has a question
mark. -/
theorem ofCalls_binds_values_of_hostile_owner :
    let calls : List SelectCall :=
      [.whereEq "owner_id" "x' OR '1' = ?", .select ["seq"], .orderBy ["seq ASC"],
        .whereEq "seq" "3", .select ["body"], .orderBy ["owner_id ASC"]]
    (∀ name ∈ "deal_records" :: calls.flatMap SelectCall.names, '?' ∉ name.toList) ∧
    (ofCalls "deal_records" calls).text
      = "SELECT body\nFROM deal_records\n"
        ++ "WHERE owner_id = ? AND seq = ?\nORDER BY seq ASC, owner_id ASC" ∧
    (ofCalls "deal_records" calls).parameters = ["x' OR '1' = ?", "3"] ∧
    placeholders (ofCalls "deal_records" calls).text = 2 ∧
    ∃ front back, (ofCalls "deal_records" calls).text = front ++ ("seq" ++ " = ?") ++ back ∧
      placeholders front = 1 := by
  intro calls
  have hnames : ∀ name ∈ "deal_records" :: calls.flatMap SelectCall.names, '?' ∉ name.toList := by
    decide
  obtain ⟨-, hparameters, hplaced, -, hlines⟩ := ofCalls_binds_values "deal_records" calls
  obtain ⟨hcount, hplace⟩ := hplaced hnames
  exact ⟨hnames, hlines.trans rfl, hparameters, hcount, (hplace 1 "seq" "3" rfl).2⟩

end Select

end Reporting
