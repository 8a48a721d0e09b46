import Reporting.Proofs.Calendar.Chronology
import Reporting.Proofs.Filter.Algebra
import Reporting.Proofs.Output
import Reporting.Proofs.Record.View
import Reporting.Proofs.SortValue

/-!
# Sorted columns and filters

A filter compares values in the terms of the field's type, and sorting compares them as they are:
numbers come before texts, and texts are compared as texts.  The two agree where the lesser value is
a number (`Json.order_of_number_lt`), and of two texts where the lesser one also comes first as a
text.  Days that are written in plain form do (`Json.text_lt_of_days`).  A text that stands for a
lesser number or an earlier day than a number does comes after it.

`Configuration.rows_ordered_like_filter` says so for the rows of a report that is sorted by a field.
-/

namespace Reporting

namespace Json

/-! ## Numbers -/

/-- A number that is less than another one in the terms of an ordered type comes before it. -/
theorem order_numbers_lt {type : FieldType} {m n : Number}
    (h : (Json.num m).orderAs? type (.num n) = some .lt) :
    order (some (.num m)) (some (.num n)) = .lt := by
  show m.toBinary64.compare n.toBinary64 = .lt
  cases type
  case date =>
    simp only [orderAs?, Option.bind_eq_bind, Option.bind_eq_some_iff, Option.some.injEq] at h
    obtain ⟨d, hd, e, he, hless⟩ := h
    cases m with
    | real x => cases hd
    | whole m =>
        cases n with
        | real y => cases he
        | whole n =>
            obtain ⟨hm, hdays⟩ := exact_of_dateView hd
            obtain ⟨hn, hdays'⟩ := exact_of_dateView he
            unfold Date.compare at hless
            rw [Int.compare_eq_lt, hdays, hdays'] at hless
            have hvals : m.val < n.val := by
              apply Int.not_le.mp
              intro hle
              have hmono := Int.ediv_le_ediv (c := Date.millisecondsPerDay) (by decide) hle
              omega
            show compare m.toBinary64.value n.toBinary64.value = .lt
            rw [hm, hn, Int.compare_eq_lt]
            exact Int.mul_lt_mul_of_pos_right hvals (Int.natCast_pos.mpr Binary64.one_pos)
  all_goals exact Option.some.inj h

/-- **A number that is less than a value in the terms of an ordered type comes before it.** -/
theorem order_of_number_lt {type : FieldType} {m : Number} {b : Json}
    (h : (Json.num m).orderAs? type b = some .lt) : order (some (.num m)) (some b) = .lt := by
  cases b with
  | num n => exact order_numbers_lt h
  | str t => rfl
  | _ => cases type <;> cases m <;> simp [orderAs?, numberView, dateView] at h

/-! ## Texts -/

/-- Texts come in their order as texts. -/
theorem order_texts_lt {s t : String} (h : s < t) :
    order (some (.str s)) (some (.str t)) = .lt := by
  show compareOfLessAndEq s t = .lt
  rw [compareOfLessAndEq, if_pos h]

/-- Whether a text begins with the plain form of the date that is read from it, and the year of this
date has four digits. -/
def BeginsWithDay (s : String) : Prop :=
  ∃ d : Date, (Json.str s).dateView = some d ∧ 0 ≤ d.civil.year ∧ d.civil.year ≤ 9999 ∧
    d.isoChars <+: s.toList

/-- **Texts that begin with their days in plain form are ordered as texts like their days.** -/
theorem text_lt_of_days {s t : String} (hs : BeginsWithDay s) (ht : BeginsWithDay t)
    (h : (Json.str s).orderAs? .date (.str t) = some .lt) : s < t := by
  obtain ⟨d, hd, hyear, -, rest, hrest⟩ := hs
  obtain ⟨e, he, -, hyear', rest', hrest'⟩ := ht
  have hless : d.dayNumber < e.dayNumber := by
    simp only [orderAs?, hd, he, Option.bind_eq_bind, Option.bind_some, Option.some.injEq] at h
    exact Int.compare_eq_lt.mp h
  have hchars := Date.lt_of_isoChars hless hyear hyear' rest rest'
  rw [hrest, hrest'] at hchars
  exact String.lt_iff.mpr hchars

end Json

/-! ## Columns -/

/-- The rule that what a field reads has to be less than a target. -/
def FilterRule.below (id : String) (field : SelectedField) (combination : LogicalOperator)
    (target : Json) : FilterRule :=
  ⟨id, field.path, field.type, .lessThan, target, combination⟩

/-- Such a rule compares the value that the field reads with the target. -/
theorem SelectedField.orderAs?_of_below {field : SelectedField} {record a b : Json} {id : String}
    {combination : LogicalOperator} (ha : field.valueIn? record = some a)
    (h : (FilterRule.below id field combination b).accepts record = true) :
    a.orderAs? field.type b = some .lt := by
  have hask := FilterRule.ask_lessThan (FilterRule.below id field combination b) b record
  rw [FilterRule.ask, FilterRule.below] at hask
  rw [FilterRule.below, hask, beq_iff_eq, FilterRule.outcome?, Option.bind_eq_some_iff] at h
  obtain ⟨value, hvalue, hless⟩ := h
  obtain ⟨hresolve, _⟩ := Json.resolvePresent?_eq_some_iff.mp hvalue
  obtain rfl : a = value := Option.some.inj ((resolve?_of_valueIn? ha).symm.trans hresolve)
  exact hless

namespace Configuration

variable {σ : Type} [RecordStore σ]

/-- Where a field is the last one with its id, rows that are sorted by this id first stand like the
values that the field reads. -/
theorem lt_of_order_lt {config : Configuration} {place : Nat} {field : SelectedField}
    (hlast : LastAt SelectedField.id config.fields place field) {more : List SortRule}
    (hsort : config.sortRules = .ascending field.id :: more) {settings : FormatSettings} {store : σ}
    {scope : Scope} {i j : Nat} {ra rb a b : Json}
    (hra : (config.sortedRecords settings store scope)[i]? = some ra)
    (hrb : (config.sortedRecords settings store scope)[j]? = some rb)
    (ha : field.valueIn? ra = some a) (hb : field.valueIn? rb = some b)
    (h : Json.order (some a) (some b) = .lt) : i < j := by
  have hvalue : ∀ {record value}, field.valueIn? record = some value →
      (Row.project settings config.fields record).sortValue? field.id = some value := by
    intro record value hread
    rw [Row.sortValue?_project, hlast.findRev?_eq, Option.map_some, hread]
    rfl
  refine Row.lt_of_compare_eq_lt _ _ hra hrb ?_
  rw [hsort, Row.compare_cons, SortRule.compare, SortRule.ascending, hvalue ha, hvalue hb, h]
  rfl

/-- **Rows that are sorted by a field stand in the order of its filters, up to the kinds of the
values.**  In a report without grouping that is sorted upwards by the id of a field first, where no
later field has this id, let the field read `a` behind one row and `b` behind another, and let the
rule that the field has to be less than `b` accept the first record.  Then the first row stands
before the second one if `a` is a number, and if both are texts and `a` comes first as a text; so it
does for dates whose texts begin with their days in plain form.  If `a` is a text and `b` is a number
it stands after it. -/
theorem rows_ordered_like_filter {config : Configuration} (hgrouping : config.grouping = none)
    {place : Nat} {field : SelectedField}
    (hlast : LastAt SelectedField.id config.fields place field) {more : List SortRule}
    (hsort : config.sortRules = .ascending field.id :: more) (settings : FormatSettings) (store : σ)
    (scope : Scope) :
    ∃ records : List Json, records.Perm (config.reported store scope) ∧
      config.rows settings store scope = records.map (Row.project settings config.fields) ∧
      ∀ (i j : Nat) (ra rb a b : Json), records[i]? = some ra → records[j]? = some rb →
        field.valueIn? ra = some a → field.valueIn? rb = some b →
        ∀ (id : String) (combination : LogicalOperator),
          (FilterRule.below id field combination b).accepts ra = true →
          (∀ n, a = .num n → i < j) ∧
          (∀ s t, a = .str s → b = .str t → s < t → i < j) ∧
          (∀ s t, a = .str s → b = .str t → field.type = .date → Json.BeginsWithDay s →
            Json.BeginsWithDay t → i < j) ∧
          (∀ s n, a = .str s → b = .num n → j < i) := by
  refine ⟨config.sortedRecords settings store scope, Row.sortBy_perm _ _ _,
    rows_eq_map hgrouping settings store scope, ?_⟩
  intro i j ra rb a b hra hrb ha hb id combination haccepts
  have hless := SelectedField.orderAs?_of_below ha haccepts
  refine ⟨?_, ?_, ?_, ?_⟩
  · rintro n rfl
    exact lt_of_order_lt hlast hsort hra hrb ha hb (Json.order_of_number_lt hless)
  · rintro s t rfl rfl hbefore
    exact lt_of_order_lt hlast hsort hra hrb ha hb (Json.order_texts_lt hbefore)
  · rintro s t rfl rfl hdate hs ht
    rw [hdate] at hless
    exact lt_of_order_lt hlast hsort hra hrb ha hb
      (Json.order_texts_lt (Json.text_lt_of_days hs ht hless))
  · rintro s n rfl rfl
    exact lt_of_order_lt hlast hsort hrb hra hb ha rfl

/-- The theorem at a deal that was signed on a day and another one that was signed later at some time
of a day. -/
theorem rows_ordered_like_filter_signed :
    let deal (signed : String) : Json :=
      .obj [(sourceKey, .str "deals"), ("signedAt", .str signed)]
    let store : MemoryStore := MemoryStore.empty.extend (.builtIn .deals)
      [deal "2024-03-01T09:00:00Z", deal "2024-02-29"]
    let field : SelectedField := ⟨"signed", .builtIn .deals, "signedAt", "Signed", .date⟩
    let config := (make [.builtIn .deals] [field]).sort (.ascending "signed")
    let scope : Scope := .admin "u"
    config.grouping = none ∧ LastAt SelectedField.id config.fields 0 field ∧
    config.sortRules = [.ascending field.id] ∧
    ∃ records : List Json, records.Perm [deal "2024-03-01T09:00:00Z", deal "2024-02-29"] ∧
      config.rows .default store scope = records.map (Row.project .default config.fields) ∧
      ∀ i j : Nat, records[i]? = some (deal "2024-02-29") →
        records[j]? = some (deal "2024-03-01T09:00:00Z") → i < j := by
  intro deal store field config scope
  have hlast : LastAt SelectedField.id config.fields 0 field := ⟨rfl, nofun⟩
  have hgrouping : config.grouping = none := rfl
  have hsort : config.sortRules = [.ascending field.id] := rfl
  refine ⟨hgrouping, hlast, hsort, ?_⟩
  obtain ⟨records, hperm, hrows, horder⟩ :=
    rows_ordered_like_filter hgrouping hlast hsort .default store scope
  refine ⟨records, hperm, hrows, ?_⟩
  intro i j hi hj
  have haccepts : (FilterRule.below "r" field .and (.str "2024-03-01T09:00:00Z")).accepts
      (deal "2024-02-29") = true := by decide +kernel
  have hday : Json.BeginsWithDay "2024-02-29" :=
    ⟨⟨19782, by decide, by decide⟩, by decide +kernel, by decide, by decide, by decide +kernel⟩
  have hday' : Json.BeginsWithDay "2024-03-01T09:00:00Z" :=
    ⟨⟨19783, by decide, by decide⟩, by decide +kernel, by decide, by decide, by decide +kernel⟩
  have hread : ∀ signed, field.valueIn? (deal signed) = some (.str signed) := by
    intro signed
    have hsource : (deal signed).source? = some field.source := rfl
    have hresolve : (deal signed).resolve? field.path = some (.str signed) := by
      rw [Json.resolve?_eq_get? (by decide) (by decide)]
      rfl
    simp only [SelectedField.valueIn?, hsource, if_pos, hresolve]
  exact (horder i j _ _ _ _ hi hj (hread _) (hread _) "r" .and haccepts).2.2.1 _ _ rfl rfl rfl
    hday hday'

/-- Rows whose records stand in order are not moved. -/
theorem rows_eq_of_ordered {config : Configuration} (hgrouping : config.grouping = none)
    {settings : FormatSettings} {store : σ} {scope : Scope}
    (hordered : (config.reported store scope).Pairwise fun a b =>
      Row.precedes config.sortRules (Row.project settings config.fields a)
        (Row.project settings config.fields b) = true) :
    config.rows settings store scope
      = (config.reported store scope).map (Row.project settings config.fields) := by
  rw [rows_eq_map hgrouping]
  exact congrArg _ (List.mergeSort_of_pairwise hordered)

/-- A column of prices in which 10 is a number and 100 and 9 are texts stands in this order, although
a filter finds 9 less than both of the others.  Prices alone stand in the order of the names if the
field of the names comes later and has their id. -/
theorem rows_not_ordered_by_size :
    let deal (name : String) (price : Json) : Json :=
      .obj [(sourceKey, .str "deals"), ("name", .str name), ("price", price)]
    let deals := [deal "a" (.ofNat 10), deal "b" (.str "100"), deal "c" (.str "9")]
    let numbers := [deal "a" (.ofNat 10), deal "b" (.ofNat 9)]
    let price : SelectedField := ⟨"price", .builtIn .deals, "price", "Price", .number⟩
    let name : SelectedField := ⟨"price", .builtIn .deals, "name", "Name", .text⟩
    let config (fields : List SelectedField) :=
      (make [.builtIn .deals] fields).sort (.ascending "price")
    let store (records : List Json) : MemoryStore :=
      MemoryStore.empty.extend (.builtIn .deals) records
    let scope : Scope := .admin "u"
    ((config [price]).rows .default (store deals) scope
        = deals.map (Row.project .default [price]) ∧
      (FilterRule.below "r" price .and (.ofNat 10)).accepts (deal "c" (.str "9")) = true ∧
      (FilterRule.below "r" price .and (.str "100")).accepts (deal "c" (.str "9")) = true) ∧
    ((config [price, name]).rows .default (store numbers) scope
        = numbers.map (Row.project .default [price, name]) ∧
      (FilterRule.below "r" price .and (.ofNat 10)).accepts (deal "b" (.ofNat 9)) = true) := by
  intro deal deals numbers price name config store scope
  refine ⟨⟨?_, by decide +kernel, by decide +kernel⟩, ?_, by decide +kernel⟩
  · have hgrouping : (config [price]).grouping = none := rfl
    exact rows_eq_of_ordered hgrouping (by decide +kernel)
  · have hgrouping : (config [price, name]).grouping = none := rfl
    exact rows_eq_of_ordered hgrouping (by decide +kernel)

end Configuration

end Reporting
