import Reporting.Display
import Reporting.Proofs.Calendar.Counting
import Reporting.Proofs.Calendar.Timestamp
import Reporting.Proofs.Filter.Algebra
import Reporting.Proofs.Record.View

/-!
# The encodings of a moment

A moment is kept as a number of milliseconds, as a timestamp or a date-time in universal time, or as
the plain form of its day.  The date view of each is the day of the moment, counted from 1970 in
whole days also before that year, so filters on a date field take the encodings for one another
(`Json.dateView_encodings`).
-/

namespace Reporting

namespace Instant

/-- A moment in universal time down to its second, in front of the rest of a text. -/
def dateTimeChars (t : Instant) (rest : List Char) : List Char :=
  let time := (t.second % 86400).toNat
  Calendar.dateTimeChars (Civil.ofDayNumber (t.second / 86400)) (time / 3600) (time / 60 % 60)
    (time % 60) rest

/-- The time of day of a moment is one that there is. -/
theorem isTime_second (second : Int) :
    Calendar.isTime ((second % 86400).toNat / 3600) ((second % 86400).toNat / 60 % 60)
      ((second % 86400).toNat % 60) = true := by
  simp only [Calendar.isTime, Bool.and_eq_true, decide_eq_true_eq]
  omega

/-- The timestamp of a moment counted in milliseconds is its date-time with a fraction and a zone. -/
theorem chars_ofMilliseconds (n : Int) :
    (ofMilliseconds n).chars = (ofMilliseconds n).dateTimeChars
      (fractionChars (ofMilliseconds n).nanosecond ++ "Z".toList) := by
  have hnano : (ofMilliseconds n).nanosecond < 1000000000 := by
    show (n % 1000).toNat * 1000000 < 1000000000
    omega
  unfold chars dateTimeChars Calendar.dateTimeChars
  simp only [if_neg (Nat.not_le.mpr hnano), Nat.add_zero, Nat.mod_eq_of_lt hnano]
  rfl

end Instant

/-- The day of a moment counted in milliseconds is the one of its second. -/
theorem Date.civil_eq_of_milliseconds {n : Int} {d : Date}
    (h : d.dayNumber = n / Date.millisecondsPerDay) :
    d.civil = Civil.ofDayNumber ((Instant.ofMilliseconds n).second / 86400) := by
  have hday : d.dayNumber = (Instant.ofMilliseconds n).second / 86400 := by
    rw [h]
    show n / 86400000 = n / 1000 / 86400
    omega
  rw [Date.civil, hday]

namespace Json

/-- The encodings of a moment that is counted in milliseconds and lies on a date: the number, the
plain form of the date, also where it stands for a pattern without a text, and with a year of four
digits the timestamp and the date-time, with the digits of any fraction of the second. -/
inductive EncodesMoment (n : Whole) (d : Date) : Json → Prop
  | milliseconds : EncodesMoment n d (.num (.whole n))
  | plain : EncodesMoment n d (.str (String.ofList d.isoChars))
  | fallback (settings : FormatSettings) (hpattern : Pattern.render? settings.dateFormat d = none) :
      EncodesMoment n d (.str (String.ofList (settings.date d)))
  | timestamp (hyear : 0 ≤ d.civil.year ∧ d.civil.year ≤ 9999) {fraction zone : List Char}
      (hfraction : Calendar.IsFraction fraction) (hzone : zone ∈ Calendar.universalZones) :
      EncodesMoment n d
        (.str (String.ofList ((Instant.ofMilliseconds n.val).dateTimeChars (fraction ++ zone))))
  | dateTime (hyear : 0 ≤ d.civil.year ∧ d.civil.year ≤ 9999) {fraction : List Char}
      (hfraction : Calendar.IsFraction fraction) :
      EncodesMoment n d
        (.str (String.ofList ((Instant.ofMilliseconds n.val).dateTimeChars fraction)))

/-! ## The date view -/

/-- **Every encoding of a moment has the date of the moment.** -/
theorem EncodesMoment.dateView_eq {n : Whole} {d : Date} {value : Json}
    (h : EncodesMoment n d value) (hdate : (num (.whole n)).dateView = some d) :
    value.dateView = some d := by
  have hcivil := Date.civil_eq_of_milliseconds (exact_of_dateView hdate).2
  have htime := Instant.isTime_second (Instant.ofMilliseconds n.val).second
  have hplain : (str (String.ofList d.isoChars)).dateView = some d := by
    rw [dateView_ofList, Text.trim_of_isBody d.isBody_isoChars, d.read?_isoChars]
  cases h with
  | milliseconds => exact hdate
  | plain => exact hplain
  | fallback settings hpattern =>
      unfold FormatSettings.date
      rw [hpattern]
      exact hplain
  | @timestamp hyear fraction zone hfraction hzone =>
      have hrest : ∀ c ∈ fraction ++ zone, Text.isBlank c = false := fun c hc =>
        (List.mem_append.mp hc).elim hfraction.not_isBlank (Calendar.zone_not_isBlank hzone c)
      unfold Instant.dateTimeChars
      rw [dateView_ofList, ← hcivil, Text.trim_of_isBody (Calendar.isBody_dateTimeChars hrest)]
      exact Date.read?_timestamp htime hfraction hyear hzone
  | @dateTime hyear fraction hfraction =>
      unfold Instant.dateTimeChars
      rw [dateView_ofList, ← hcivil, Text.trim_of_isBody
        (Calendar.isBody_dateTimeChars fun c => hfraction.not_isBlank)]
      exact Date.read?_dateTime htime hfraction hyear

/-- Dates are in the order of the milliseconds. -/
theorem compare_ne_gt_of_le {m n : Whole} {d e : Date} (hm : (num (.whole m)).dateView = some d)
    (hn : (num (.whole n)).dateView = some e) (h : m.val ≤ n.val) : d.compare e ≠ .gt := by
  have hdays : m.val / Date.millisecondsPerDay ≤ n.val / Date.millisecondsPerDay :=
    Int.ediv_le_ediv (by decide) h
  rw [← (exact_of_dateView hm).2, ← (exact_of_dateView hn).2] at hdays
  unfold Date.compare
  rw [Ne, Int.compare_eq_gt]
  exact Int.not_lt.mpr hdays

/-! ## Filters on dates -/

/-- Filters on a date field take two values for one another: as the value of a record, as a target,
and as either end of a range. -/
structure SameDate (a b : Json) : Prop where
  value : ∀ {rule : FilterRule} {operator : FilterOperator} {record other : Json},
    rule.fieldType = .date → operator.isValidFor .date = true →
    record.resolve? rule.field = some a → other.resolve? rule.field = some b →
      ∀ target, rule.ask operator target record = rule.ask operator target other
  target : ∀ {rule : FilterRule} {operator : FilterOperator},
    rule.fieldType = .date → operator.isValidFor .date = true →
      ∀ record, rule.ask operator a record = rule.ask operator b record
  low : ∀ {rule : FilterRule}, rule.fieldType = .date →
    ∀ high record, rule.ask .between (.arr [a, high]) record
      = rule.ask .between (.arr [b, high]) record
  high : ∀ {rule : FilterRule}, rule.fieldType = .date →
    ∀ low record, rule.ask .between (.arr [low, a]) record
      = rule.ask .between (.arr [low, b]) record

/-- A question on a date field reads the date view of the value. -/
theorem acceptsValue_eq_of_dateView {rule : FilterRule} (hdate : rule.fieldType = .date)
    (hvalid : rule.operator.isValidFor .date = true) {a b : Json} (h : a.dateView = b.dateView) :
    rule.acceptsValue a = rule.acceptsValue b := by
  have hequal (target : Json) : a.equalAs .date target = b.equalAs .date target := by
    simp only [equalAs, h]
  have horder (target : Json) : a.orderAs? .date target = b.orderAs? .date target := by
    simp only [orderAs?, h]
  cases hoperator : rule.operator
  case contains | notContains | startsWith | endsWith | oneOf =>
    rw [hoperator] at hvalid
    exact absurd hvalid (by decide)
  all_goals
    simp only [FilterRule.acceptsValue, hoperator, atLeast, atMost, hdate, hequal, horder]

/-- A question on a date field reads the date view of its target. -/
theorem ask_eq_of_dateView {rule : FilterRule} {operator : FilterOperator}
    (hdate : rule.fieldType = .date) (hvalid : operator.isValidFor .date = true) {a b : Json} {d : Date}
    (ha : a.dateView = some d) (hb : b.dateView = some d) (record : Json) :
    rule.ask operator a record = rule.ask operator b record := by
  have hequal (value : Json) : value.equalAs .date a = value.equalAs .date b := by
    simp only [equalAs, ha, hb]
  have horder (value : Json) : value.orderAs? .date a = value.orderAs? .date b := by
    simp only [orderAs?, ha, hb]
  cases hvalue : record.resolvePresent? rule.field with
  | none => simp only [FilterRule.ask, FilterRule.accepts, hvalue]
  | some value =>
      rw [FilterRule.ask_of_present hvalue, FilterRule.ask_of_present hvalue]
      cases operator
      case contains | notContains | startsWith | endsWith | oneOf => exact absurd hvalid (by decide)
      -- A date is no pair, so it is no range.
      case between =>
        have hrange {target : Json} (htarget : target.dateView = some d) :
            ({ rule with operator := .between, target := target } : FilterRule).acceptsValue value
              = false := by
          cases target with
          | num n => rfl
          | str s => rfl
          | _ => cases htarget
        exact (hrange ha).trans (hrange hb).symm
      all_goals simp only [FilterRule.acceptsValue, atLeast, atMost, hdate, hequal, horder]

/-- **Filters on a date field read nothing but the date view.** -/
theorem SameDate.of_dateView {a b : Json} {d : Date} (ha : a.dateView = some d)
    (hb : b.dateView = some d) : SameDate a b where
  value := by
    intro rule operator record other hdate hvalid hrecord hother target
    have hnull {value : Json} (h : value.dateView = some d) : value ≠ .null := by
      rintro rfl
      cases h
    rw [FilterRule.ask_of_present (resolvePresent?_eq_some hrecord (hnull ha)),
      FilterRule.ask_of_present (resolvePresent?_eq_some hother (hnull hb))]
    refine acceptsValue_eq_of_dateView ?_ ?_ (ha.trans hb.symm)
    · exact hdate
    · exact hvalid
  target hdate hvalid := ask_eq_of_dateView hdate hvalid ha hb
  low hdate high record := by
    rw [FilterRule.ask_between, FilterRule.ask_between,
      ask_eq_of_dateView hdate (by decide) ha hb record]
  high hdate low record := by
    rw [FilterRule.ask_between, FilterRule.ask_between,
      ask_eq_of_dateView hdate (by decide) ha hb record]

/-- **The encodings of a moment have one date.**  The date of a number of milliseconds is the day
that lies the number of whole days behind 1 January 1970, or before it, so dates are in the order of
the numbers.  Every encoding of the moment has this date; the timestamp that is written for the moment
is one of them.  Hence filters on a date field take any two encodings for one another. -/
theorem dateView_encodings {n : Whole} {d : Date} (hdate : (num (.whole n)).dateView = some d) :
    d.dayNumber = n.val / 86400000 ∧
      Civil.DaysBetween ⟨1970, 1, 1⟩ d.civil (n.val / 86400000) ∧
      (∀ later e, n.val ≤ later.val → (num (.whole later)).dateView = some e → d.compare e ≠ .gt) ∧
      (∀ value, EncodesMoment n d value → value.dateView = some d) ∧
      (0 ≤ d.civil.year ∧ d.civil.year ≤ 9999 →
        EncodesMoment n d (.str (String.ofList (Instant.ofMilliseconds n.val).chars))) ∧
      ∀ a b, EncodesMoment n d a → EncodesMoment n d b → SameDate a b := by
  have hday : d.dayNumber = n.val / 86400000 := (exact_of_dateView hdate).2
  have hviews : ∀ value, EncodesMoment n d value → value.dateView = some d :=
    fun value h => h.dateView_eq hdate
  refine ⟨hday, ?_, fun later e hle he => compare_ne_gt_of_le hdate he hle, hviews, fun hyear => ?_,
    fun a b ha hb => .of_dateView (hviews a ha) (hviews b hb)⟩
  · rw [← hday]
    exact Civil.daysBetween_ofDayNumber d.dayNumber
  · rw [Instant.chars_ofMilliseconds]
    exact .timestamp hyear (Calendar.isFraction_fractionChars _) (by decide)

/-- The last millisecond before 1970: its day is the one before the first, in all its encodings. -/
theorem dateView_encodings_before_epoch :
    Civil.DaysBetween ⟨1970, 1, 1⟩ ⟨1969, 12, 31⟩ (-1) ∧
      (str "1969-12-31T23:59:59.999Z").dateView = some ⟨-1, by decide, by decide⟩ ∧
      SameDate (num (.whole ⟨-1, by decide, by decide⟩)) (str "1969-12-31T23:59:59.999") := by
  have hdate : (num (.whole ⟨-1, by decide, by decide⟩)).dateView
      = some ⟨-1, by decide, by decide⟩ := by decide
  obtain ⟨-, hcount, -, hviews, htimestamp, hsame⟩ := dateView_encodings hdate
  have hwritten : String.ofList (Instant.ofMilliseconds (-1)).chars = "1969-12-31T23:59:59.999Z" := by
    decide
  have hlocal : String.ofList ((Instant.ofMilliseconds (-1)).dateTimeChars ".999".toList)
      = "1969-12-31T23:59:59.999" := by
    decide
  have hdigits : ∀ c ∈ "999".toList, c.isDigit = true := List.all_eq_true.mp rfl
  refine ⟨hcount, ?_, ?_⟩
  · rw [← hwritten]
    exact hviews _ (htimestamp (by decide))
  · rw [← hlocal]
    exact hsame _ _ .milliseconds (.dateTime (by decide) (.inr ⟨_, by decide, hdigits, rfl⟩))

end Json

end Reporting
