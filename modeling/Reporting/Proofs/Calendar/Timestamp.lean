import Reporting.Calendar.Instant
import Reporting.Proofs.Calendar.Plain
import Reporting.Proofs.Text.Numeral

/-!
# Dates of timestamps are read back

A day with a time of day is no plain date, as something follows the day.  With a zone behind it, it
is read as a timestamp (`Date.read?_timestamp`), and without one as a date-time
(`Date.read?_dateTime`), since a timestamp needs a zone.  So none of the three forms takes a text
that is meant for a later one, and the date is the one that was written.
-/

namespace Reporting

namespace Calendar

/-- What may stand behind the seconds of a time of day: nothing, or digits after a point. -/
def IsFraction (cs : List Char) : Prop :=
  cs = [] ∨ ∃ ds, ds ≠ [] ∧ (∀ c ∈ ds, c.isDigit = true) ∧ cs = '.' :: ds

/-- The texts of the zone of universal time. -/
def universalZones : List (List Char) :=
  ["Z".toList, "z".toList, "+00:00".toList, "-00:00".toList]

/-- A day and a time of day in front of the rest of a text. -/
def dateTimeChars (civil : Civil) (hour minute second : Nat) (rest : List Char) : List Char :=
  yearChars civil.year ++ '-' :: (Text.zeroPadded 2 civil.month
    ++ '-' :: (Text.zeroPadded 2 civil.day
    ++ 'T' :: (Text.zeroPadded 2 hour
    ++ ':' :: (Text.zeroPadded 2 minute
    ++ ':' :: (Text.zeroPadded 2 second ++ rest)))))

/-- A number that fills its places is read back. -/
theorem exactNumber?_zeroPadded {width n : Nat} {rest : List Char} (hwidth : 0 < width)
    (h : n < Nat.pow 10 width) :
    exactNumber? width (Text.zeroPadded width n ++ rest) = some (n, rest) := by
  have hlength := Text.length_zeroPadded hwidth h
  have hspan : Text.spanDigitsUpTo width (Text.zeroPadded width n ++ rest)
      = (Text.zeroPadded width n, rest) :=
    Text.spanDigitsUpTo_append (fun c hc => Text.isDigit_of_mem_zeroPadded hc) hlength.le
      (.inl hlength)
  unfold exactNumber?
  rw [hspan]
  simp [hlength, Text.numeralValue_zeroPadded]

/-- A fraction is read in front of anything that does not continue it. -/
theorem exists_fraction? {fraction rest : List Char} (h : IsFraction fraction)
    (hrest : ∀ c ∈ rest.head?, c.isDigit = false ∧ c ≠ '.') :
    ∃ ds, fraction? (fraction ++ rest) = some (ds, rest) := by
  rcases h with rfl | ⟨ds, hne, hds, rfl⟩
  · refine ⟨[], ?_⟩
    rw [List.nil_append]
    unfold fraction?
    split
    · exact absurd rfl (hrest '.' rfl).2
    · rfl
  · refine ⟨ds, ?_⟩
    unfold fraction?
    simp [Text.spanDigits_append hds fun c hc => (hrest c hc).1, hne]

/-- A fraction has no blanks. -/
theorem IsFraction.not_isBlank {fraction : List Char} (h : IsFraction fraction) {c : Char}
    (hc : c ∈ fraction) : Text.isBlank c = false := by
  rcases h with rfl | ⟨ds, -, hds, rfl⟩
  · cases hc
  · rcases List.mem_cons.mp hc with rfl | hc
    · decide
    · exact Text.not_isBlank_of_isDigit (hds c hc)

theorem isFraction_fractionChars (nanosecond : Nat) :
    IsFraction (Instant.fractionChars nanosecond) := by
  have hdigits {width n : Nat} (hwidth : 0 < width) : IsFraction ('.' :: Text.zeroPadded width n) := by
    refine .inr ⟨_, ?_, fun c hc => Text.isDigit_of_mem_zeroPadded hc, rfl⟩
    exact List.ne_nil_of_length_pos (Nat.lt_of_lt_of_le hwidth (Text.le_length_zeroPadded width n))
  unfold Instant.fractionChars
  split
  · exact .inl rfl
  · split
    · exact hdigits (by decide)
    · split
      · exact hdigits (by decide)
      · exact hdigits (by decide)

/-- A zone of universal time is read to its end, and it starts with no digit and no point. -/
theorem zone?_of_mem {zone : List Char} (h : zone ∈ universalZones) :
    zone? zone = some [] ∧ ∀ c ∈ zone.head?, c.isDigit = false ∧ c ≠ '.' := by
  simp only [universalZones, List.mem_cons, List.not_mem_nil, or_false] at h
  rcases h with rfl | rfl | rfl | rfl
  all_goals
    refine ⟨rfl, fun c hc => ?_⟩
    obtain rfl := Option.some.inj hc
    exact ⟨rfl, by decide⟩

theorem zone_not_isBlank {zone : List Char} (h : zone ∈ universalZones) :
    ∀ c ∈ zone, Text.isBlank c = false := by
  have hall : (universalZones.all fun zone => zone.all fun c => !Text.isBlank c) = true := by decide
  intro c hc
  simpa using List.all_eq_true.mp (List.all_eq_true.mp hall zone h) c hc

/-- A day with a time of day has no blanks if the rest of the text has none. -/
theorem isBody_dateTimeChars {civil : Civil} {hour minute second : Nat} {rest : List Char}
    (hrest : ∀ c ∈ rest, Text.isBlank c = false) :
    Text.IsBody (dateTimeChars civil hour minute second rest) := by
  refine Text.isBody_of_forall_not_blank (by simp [dateTimeChars]) fun c hc => ?_
  have hdigits {n : Nat} (h : c ∈ Text.zeroPadded 2 n) : Text.isBlank c = false :=
    Text.not_isBlank_of_isDigit (Text.isDigit_of_mem_zeroPadded h)
  unfold dateTimeChars at hc
  simp only [List.mem_append, List.mem_cons] at hc
  rcases hc with hyear | rfl | hmonth | rfl | hday | rfl | hhour | rfl | hminute | rfl | hsecond | hc
  · exact not_isBlank_of_mem_yearChars hyear
  · decide
  · exact hdigits hmonth
  · decide
  · exact hdigits hday
  · decide
  · exact hdigits hhour
  · decide
  · exact hdigits hminute
  · decide
  · exact hdigits hsecond
  · exact hrest c hc

/-- A timestamp is read part by part. -/
theorem timestamp?_of_parts {cs cs₁ cs₂ cs₃ cs₄ cs₅ cs₆ ds rest : List Char}
    {year month day hour minute second : Nat} (hyear : exactNumber? 4 cs = some (year, '-' :: cs₁))
    (hmonth : exactNumber? 2 cs₁ = some (month, '-' :: cs₂))
    (hday : exactNumber? 2 cs₂ = some (day, 'T' :: cs₃))
    (hhour : exactNumber? 2 cs₃ = some (hour, ':' :: cs₄))
    (hminute : exactNumber? 2 cs₄ = some (minute, ':' :: cs₅))
    (hsecond : exactNumber? 2 cs₅ = some (second, cs₆)) (hfraction : fraction? cs₆ = some (ds, rest)) :
    timestamp? cs = (zone? rest).bind fun rest =>
      if isTime hour minute second && rest.isEmpty then Date.ofCivil? ⟨year, month, day⟩
      else none := by
  unfold timestamp?
  rw [hyear]
  show (exactNumber? 2 cs₁).bind _ = _
  rw [hmonth]
  show (exactNumber? 2 cs₂).bind _ = _
  rw [hday]
  show (exactNumber? 2 cs₃).bind _ = _
  rw [hhour]
  show (exactNumber? 2 cs₄).bind _ = _
  rw [hminute]
  show (exactNumber? 2 cs₅).bind _ = _
  rw [hsecond]
  show (fraction? cs₆).bind _ = _
  rw [hfraction]
  rfl

section DateTime

variable {civil : Civil} (hvalid : civil.isValid = true) {hour minute second : Nat}
  (htime : isTime hour minute second = true) {fraction : List Char} (hfraction : IsFraction fraction)

section
include hvalid

/-- The day is read, and the time of day is left. -/
theorem civil?_dateTimeChars (rest : List Char) :
    civil? (dateTimeChars civil hour minute second rest)
      = some (civil, 'T' :: (Text.zeroPadded 2 hour ++ ':' :: (Text.zeroPadded 2 minute
          ++ ':' :: (Text.zeroPadded 2 second ++ rest)))) := by
  have hbounds := Civil.le_of_isValid hvalid
  have hmonth : civil.month < 100 := by omega
  have hday : civil.day < 100 := by omega
  unfold civil? dateTimeChars
  simp [year?_yearChars, char?, part?_zeroPadded hmonth, part?_zeroPadded hday]

/-- A day with a time of day is no plain date. -/
theorem plainDate?_dateTimeChars (rest : List Char) :
    plainDate? (dateTimeChars civil hour minute second rest) = none := by
  unfold plainDate?
  rw [civil?_dateTimeChars hvalid]
  rfl

include htime hfraction

/-- **A day with a time of day is the date-time of this day.** -/
theorem dateTime?_dateTimeChars :
    dateTime? (dateTimeChars civil hour minute second fraction) = Date.ofCivil? civil := by
  have hend : ∀ c ∈ ([] : List Char).head?, c.isDigit = false ∧ c ≠ '.' := by simp
  obtain ⟨ds, hds⟩ := exists_fraction? hfraction hend
  rw [List.append_nil] at hds
  have hranges := htime
  simp only [isTime, Bool.and_eq_true, decide_eq_true_eq] at hranges
  have hhour : hour < 100 := by omega
  have hminute : minute < 100 := by omega
  have hsecond : second < 100 := by omega
  unfold dateTime?
  rw [civil?_dateTimeChars hvalid]
  simp [char?, part?_zeroPadded hhour, part?_zeroPadded hminute, part?_zeroPadded hsecond, hds, htime]

end

section Timestamp

variable (hyear : 0 ≤ civil.year ∧ civil.year ≤ 9999)
include hvalid htime hfraction hyear

/-- A timestamp is read up to its zone. -/
theorem timestamp?_dateTimeChars {zone : List Char}
    (hzone : ∀ c ∈ zone.head?, c.isDigit = false ∧ c ≠ '.') :
    timestamp? (dateTimeChars civil hour minute second (fraction ++ zone))
      = (zone? zone).bind fun rest =>
          if rest.isEmpty then Date.ofCivil? civil else none := by
  obtain ⟨ds, hds⟩ := exists_fraction? hfraction hzone
  have hbounds := Civil.le_of_isValid hvalid
  have hranges := htime
  simp only [isTime, Bool.and_eq_true, decide_eq_true_eq] at hranges
  have hpow : Nat.pow 10 2 = 100 := rfl
  have htwo {n : Nat} {rest : List Char} (h : n < 100) :
      exactNumber? 2 (Text.zeroPadded 2 n ++ rest) = some (n, rest) :=
    exactNumber?_zeroPadded (by decide) (hpow ▸ h)
  have hfour {rest : List Char} :
      exactNumber? 4 (Text.zeroPadded 4 civil.year.natAbs ++ rest) = some (civil.year.natAbs, rest) :=
    exactNumber?_zeroPadded (by decide) (show civil.year.natAbs < 10000 by omega)
  have habs : (civil.year.natAbs : Int) = civil.year := Int.natAbs_of_nonneg hyear.1
  have hmonth : civil.month < 100 := by omega
  have hday : civil.day < 100 := by omega
  have hhour : hour < 100 := by omega
  have hminute : minute < 100 := by omega
  have hsecond : second < 100 := by omega
  unfold dateTimeChars yearChars
  rw [if_pos hyear, timestamp?_of_parts hfour (htwo hmonth) (htwo hday) (htwo hhour) (htwo hminute)
    (htwo hsecond) hds]
  simp only [htime, habs, Bool.true_and]

end Timestamp

end DateTime

end Calendar

namespace Date

open Calendar

section Reading

variable {d : Date} {hour minute second : Nat} (htime : isTime hour minute second = true)
  {fraction : List Char} (hfraction : IsFraction fraction)
  (hyear : 0 ≤ d.civil.year ∧ d.civil.year ≤ 9999)
include htime hfraction hyear

/-- **A date is read back from a timestamp in universal time.** -/
theorem read?_timestamp {zone : List Char} (hzone : zone ∈ universalZones) :
    read? (dateTimeChars d.civil hour minute second (fraction ++ zone)) = some d := by
  have hvalid : d.civil.isValid = true := Civil.isValid_ofDayNumber d.dayNumber
  obtain ⟨hread, hstart⟩ := zone?_of_mem hzone
  have htimestamp := timestamp?_dateTimeChars hvalid htime hfraction hyear hstart
  rw [hread] at htimestamp
  unfold read?
  rw [plainDate?_dateTimeChars hvalid, htimestamp]
  show (ofCivil? d.civil <|> _) = _
  rw [ofCivil?_civil]
  rfl

/-- **A date is read back from a date-time without a zone.** -/
theorem read?_dateTime :
    read? (dateTimeChars d.civil hour minute second fraction) = some d := by
  have hvalid : d.civil.isValid = true := Civil.isValid_ofDayNumber d.dayNumber
  have hend : ∀ c ∈ ([] : List Char).head?, c.isDigit = false ∧ c ≠ '.' := by simp
  have htimestamp := timestamp?_dateTimeChars hvalid htime hfraction hyear hend
  rw [List.append_nil] at htimestamp
  unfold read?
  rw [plainDate?_dateTimeChars hvalid, htimestamp, dateTime?_dateTimeChars hvalid htime hfraction,
    ofCivil?_civil]
  rfl

end Reading

end Date

end Reporting
