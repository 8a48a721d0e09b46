import Reporting.Proofs.Binary64.Whole

/-!
# What the views of a value read

The views of a text go over its characters between blanks.  The date view of a number is that of a
whole number of milliseconds, which is small enough to be a binary64 number
(`Json.exact_of_dateView`).
-/

namespace Reporting.Json

theorem numberView_ofList (cs : List Char) : (Json.str (String.ofList cs)).numberView
    = (Extended.read? (Text.trim cs)).bind Extended.finite? := by
  show (Extended.read? (Text.trim (String.ofList cs).toList)).bind Extended.finite? = _
  rw [String.toList_ofList]

theorem dateView_ofList (cs : List Char) :
    (Json.str (String.ofList cs)).dateView = Date.read? (Text.trim cs) := by
  show Date.read? (Text.trim (String.ofList cs).toList) = _
  rw [String.toList_ofList]

theorem truthView_ofList (cs : List Char) : (Json.str (String.ofList cs)).truthView =
    let word := Text.lowerAscii (Text.trim cs)
    if word = "true".toList ∨ word = "yes".toList then some true
    else if word = "false".toList ∨ word = "no".toList then some false
    else none := by
  conv =>
    rhs
    rw [← String.toList_ofList (l := cs)]
  rfl

/-- A whole number of milliseconds that has a date is not rounded, and the date is that of its
day. -/
theorem exact_of_dateView {n : Whole} {d : Date} (h : (Json.num (.whole n)).dateView = some d) :
    n.toBinary64.value = n.val * Binary64.one ∧ d.dayNumber = n.val / Date.millisecondsPerDay := by
  have hdate : Date.ofMilliseconds? n.val = some d := by
    unfold dateView at h
    dsimp only at h
    split at h
    · exact h
    · cases h
  unfold Date.ofMilliseconds? Date.ofDayNumber? at hdate
  split at hdate
  · rename_i hrange
    cases hdate
    have hday : Date.millisecondsPerDay = 86400000 := rfl
    have hpow : powTwo 53 = 9007199254740992 := rfl
    refine ⟨Binary64.value_ofInt _ ?_, rfl⟩
    rw [hday] at hrange
    omega
  · cases hdate

end Reporting.Json
