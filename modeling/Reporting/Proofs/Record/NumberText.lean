import Reporting.Filter.Match
import Reporting.Proofs.Binary64.WholeText
import Reporting.Proofs.Grouping.Key

/-!
# The text of a number

One number can be kept as an integer and as a binary64 number, and a computed number is turned from
the second kind into the first below some bound.  The text does not tell the kinds apart
(`Json.number_text`): up to `2 ^ 53` in size an integer has the text of the binary64 number with its
value, so the two are equal as texts and belong to the same groups, and the cell of a computed number
has the value of the number and the text that is computed from it.
-/

namespace Reporting

/-- The exact value of a number of either kind, in the units of binary64 values. -/
def Number.value : Number → Int
  | .whole n => n.val * Binary64.one
  | .real x => x.value

namespace Json

/-- Two values have one text wherever a text is read: in the key of a group, and where values are
compared as texts, on either side. -/
structure SameText (a b : Json) : Prop where
  text : a.textView = b.textView
  segment : ∀ {record other : Json} {path place : String}, record.resolve? path = some a →
    other.resolve? place = some b → Grouping.textAt record path = Grouping.textAt other place
  equal : a.equalAs .text b = true
  value : ∀ target, a.equalAs .text target = b.equalAs .text target
  target : ∀ value : Json, value.equalAs .text a = value.equalAs .text b

/-- Groups and comparisons read nothing but the text. -/
theorem SameText.of_textView {a b : Json} (h : a.textView = b.textView) : SameText a b where
  text := h
  segment ha hb := by
    rw [Grouping.textAt_of_resolve? ha, Grouping.textAt_of_resolve? hb, h]
  equal := by
    unfold equalAs
    rw [h, beq_self_eq_true]
  value target := by
    unfold equalAs
    rw [h]
  target value := by
    unfold equalAs
    rw [h]

/-- **An integer and a binary64 number of its value have the same text** up to `2 ^ 53` in size,
whatever the sign of a zero. -/
theorem textView_whole_eq_real {n : Whole} {x : Binary64} (hn : n.val.natAbs ≤ powTwo 53)
    (hx : x.value = n.val * Binary64.one) :
    (num (.whole n)).textView = (num (.real x)).textView := by
  obtain ⟨hwhole, htruncate⟩ := Binary64.isWhole_of_value hx
  have hbound : x.truncate.natAbs ≤ powTwo 53 := htruncate ▸ hn
  have htext := Extended.displayChars_whole hwhole hbound
  rw [htruncate] at htext
  simp only [textView, htext]

/-- **The cell of a computed number** is a number of the same value, and its text is the one computed
from the number. -/
theorem ofExtended_text (x : Binary64) :
    ∃ number, ofExtended (.finite x) = .num number ∧ number.value = x.value ∧
      (num number).textView = String.ofList (Extended.finite x).displayChars := by
  rcases ofExtended_finite x with ⟨n, hcell, hn, hwhole, hbound⟩ | hcell
  · have hvalue : x.value = n.val * Binary64.one := by
      rw [hn]
      exact Binary64.value_eq_truncate_mul hwhole
    exact ⟨.whole n, hcell, hvalue.symm, textView_whole_eq_real (hn ▸ hbound) hvalue⟩
  · exact ⟨.real x, hcell, rfl, rfl⟩

/-- **The text of a number does not depend on its kind.**  Up to `2 ^ 53` in size, every integer is
the value of a binary64 number, and each number of this value has the integer's text.  The cell of a
computed number has the number's value and text, for every finite number. -/
theorem number_text :
    (∀ n : Whole, n.val.natAbs ≤ powTwo 53 →
      (∃ x : Binary64, x.value = n.val * Binary64.one) ∧
      ∀ x : Binary64, x.value = n.val * Binary64.one →
        SameText (num (.whole n)) (num (.real x))) ∧
    ∀ x : Binary64, ∃ number, ofExtended (.finite x) = .num number ∧ number.value = x.value ∧
      (num number).textView = String.ofList (Extended.finite x).displayChars := by
  refine ⟨fun n hn => ⟨⟨n.toBinary64, Binary64.value_ofInt n.natAbs_le hn⟩, fun x hx => ?_⟩,
    ofExtended_text⟩
  exact .of_textView (textView_whole_eq_real hn hx)

/-- At the bound, where the digits come from the shortest decimal, and at a zero with a sign. -/
theorem number_text_at_bound :
    (num (.real (Binary64.ofInt (-9007199254740992) (by decide)))).textView = "-9007199254740992" ∧
      SameText (num (.whole ⟨0, by decide, by decide⟩)) (num (.real (Binary64.zero true))) ∧
      (num (.real (Binary64.zero true))).textView = "0" := by
  have hbound := (number_text.1 ⟨-9007199254740992, by decide, by decide⟩ (by decide)).2 _
    (Binary64.value_ofInt (by decide) (by decide))
  have hzero := (number_text.1 ⟨0, by decide, by decide⟩ (by decide)).2 (Binary64.zero true)
    (by simp [Binary64.value, Binary64.zero])
  exact ⟨hbound.text.symm.trans (by decide), hzero, hzero.text.symm.trans (by decide)⟩

end Json

end Reporting
