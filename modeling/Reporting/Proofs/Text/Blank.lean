import Mathlib.Data.List.Infix
import Mathlib.Data.List.TakeWhile
import Reporting.Proofs.Text.Numeral
import Reporting.Text.Blank

/-!
# What trimming leaves

Trimming takes blanks from the ends of a text and nothing else: what is not blank stays
(`mem_trim_of_not_blank`), and behind a body that neither starts nor ends with a blank nothing is
taken, so what stands in front of it is trimmed at its start only (`trim_append`).
-/

namespace Reporting.Text

theorem mem_trimStart_of_not_blank {cs : List Char} {c : Char} (h : c ∈ cs)
    (hc : isBlank c = false) : c ∈ trimStart cs := by
  unfold trimStart
  rw [← List.takeWhile_append_dropWhile (p := isBlank) (l := cs)] at h
  rcases List.mem_append.mp h with hdropped | hkept
  · rw [List.mem_takeWhile_imp hdropped] at hc
    cases hc
  · exact hkept

/-- A character that is not blank stays. -/
theorem mem_trim_of_not_blank {cs : List Char} {c : Char} (h : c ∈ cs)
    (hc : isBlank c = false) : c ∈ trim cs := by
  have hstart := List.mem_reverse.mpr (mem_trimStart_of_not_blank h hc)
  exact List.mem_reverse.mpr (mem_trimStart_of_not_blank hstart hc)

/-- What is left stands together in the text. -/
theorem trim_infix (cs : List Char) : trim cs <:+: cs := by
  have hstart : trimStart cs <:+ cs := List.dropWhile_suffix isBlank
  have hend : trim cs <+: trimStart cs := by
    have hsuffix := List.dropWhile_suffix isBlank (l := (trimStart cs).reverse)
    simpa [trim, trimEnd] using List.reverse_prefix.mpr hsuffix
  exact hend.isInfix.trans hstart.isInfix

/-- A body starts and ends with characters that are not blank. -/
structure IsBody (cs : List Char) : Prop where
  ne_nil : cs ≠ []
  first : ∀ c ∈ cs.head?, isBlank c = false
  last : ∀ c ∈ cs.getLast?, isBlank c = false

theorem not_isBlank_of_isDigit {c : Char} (h : c.isDigit = true) : isBlank c = false := by
  have hrange := toNat_of_isDigit h
  by_contra hblank
  simp only [Bool.not_eq_false, isBlank, Bool.or_eq_true, Bool.and_eq_true, decide_eq_true_eq,
    beq_iff_eq] at hblank
  omega

theorem not_isDigit_of_isBlank {c : Char} (h : isBlank c = true) : c.isDigit = false := by
  by_contra hdigit
  rw [not_isBlank_of_isDigit (Bool.not_eq_false _ ▸ hdigit)] at h
  cases h

/-- A text without blanks is a body. -/
theorem isBody_of_forall_not_blank {cs : List Char} (hne : cs ≠ [])
    (h : ∀ c ∈ cs, isBlank c = false) : IsBody cs :=
  ⟨hne, fun c hc => h c (List.mem_of_mem_head? hc), fun c hc => h c (List.mem_of_getLast? hc)⟩

/-- Blanks in front of a body are taken, and nothing of the body. -/
theorem trimStart_append {body : List Char} (h : IsBody body) (front : List Char) :
    trimStart (front ++ body) = trimStart front ++ body := by
  have hbody : body.dropWhile isBlank = body := by
    cases body with
    | nil => rfl
    | cons c rest =>
        have hc : isBlank c = false := h.first c rfl
        simp [hc]
  unfold trimStart
  rw [List.dropWhile_append, hbody]
  split
  · rename_i hempty
    rw [List.isEmpty_iff.mp hempty, List.nil_append]
  · rfl

theorem trimEnd_append {body : List Char} (h : IsBody body) (front : List Char) :
    trimEnd (front ++ body) = front ++ body := by
  have hreverse : (front ++ body).reverse.dropWhile isBlank = (front ++ body).reverse := by
    rw [List.reverse_append]
    cases hend : body.reverse with
    | nil => exact absurd (List.reverse_eq_nil_iff.mp hend) h.ne_nil
    | cons c rest =>
        have hc : isBlank c = false := h.last c (by rw [← List.head?_reverse, hend]; rfl)
        simp [hc]
  unfold trimEnd
  rw [hreverse, List.reverse_reverse]

/-- **In front of a body a text is trimmed at its start only.** -/
theorem trim_append {body : List Char} (h : IsBody body) (front : List Char) :
    trim (front ++ body) = trimStart front ++ body := by
  unfold trim
  rw [trimStart_append h, trimEnd_append h]

theorem trim_of_isBody {body : List Char} (h : IsBody body) : trim body = body :=
  trim_append h []

end Reporting.Text
