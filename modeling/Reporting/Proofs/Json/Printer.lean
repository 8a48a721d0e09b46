import Mathlib.Data.List.Basic
import Reporting.Json.Printer
import Reporting.Proofs.Binary64.Decimal

/-!
# Compact text stays on one line

The compact text of a value has no control characters: strings escape theirs, and everything else
is written with visible characters.  So it has no line feed and no carriage return, whatever the
strings of the value hold (`Json.noControl_chars`).  It is never blank either
(`Json.not_all_isBlank_chars`), since even the text of an empty string has its quotes.
-/

namespace Reporting

/-- No control character stands in a text. -/
def NoControl (cs : List Char) : Prop :=
  ∀ c ∈ cs, 0x20 ≤ c.toNat

/-- A visible character of ASCII. -/
def IsInk (c : Char) : Prop :=
  0x20 < c.toNat ∧ c.toNat < 0x7F

instance (c : Char) : Decidable (IsInk c) :=
  inferInstanceAs (Decidable (0x20 < c.toNat ∧ c.toNat < 0x7F))

@[simp] theorem noControl_nil : NoControl [] :=
  fun _ h => absurd h List.not_mem_nil

@[simp] theorem noControl_cons {c : Char} {cs : List Char} :
    NoControl (c :: cs) ↔ 0x20 ≤ c.toNat ∧ NoControl cs :=
  List.forall_mem_cons

@[simp] theorem noControl_append {cs ds : List Char} :
    NoControl (cs ++ ds) ↔ NoControl cs ∧ NoControl ds :=
  List.forall_mem_append

theorem noControl_of_ink {cs : List Char} (h : ∀ c ∈ cs, IsInk c) : NoControl cs :=
  fun c hc => Nat.le_of_lt (h c hc).1

theorem not_isBlank_of_ink {c : Char} (h : IsInk c) : Text.isBlank c = false := by
  obtain ⟨hlower, hupper⟩ := h
  simp only [Text.isBlank, Bool.or_eq_false_iff, Bool.and_eq_false_iff, decide_eq_false_iff_not,
    beq_eq_false_iff_ne]
  omega

/-- What numbers are written with is visible. -/
theorem isInk_of_isNumeral {c : Char} (h : Text.isNumeral c = true) : IsInk c := by
  simp only [Text.isNumeral, Bool.or_eq_true, beq_iff_eq] at h
  rcases h with ((((hdigit | rfl) | rfl) | rfl) | rfl) | rfl
  · have hrange := Text.toNat_of_isDigit hdigit
    unfold IsInk
    omega
  all_goals decide

/-! ## Numbers -/

/-- A positional decimal is made of digits and a point. -/
theorem Decimal.isDigit_or_point_of_mem_positional {d : Decimal} {c : Char}
    (h : c ∈ d.positional) : c.isDigit = true ∨ c = '.' := by
  have hzero : ∀ n, c ∈ List.replicate n '0' → c.isDigit = true := by
    intro n hmem
    rw [List.eq_of_mem_replicate hmem]
    rfl
  unfold positional at h
  simp only at h
  split at h
  · rcases List.mem_append.mp h with hdigit | hfill
    · exact .inl (Text.isDigit_of_mem_digits hdigit)
    · exact .inl (hzero _ hfill)
  · split at h
    · rcases List.mem_append.mp h with hwhole | hfraction
      · exact .inl (Text.isDigit_of_mem_digits (List.mem_of_mem_take hwhole))
      · rcases List.mem_cons.mp hfraction with hpoint | hdigit
        · exact .inr hpoint
        · exact .inl (Text.isDigit_of_mem_digits (List.mem_of_mem_drop hdigit))
    · rcases List.mem_cons.mp h with rfl | h
      · exact .inl rfl
      rcases List.mem_cons.mp h with hpoint | h
      · exact .inr hpoint
      rcases List.mem_append.mp h with hfill | hdigit
      · exact .inl (hzero _ hfill)
      · exact .inl (Text.isDigit_of_mem_digits hdigit)

theorem Text.isNumeral_of_mem_digits {n : Nat} {c : Char} (h : c ∈ digits n) :
    isNumeral c = true :=
  isNumeral_of_isDigit (isDigit_of_mem_digits h)

theorem Text.isNumeral_of_mem_signedDigits {n : Int} {c : Char} (h : c ∈ signedDigits n) :
    isNumeral c = true := by
  unfold signedDigits at h
  split at h
  · rcases List.mem_cons.mp h with rfl | hdigit
    · rfl
    · exact isNumeral_of_mem_digits hdigit
  · exact isNumeral_of_mem_digits h

theorem Decimal.isNumeral_of_mem_positional {d : Decimal} {c : Char} (h : c ∈ d.positional) :
    Text.isNumeral c = true := by
  rcases isDigit_or_point_of_mem_positional h with hdigit | rfl
  · exact Text.isNumeral_of_isDigit hdigit
  · rfl

theorem Decimal.positional_ne_nil (d : Decimal) : d.positional ≠ [] := by
  have hdigits : Text.digits d.coefficient ≠ [] := Nat.toDigits_ne_nil
  unfold positional
  simp only
  split
  · simp [hdigits]
  · split <;> simp

theorem Decimal.isNumeral_of_mem_jsonChars {d : Decimal} {c : Char} (h : c ∈ d.jsonChars) :
    Text.isNumeral c = true := by
  unfold jsonChars at h
  simp only at h
  split at h
  · split at h
    · rcases List.mem_append.mp h with hmem | hmem
      · exact isNumeral_of_mem_positional hmem
      · simp only [List.mem_cons, List.not_mem_nil, or_false] at hmem
        rcases hmem with rfl | rfl <;> rfl
    · exact isNumeral_of_mem_positional h
  · rcases List.mem_append.mp h with hmantissa | hexponent
    · have hdigits : ∀ x ∈ Text.digits d.coefficient, Text.isNumeral x = true :=
        fun x => Text.isNumeral_of_mem_digits
      split at hmantissa
      · rename_i first second rest hsplit
        rw [hsplit] at hdigits
        simp only [List.mem_cons] at hmantissa hdigits
        rcases hmantissa with rfl | rfl | hrest
        · exact hdigits _ (Or.inl rfl)
        · rfl
        · exact hdigits c (Or.inr hrest)
      · exact hdigits c hmantissa
    · rcases List.mem_cons.mp hexponent with rfl | hexponent
      · rfl
      rcases List.mem_cons.mp hexponent with rfl | hdigit
      · split <;> rfl
      · exact Text.isNumeral_of_mem_digits hdigit

theorem Decimal.jsonChars_ne_nil (d : Decimal) : d.jsonChars ≠ [] := by
  have hpositional := d.positional_ne_nil
  unfold jsonChars
  simp only
  split
  · split
    · simp
    · exact hpositional
  · simp

/-- A number is written with the characters of decimal notation. -/
theorem Number.isNumeral_of_mem_chars {n : Number} {c : Char} (h : c ∈ n.chars) :
    Text.isNumeral c = true := by
  cases n with
  | whole n => exact Text.isNumeral_of_mem_signedDigits h
  | real x =>
      rcases List.mem_append.mp h with hsign | hdecimal
      · split at hsign
        · obtain rfl := List.mem_singleton.mp hsign
          rfl
        · cases hsign
      · exact Decimal.isNumeral_of_mem_jsonChars hdecimal

theorem Number.isInk_of_mem_chars {n : Number} {c : Char} (h : c ∈ n.chars) : IsInk c :=
  isInk_of_isNumeral (isNumeral_of_mem_chars h)

theorem Number.chars_ne_nil (n : Number) : n.chars ≠ [] := by
  cases n with
  | whole n =>
      have hdigits : Text.digits n.val.natAbs ≠ [] := Nat.toDigits_ne_nil
      simp only [chars, Text.signedDigits]
      split
      · simp
      · exact hdigits
  | real x =>
      have hdecimal := (x.shortest .even).jsonChars_ne_nil
      simp [chars, hdecimal]

/-! ## Values -/

namespace Json

/-- Escaping leaves no control character. -/
theorem noControl_escaped (c : Char) : NoControl (escaped c) := by
  have hhex : ∀ n, 0x20 ≤ (Text.hexDigit n).toNat := by
    intro n
    have hall : ∀ k < 16, 0x20 ≤ (Nat.digitChar k).toNat := by decide
    exact hall (n % 16) (Nat.mod_lt n (by decide))
  unfold escaped
  repeat' split
  all_goals simp [hhex]
  -- The last case is that of a character that stands for itself.
  omega

theorem noControl_quoted (s : String) : NoControl (quoted s) := by
  have hinside : NoControl (s.toList.flatMap escaped) := by
    intro c hc
    obtain ⟨origin, _, hmem⟩ := List.mem_flatMap.mp hc
    exact noControl_escaped origin c hmem
  simp [quoted, hinside]

mutual

/-- **The compact text of a value has no control characters.** -/
theorem noControl_chars : ∀ json : Json, NoControl json.chars
  | .null => by simp [chars]
  | .bool true => by simp [chars]
  | .bool false => by simp [chars]
  | .num n => noControl_of_ink fun _ => Number.isInk_of_mem_chars
  | .str s => noControl_quoted s
  | .arr items => by
      have hitems := noControl_itemsChars items
      simp [chars, hitems]
  | .obj members => by
      have hmembers := noControl_membersChars members
      simp [chars, hmembers]

theorem noControl_itemsChars : ∀ items : List Json, NoControl (chars.itemsChars items)
  | [] => noControl_nil
  | [x] => noControl_chars x
  | x :: y :: rest => by
      have hfirst := noControl_chars x
      have hrest := noControl_itemsChars (y :: rest)
      simp [chars.itemsChars, hfirst, hrest]

theorem noControl_membersChars : ∀ members : Members, NoControl (chars.membersChars members)
  | [] => noControl_nil
  | [(k, x)] => by
      have hvalue := noControl_chars x
      simp [chars.membersChars, noControl_quoted, hvalue]
  | (k, x) :: y :: rest => by
      have hvalue := noControl_chars x
      have hrest := noControl_membersChars (y :: rest)
      simp [chars.membersChars, noControl_quoted, hvalue, hrest]

end

/-- The compact text of a value is not blank. -/
theorem not_all_isBlank_chars (json : Json) : json.chars.all Text.isBlank = false := by
  have hink : ∃ c ∈ json.chars, IsInk c := by
    cases json with
    | null => exact ⟨'n', by decide, by decide⟩
    | bool b => cases b with
      | true => exact ⟨'t', by decide, by decide⟩
      | false => exact ⟨'f', by decide, by decide⟩
    | num n =>
        obtain ⟨c, hc⟩ := List.exists_mem_of_ne_nil _ n.chars_ne_nil
        exact ⟨c, hc, Number.isInk_of_mem_chars hc⟩
    | str s => exact ⟨'"', List.mem_cons_self, by decide⟩
    | arr items => exact ⟨'[', List.mem_cons_self, by decide⟩
    | obj members => exact ⟨'\x7b', List.mem_cons_self, by decide⟩
  obtain ⟨c, hc, hvisible⟩ := hink
  exact List.all_eq_false.mpr ⟨c, hc, by simp [not_isBlank_of_ink hvisible]⟩

end Json

end Reporting
