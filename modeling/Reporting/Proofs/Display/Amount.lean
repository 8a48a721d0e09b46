import Reporting.Display
import Reporting.Proofs.Binary64.Decimal
import Reporting.Proofs.Calendar.Pattern

/-!
# What a shown amount says

The digits of an amount, with or without the zeros that a plain number drops, say how many steps of
its decimal places a number is away from zero (`FixedNumeral.Says`).  Grouping and the decimal mark
only put characters between these digits: either one of them is a character that no number is
written with, or the amount stands there in plain decimal notation
(`FormatSettings.grouped_eq_chars_or_foreign`).
-/

namespace Reporting

namespace FixedNumeral

/-- The digits behind the point, if there is one. -/
def decimals (numeral : FixedNumeral) : List Char :=
  numeral.fraction.getD []

/-- A numeral in plain decimal notation. -/
def chars (numeral : FixedNumeral) : List Char :=
  numeral.whole ++ (match numeral.fraction with
    | some fraction => '.' :: fraction
    | none => [])

/-- A numeral without the zeros at the end of its fraction, and without a fraction of zeros. -/
def trimmed (numeral : FixedNumeral) : FixedNumeral :=
  let kept := (numeral.decimals.reverse.dropWhile fun c => c == '0').reverse
  ⟨numeral.whole, if kept.isEmpty then none else some kept⟩

/-- The digits of a numeral are those of a number with some decimal places, up to zeros at the
end. -/
structure Says (numeral : FixedNumeral) (x : Binary64) (places : Nat) : Prop where
  whole_ne_nil : numeral.whole ≠ []
  whole_digits : ∀ c ∈ numeral.whole, c.isDigit = true
  fraction_ne_nil : numeral.fraction ≠ some []
  decimals_digits : ∀ c ∈ numeral.decimals, c.isDigit = true
  steps : ∃ more, places = numeral.decimals.length + more ∧
    x.fixedSteps places
      = Text.numeralValue (numeral.whole ++ numeral.decimals) * Nat.pow 10 more

/-- **A number says what it shows with fixed places.** -/
theorem says_fixed (x : Binary64) (places : Nat) : (x.fixed places).Says x places := by
  have hlength := Text.le_length_zeroPadded (places + 1) (x.fixedSteps places)
  have hdigits {c : Char} (h : c ∈ Text.zeroPadded (places + 1) (x.fixedSteps places)) :
      c.isDigit = true := Text.isDigit_of_mem_zeroPadded h
  have hvalue := Text.numeralValue_zeroPadded (places + 1) (x.fixedSteps places)
  unfold Binary64.fixed
  dsimp only
  generalize Text.zeroPadded (places + 1) (x.fixedSteps places) = ds at hlength hdigits hvalue ⊢
  have hdecimals : decimals ⟨ds.take (ds.length - places),
      if places = 0 then none else some (ds.drop (ds.length - places))⟩
        = ds.drop (ds.length - places) := by
    unfold decimals
    dsimp only
    split
    · rename_i hzero
      rw [hzero, Nat.sub_zero, List.drop_length]
      rfl
    · rfl
  constructor
  case whole_ne_nil =>
    refine List.ne_nil_of_length_pos ?_
    rw [List.length_take]
    omega
  case whole_digits => exact fun c hc => hdigits (List.mem_of_mem_take hc)
  case fraction_ne_nil =>
    dsimp only
    split
    · simp
    · intro hnil
      have hdrop := congrArg List.length (Option.some.inj hnil)
      rw [List.length_drop, List.length_nil] at hdrop
      omega
  case decimals_digits =>
    rw [hdecimals]
    exact fun c hc => hdigits (List.mem_of_mem_drop hc)
  case steps =>
    refine ⟨0, ?_, ?_⟩
    · rw [hdecimals, List.length_drop]
      omega
    · rw [hdecimals, List.take_append_drop, hvalue]
      exact (Nat.mul_one _).symm

/-- A list is what is left without its last zeros, and these zeros. -/
theorem exists_eq_append_zeros (ds : List Char) :
    ∃ n, ds = (ds.reverse.dropWhile fun c => c == '0').reverse ++ List.replicate n '0' := by
  refine ⟨(ds.reverse.takeWhile fun c => c == '0').length, ?_⟩
  have hzeros : ds.reverse.takeWhile (fun c => c == '0')
      = List.replicate (ds.reverse.takeWhile fun c => c == '0').length '0' :=
    List.eq_replicate_of_mem fun c hc => by simpa using List.mem_takeWhile_imp hc
  have hsplit : ds.reverse = ds.reverse.takeWhile (fun c => c == '0')
      ++ ds.reverse.dropWhile (fun c => c == '0') := List.takeWhile_append_dropWhile.symm
  rw [hzeros] at hsplit
  have hreverse := congrArg List.reverse hsplit
  rwa [List.reverse_reverse, List.reverse_append, List.reverse_replicate] at hreverse

theorem decimals_trimmed (numeral : FixedNumeral) :
    numeral.trimmed.decimals = (numeral.decimals.reverse.dropWhile fun c => c == '0').reverse := by
  unfold FixedNumeral.trimmed
  generalize (numeral.decimals.reverse.dropWhile fun c => c == '0').reverse = kept
  cases kept <;> rfl

/-- **Zeros at the end of the fraction say nothing.** -/
theorem Says.trimmed {numeral : FixedNumeral} {x : Binary64} {places : Nat}
    (h : numeral.Says x places) : numeral.trimmed.Says x places := by
  obtain ⟨zeros, hzeros⟩ := exists_eq_append_zeros numeral.decimals
  obtain ⟨more, hplaces, hsteps⟩ := h.steps
  rw [← decimals_trimmed] at hzeros
  constructor
  case whole_ne_nil => exact h.whole_ne_nil
  case whole_digits => exact h.whole_digits
  case fraction_ne_nil =>
    unfold FixedNumeral.trimmed
    generalize (numeral.decimals.reverse.dropWhile fun c => c == '0').reverse = kept
    cases kept <;> simp
  case decimals_digits =>
    intro c hc
    refine h.decimals_digits c ?_
    rw [hzeros]
    exact List.mem_append_left _ hc
  case steps =>
    have hvalue : Text.numeralValue (numeral.whole ++ numeral.decimals)
        = Text.numeralValue (numeral.trimmed.whole ++ numeral.trimmed.decimals)
          * Nat.pow 10 zeros := by
      rw [hzeros, ← List.append_assoc, Text.numeralValue_append, Text.numeralValue_zeros,
        List.length_replicate]
      rfl
    refine ⟨zeros + more, ?_, ?_⟩
    · rw [hplaces, hzeros, List.length_append, List.length_replicate, Nat.add_assoc]
    · calc x.fixedSteps places
          = Text.numeralValue (numeral.whole ++ numeral.decimals) * Nat.pow 10 more := hsteps
        _ = Text.numeralValue (numeral.trimmed.whole ++ numeral.trimmed.decimals)
              * (Nat.pow 10 zeros * Nat.pow 10 more) := by rw [hvalue, Nat.mul_assoc]
        _ = _ := by
          rw [show Nat.pow 10 zeros * Nat.pow 10 more = Nat.pow 10 (zeros + more) from
            (Nat.pow_add 10 zeros more).symm]

section NonzeroDigits

open FormatSettings (hasNonzeroDigit)

theorem hasNonzeroDigit_append (cs ds : List Char) :
    hasNonzeroDigit (cs ++ ds) = (hasNonzeroDigit cs || hasNonzeroDigit ds) :=
  List.any_append

theorem hasNonzeroDigit_of_not_isDigit {cs : List Char} (h : ∀ c ∈ cs, c.isDigit = false) :
    hasNonzeroDigit cs = false := by
  apply List.any_eq_false.mpr
  intro c hc
  simp [h c hc]

/-- Digits have one other than zero if they do not denote zero. -/
theorem hasNonzeroDigit_iff {ds : List Char} (h : ∀ c ∈ ds, c.isDigit = true) :
    hasNonzeroDigit ds = true ↔ Text.numeralValue ds ≠ 0 := by
  rw [ne_eq, Text.numeralValue_eq_zero_iff h]
  unfold hasNonzeroDigit
  rw [List.any_eq_true]
  constructor
  · rintro ⟨c, hc, hdigit⟩ hzeros
    rw [hzeros c hc] at hdigit
    cases hdigit
  · intro hsome
    obtain ⟨c, hc, hother⟩ := not_forall₂.mp hsome
    exact ⟨c, hc, by simp [h c hc, hother]⟩

/-- There is no fraction, or it has digits. -/
theorem fraction_cases {numeral : FixedNumeral} (h : numeral.fraction ≠ some []) :
    (numeral.fraction = none ∧ numeral.decimals = []) ∨
      (numeral.fraction = some numeral.decimals ∧ numeral.decimals ≠ []) := by
  unfold decimals
  cases hfraction : numeral.fraction with
  | none => exact .inl ⟨rfl, rfl⟩
  | some fraction =>
      refine .inr ⟨rfl, ?_⟩
      rintro rfl
      exact h hfraction

variable {numeral : FixedNumeral} {x : Binary64} {places : Nat} (h : numeral.Says x places)
include h

/-- The digits of a numeral have one other than zero if its number is not rounded to zero. -/
theorem Says.hasNonzeroDigit_digits_iff :
    hasNonzeroDigit (numeral.whole ++ numeral.decimals) = true ↔ x.fixedSteps places ≠ 0 := by
  have hdigits : ∀ c ∈ numeral.whole ++ numeral.decimals, c.isDigit = true := by
    intro c hc
    exact (List.mem_append.mp hc).elim (h.whole_digits c) (h.decimals_digits c)
  obtain ⟨more, -, hsteps⟩ := h.steps
  have hten : Nat.pow 10 more ≠ 0 := (Nat.pow_pos (by decide)).ne'
  rw [hasNonzeroDigit_iff hdigits, hsteps, ne_eq, ne_eq, Nat.mul_eq_zero, or_iff_left hten]

/-- So has the numeral in plain notation. -/
theorem Says.hasNonzeroDigit_chars_iff :
    hasNonzeroDigit numeral.chars = true ↔ x.fixedSteps places ≠ 0 := by
  rw [← h.hasNonzeroDigit_digits_iff, hasNonzeroDigit_append]
  unfold chars
  rcases fraction_cases h.fraction_ne_nil with ⟨hnone, hempty⟩ | ⟨hsome, -⟩
  · rw [hnone, hempty, hasNonzeroDigit_append]
  · rw [hsome, hasNonzeroDigit_append]
    rfl

/-- A numeral with a digit other than zero is not that of zero. -/
theorem Says.units_ne_zero (hnonzero : hasNonzeroDigit numeral.chars = true) : x.units ≠ 0 := by
  intro hunits
  exact h.hasNonzeroDigit_chars_iff.mp hnonzero (Binary64.fixedSteps_of_units_eq_zero hunits places)

end NonzeroDigits

theorem Says.isDigit_head?_chars {numeral : FixedNumeral} {x : Binary64} {places : Nat}
    (h : numeral.Says x places) : ∀ c ∈ numeral.chars.head?, c.isDigit = true := by
  intro c hc
  unfold chars at hc
  rw [List.head?_append_of_ne_nil _ h.whole_ne_nil] at hc
  exact h.whole_digits c (List.mem_of_mem_head? hc)

/-- A numeral says the same of numbers with the same steps. -/
theorem Says.of_steps {numeral : FixedNumeral} {x y : Binary64} {places : Nat}
    (h : numeral.Says x places) (hsteps : y.fixedSteps places = x.fixedSteps places) :
    numeral.Says y places where
  whole_ne_nil := h.whole_ne_nil
  whole_digits := h.whole_digits
  fraction_ne_nil := h.fraction_ne_nil
  decimals_digits := h.decimals_digits
  steps := hsteps ▸ h.steps

/-- **A numeral in plain notation is read as the digits it shows.** -/
theorem Says.read?_chars {numeral : FixedNumeral} {x : Binary64} {places : Nat}
    (h : numeral.Says x places) :
    Decimal.read? numeral.chars = some ⟨Text.numeralValue (numeral.whole ++ numeral.decimals),
      -numeral.decimals.length⟩ := by
  have hdigits := h.decimals_digits
  unfold chars decimals at *
  cases hfraction : numeral.fraction with
  | none =>
      rw [List.append_nil]
      simpa using Decimal.read?_digits h.whole_ne_nil h.whole_digits
  | some fraction =>
      rw [hfraction] at hdigits
      exact Decimal.read?_fraction h.whole_ne_nil h.whole_digits hdigits

end FixedNumeral

namespace FormatSettings

section Thousands

variable {separator : List Char}

theorem groupThousands_nil (ds : List Char) : groupThousands [] ds = ds := by
  induction ds with
  | nil => rfl
  | cons d rest ih => simp [groupThousands, ih]

/-- Digits are kept together, or the separator stands among them. -/
theorem groupThousands_eq_or_subset (separator ds : List Char) :
    groupThousands separator ds = ds ∨ separator ⊆ groupThousands separator ds := by
  induction ds with
  | nil => exact .inl rfl
  | cons d rest ih =>
      unfold groupThousands
      split
      · refine .inr fun c hc => ?_
        exact List.mem_cons_of_mem d (List.mem_append_left _ hc)
      · rcases ih with hsame | hsubset
        · exact .inl (congrArg (d :: ·) hsame)
        · exact .inr fun c hc => List.mem_cons_of_mem d (hsubset hc)

theorem head?_groupThousands (separator ds : List Char) :
    (groupThousands separator ds).head? = ds.head? := by
  cases ds with
  | nil => rfl
  | cons d rest =>
      unfold groupThousands
      split <;> rfl

theorem getLast?_groupThousands (separator ds : List Char) :
    (groupThousands separator ds).getLast? = ds.getLast? := by
  induction ds with
  | nil => rfl
  | cons d rest ih =>
      unfold groupThousands
      split
      · rename_i hgroup
        rw [List.getLast?_cons, List.getLast?_cons, List.getLast?_append, ih,
          List.getLast?_eq_some_getLast hgroup.2]
        rfl
      · rw [List.getLast?_cons, List.getLast?_cons, ih]

end Thousands

section Mark

/-- Cutting around a separator takes nothing away. -/
theorem eq_append_of_splitLast {separator cs before after : List Char}
    (h : Text.splitLast separator cs = some (before, after)) :
    cs = before ++ (separator ++ after) := by
  induction cs generalizing before with
  | nil =>
      unfold Text.splitLast at h
      split at h
      · rename_i hempty
        cases h
        rw [List.isEmpty_iff.mp hempty]
        rfl
      · cases h
  | cons c rest ih =>
      unfold Text.splitLast at h
      split at h
      · rename_i front back hrest
        cases h
        exact congrArg (c :: ·) (ih hrest)
      · split at h
        · rename_i hprefix
          cases h
          exact (List.prefix_iff_eq_append.mp (List.isPrefixOf_iff_prefix.mp hprefix)).symm
        · cases h

variable {mark fraction : List Char} (hmark : ∃ c ∈ mark, c.isDigit = false)
  (hfraction : ∀ c ∈ fraction, c.isDigit = true)
include hmark hfraction

/-- A mark that is not made of digits alone does not stand again among its own characters and the
digits behind it. -/
theorem eq_nil_of_mark_append {before after : List Char}
    (h : mark ++ fraction = before ++ (mark ++ after)) : before = [] := by
  have hcount := congrArg (List.countP fun c => !c.isDigit) h
  have hnone : fraction.countP (fun c => !c.isDigit) = 0 := by
    rw [List.countP_eq_zero]
    intro c hc
    simp [hfraction c hc]
  simp only [List.countP_append] at hcount
  have hbefore : before.countP (fun c => !c.isDigit) = 0 := by omega
  -- So only digits stand in front of the second mark, and the digits at the start can be dropped.
  have hdigits : ∀ c ∈ before, c.isDigit = true := by
    intro c hc
    simpa using List.countP_eq_zero.mp hbefore c hc
  have hdrop := congrArg (List.dropWhile Char.isDigit) h
  obtain ⟨c, hc, hdigit⟩ := hmark
  have hkept : (mark.dropWhile Char.isDigit).isEmpty = false := by
    rw [List.isEmpty_eq_false_iff]
    intro hnil
    rw [List.dropWhile_eq_nil_iff.mp hnil c hc] at hdigit
    cases hdigit
  rw [List.dropWhile_append_of_pos hdigits, List.dropWhile_append, List.dropWhile_append, hkept,
    if_neg Bool.false_ne_true, if_neg Bool.false_ne_true] at hdrop
  have hsame := List.append_cancel_left hdrop
  have hlength := congrArg List.length h
  rw [hsame] at hlength
  simp only [List.length_append] at hlength
  exact List.eq_nil_of_length_eq_zero (by omega)

/-- **The last mark is the one in front of the fraction.** -/
theorem splitLast_mark (front : List Char) :
    Text.splitLast mark (front ++ (mark ++ fraction)) = some (front, fraction) := by
  induction front with
  | nil =>
      cases mark with
      | nil =>
          obtain ⟨c, hc, -⟩ := hmark
          cases hc
      | cons m rest =>
          have hnone : Text.splitLast (m :: rest) (rest ++ fraction) = none := by
            cases hlast : Text.splitLast (m :: rest) (rest ++ fraction) with
            | none => rfl
            | some parts =>
                have hparts : m :: rest ++ fraction = m :: parts.1 ++ (m :: rest ++ parts.2) :=
                  congrArg (m :: ·) (eq_append_of_splitLast hlast)
                cases eq_nil_of_mark_append hmark hfraction hparts
          have hprefix : (m :: rest).isPrefixOf (m :: (rest ++ fraction)) = true :=
            List.isPrefixOf_iff_prefix.mpr (List.prefix_append (m :: rest) fraction)
          show Text.splitLast (m :: rest) (m :: (rest ++ fraction)) = _
          unfold Text.splitLast
          rw [hnone]
          dsimp only
          rw [if_pos hprefix]
          simp
  | cons c rest ih =>
      show Text.splitLast mark (c :: (rest ++ (mark ++ fraction))) = _
      unfold Text.splitLast
      rw [ih]

end Mark

section SeparatorWithoutDigits

variable {settings : FormatSettings} (h : ∀ c ∈ settings.decimalSeparator.toList, c.isDigit = false)
include h

/-- The mark has no digits if the setting has none, also if this is empty. -/
theorem not_isDigit_of_mem_decimalMark : ∀ c ∈ settings.decimalMark, c.isDigit = false := by
  intro c hc
  unfold decimalMark at hc
  split at hc
  · rw [List.mem_singleton.mp hc]
    rfl
  · exact h c hc

theorem exists_mem_decimalMark : ∃ c ∈ settings.decimalMark, c.isDigit = false := by
  have hne : settings.decimalMark ≠ [] := by
    unfold decimalMark
    split
    · exact List.cons_ne_nil _ _
    · rename_i hsome
      rwa [ne_eq, String.toList_eq_nil_iff, ← String.isEmpty_iff]
  obtain ⟨c, hc⟩ := List.exists_mem_of_ne_nil _ hne
  exact ⟨c, hc, not_isDigit_of_mem_decimalMark h c hc⟩

end SeparatorWithoutDigits

/-- A text is apart from a number behind it if it is blank, and then trimmed in front of the number,
or if it has a visible character that no number is written with. -/
def IsApart (front : List Char) : Prop :=
  (∀ c ∈ front, Text.isBlank c = true) ∨
    ∃ c ∈ front, Text.isBlank c = false ∧ Text.isNumeral c = false

/-- Settings under which a shown value is not mistaken for another one: each of the texts that they
put into amounts either cannot be read as part of a number or is what numbers have in its place, the
pattern keeps dates apart from other dates, and a label that says a truth value shows like it. -/
structure Unmistakable (settings : FormatSettings) : Prop where
  symbol : IsApart settings.currencySymbol.toList
  thousands : settings.thousandsSeparator = "" ∨
    ∃ c ∈ settings.thousandsSeparator.toList, Text.isNumeral c = false
  decimals : settings.decimalMark = ['.'] ∨ ∃ c ∈ settings.decimalMark, Text.isNumeral c = false
  dates : Pattern.isUnmistakable settings.dateFormat = true
  labels : ∀ b other, (Json.str (settings.label b)).truthView = some other →
    settings.label other = settings.label b

section Amounts

variable {settings : FormatSettings} {numeral : FixedNumeral} {x : Binary64} {places : Nat}

theorem Unmistakable.exists_not_isDigit (hset : settings.Unmistakable) :
    ∃ c ∈ settings.decimalMark, c.isDigit = false := by
  rcases hset.decimals with hpoint | ⟨c, hc, hforeign⟩
  · exact ⟨'.', by rw [hpoint]; exact List.mem_singleton_self _, rfl⟩
  · exact ⟨c, hc, Text.not_isDigit_of_foreign hforeign⟩

/-- **Dropping zeros from a shown fraction is dropping them from the numeral.** -/
theorem trimFraction_grouped (hmark : ∃ c ∈ settings.decimalMark, c.isDigit = false)
    (h : numeral.Says x places) (hfraction : numeral.fraction ≠ none) :
    settings.trimFraction (settings.grouped numeral) = settings.grouped numeral.trimmed := by
  obtain ⟨fraction, hfraction⟩ := Option.ne_none_iff_exists'.mp hfraction
  have hdecimals : numeral.decimals = fraction := by
    unfold FixedNumeral.decimals
    rw [hfraction]
    rfl
  have hdigits := h.decimals_digits
  rw [hdecimals] at hdigits
  have hsplit := splitLast_mark hmark hdigits
    (groupThousands settings.thousandsSeparator.toList numeral.whole)
  unfold trimFraction grouped FixedNumeral.trimmed
  dsimp only
  rw [hdecimals, hfraction]
  dsimp only
  rw [hsplit]
  dsimp only
  split
  · simp
  · simp

/-- **A plain number shows the numeral with three places, without its last zeros.** -/
theorem number_eq (hmark : ∃ c ∈ settings.decimalMark, c.isDigit = false) (x : Binary64) :
    settings.number (.finite x)
      = sign (.finite x) (settings.grouped (x.fixed 3).trimmed)
        ++ settings.grouped (x.fixed 3).trimmed := by
  have hfraction : (x.fixed 3).fraction ≠ none := by simp [Binary64.fixed]
  have htrim := trimFraction_grouped hmark (FixedNumeral.says_fixed x 3) hfraction
  show sign (.finite x) (settings.trimFraction (settings.grouped (x.fixed 3)))
    ++ settings.trimFraction (settings.grouped (x.fixed 3)) = _
  rw [htrim]

/-- A shown amount starts and ends with a digit. -/
theorem isBody_grouped (settings : FormatSettings) (h : numeral.Says x places) :
    Text.IsBody (settings.grouped numeral) := by
  have hstart := head?_groupThousands settings.thousandsSeparator.toList numeral.whole
  have hend := getLast?_groupThousands settings.thousandsSeparator.toList numeral.whole
  have hne : groupThousands settings.thousandsSeparator.toList numeral.whole ≠ [] := by
    intro hnil
    rw [hnil, List.head?_nil, eq_comm, List.head?_eq_none_iff] at hstart
    exact h.whole_ne_nil hstart
  unfold grouped
  generalize groupThousands settings.thousandsSeparator.toList numeral.whole = whole
    at hstart hend hne
  constructor
  case ne_nil => simp [hne]
  case first =>
    intro c hc
    rw [List.head?_append_of_ne_nil _ hne, hstart] at hc
    exact Text.not_isBlank_of_isDigit (h.whole_digits c (List.mem_of_mem_head? hc))
  case last =>
    intro c hc
    have hdecimals := h.decimals_digits
    unfold FixedNumeral.decimals at hdecimals
    cases hfraction : numeral.fraction with
    | none =>
        rw [hfraction, List.append_nil, hend] at hc
        exact Text.not_isBlank_of_isDigit (h.whole_digits c (List.mem_of_getLast? hc))
    | some fraction =>
        have hsome : fraction ≠ [] := by
          rintro rfl
          exact h.fraction_ne_nil hfraction
        rw [hfraction] at hc hdecimals
        dsimp only at hc
        rw [List.getLast?_append_of_ne_nil _ (List.append_ne_nil_of_right_ne_nil _ hsome),
          List.getLast?_append_of_ne_nil _ hsome] at hc
        exact Text.not_isBlank_of_isDigit (hdecimals c (List.mem_of_getLast? hc))

/-- **A shown amount is in plain decimal notation, or it has a character that no number is written
with.** -/
theorem grouped_eq_chars_or_foreign (hset : settings.Unmistakable) (numeral : FixedNumeral) :
    settings.grouped numeral = numeral.chars ∨
      ∃ c ∈ settings.grouped numeral, Text.isNumeral c = false := by
  have hwhole : groupThousands settings.thousandsSeparator.toList numeral.whole = numeral.whole ∨
      ∃ c ∈ groupThousands settings.thousandsSeparator.toList numeral.whole,
        Text.isNumeral c = false := by
    rcases hset.thousands with hempty | ⟨c, hc, hforeign⟩
    · rw [hempty]
      exact .inl (groupThousands_nil _)
    · rcases groupThousands_eq_or_subset settings.thousandsSeparator.toList numeral.whole
        with hsame | hsubset
      · exact .inl hsame
      · exact .inr ⟨c, hsubset hc, hforeign⟩
  unfold grouped FixedNumeral.chars
  rcases hwhole with hsame | ⟨c, hc, hforeign⟩
  · rw [hsame]
    cases numeral.fraction with
    | none => exact .inl rfl
    | some fraction =>
        rcases hset.decimals with hpoint | ⟨c, hc, hforeign⟩
        · rw [hpoint]
          exact .inl rfl
        · exact .inr ⟨c, List.mem_append_right _ (List.mem_append_left _ hc), hforeign⟩
  · exact .inr ⟨c, List.mem_append_left _ hc, hforeign⟩

end Amounts

end FormatSettings

end Reporting
