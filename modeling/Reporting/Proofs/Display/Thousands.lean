import Reporting.Proofs.Display.Shown

/-!
# Amounts show their decimal text

The decimal text of a magnitude with fixed places is its digits, with a point in front of the last
ones (`FixedNumeral.IsDecimalText`).  An amount of money shows these digits and no others: those in
front of the point in groups of three, counted from the right and with the thousands separator
between them, and the others as they are behind the decimal mark.  A plain number leaves out the
zeros at the end, and the mark if nothing is left behind it
(`FormatSettings.format_writes_decimalText`).  The thousands separator may be any text, and the
decimal mark any text without digits.
-/

namespace Reporting

namespace FixedNumeral

/-- The digits in front of the point and behind it in the decimal text of a magnitude. -/
structure IsDecimalText (x : Binary64) (places : Nat) (whole fraction : List Char) : Prop where
  text : (Extended.finite x).abs.fixedText places
    = whole ++ (if fraction = [] then [] else '.' :: fraction)
  whole_ne_nil : whole ≠ []
  digits : ∀ c ∈ whole ++ fraction, c.isDigit = true
  length : fraction.length = places

theorem length_decimals_fixed (x : Binary64) (places : Nat) :
    (x.fixed places).decimals.length = places := by
  have hlength := Text.le_length_zeroPadded (places + 1) (x.fixedSteps places)
  unfold Binary64.fixed decimals
  by_cases hzero : places = 0
  · simp [hzero]
  · simp only [hzero, if_false, Option.getD_some, List.length_drop]
    omega

/-- **A number with fixed places is its decimal text, cut at the point.** -/
theorem isDecimalText_fixed (x : Binary64) (places : Nat) :
    IsDecimalText x places (x.fixed places).whole (x.fixed places).decimals := by
  have h := says_fixed x places
  constructor
  case text =>
    have htext : (Extended.finite x).abs.fixedText places = (x.fixed places).chars := rfl
    rw [htext, chars]
    rcases fraction_cases h.fraction_ne_nil with ⟨hnone, hempty⟩ | ⟨hsome, hdigits⟩
    · rw [hnone, if_pos hempty]
    · rw [hsome, if_neg hdigits]
  case whole_ne_nil => exact h.whole_ne_nil
  case digits =>
    intro c hc
    exact (List.mem_append.mp hc).elim (h.whole_digits c) (h.decimals_digits c)
  case length => exact length_decimals_fixed x places

end FixedNumeral

namespace FormatSettings

/-- Groups into which digits are cut from the right: each has three digits, the first one may have
fewer. -/
structure InThrees (digits : List Char) (groups : List (List Char)) : Prop where
  flatten : groups.flatten = digits
  first : ∀ group ∈ groups.head?, 1 ≤ group.length ∧ group.length ≤ 3
  others : ∀ group ∈ groups.tail, group.length = 3

theorem InThrees.length_eq {digits first : List Char} {more : List (List Char)}
    (h : InThrees digits (first :: more)) : digits.length = first.length + 3 * more.length := by
  have hlengths : more.map List.length = List.replicate more.length 3 := by
    apply List.eq_replicate_iff.mpr
    refine ⟨List.length_map _, ?_⟩
    intro n hn
    obtain ⟨group, hgroup, rfl⟩ := List.mem_map.mp hn
    exact h.others group hgroup
  rw [← h.flatten, List.flatten_cons, List.length_append, List.length_flatten, hlengths,
    List.sum_replicate_nat, Nat.mul_comm]

theorem inThrees_nil : InThrees [] [] where
  flatten := rfl
  first := by simp
  others := by simp

theorem inThrees_singleton (c : Char) : InThrees [c] [[c]] where
  flatten := rfl
  first := by simp
  others := by simp

/-- Another digit in front belongs to the first group, if this is not full. -/
theorem InThrees.cons {digits first : List Char} {more : List (List Char)}
    (h : InThrees digits (first :: more)) (hroom : first.length < 3) (c : Char) :
    InThrees (c :: digits) ((c :: first) :: more) where
  flatten := congrArg (c :: ·) h.flatten
  first := by
    rintro group ⟨⟩
    rw [List.length_cons]
    omega
  others := h.others

/-- Another digit in front of full groups is a group of its own. -/
theorem InThrees.cons_full {digits first : List Char} {more : List (List Char)}
    (h : InThrees digits (first :: more)) (hfull : first.length = 3) (c : Char) :
    InThrees (c :: digits) ([c] :: first :: more) where
  flatten := congrArg (c :: ·) h.flatten
  first := by
    rintro group ⟨⟩
    simp
  others := by
    intro group hgroup
    rcases List.mem_cons.mp hgroup with rfl | hmore
    · exact hfull
    · exact h.others group hmore

theorem intercalate_cons_cons_first (separator : List Char) (c : Char) (first : List Char)
    (more : List (List Char)) : separator.intercalate ((c :: first) :: more)
      = c :: separator.intercalate (first :: more) := by
  cases more <;> simp [List.intercalate_cons_cons]

/-- **Separators stand between groups of three digits.** -/
theorem exists_inThrees (separator digits : List Char) :
    ∃ groups, InThrees digits groups ∧
      groupThousands separator digits = separator.intercalate groups := by
  induction digits with
  | nil => exact ⟨[], inThrees_nil, rfl⟩
  | cons c rest ih =>
      obtain ⟨groups, hgroups, htext⟩ := ih
      unfold groupThousands
      cases groups with
      | nil =>
          obtain rfl : rest = [] := hgroups.flatten.symm
          refine ⟨[[c]], inThrees_singleton c, ?_⟩
          simp [groupThousands]
      | cons first more =>
          have hlength := hgroups.length_eq
          have hfirst := hgroups.first first rfl
          by_cases hfull : first.length = 3
          · have hgroup : rest.length % 3 = 0 ∧ rest ≠ [] :=
              ⟨by omega, List.ne_nil_of_length_pos (by omega)⟩
            refine ⟨[c] :: first :: more, hgroups.cons_full hfull c, ?_⟩
            rw [if_pos hgroup, htext, List.intercalate_cons_cons]
            rfl
          · have hgroup : ¬ (rest.length % 3 = 0 ∧ rest ≠ []) := by omega
            refine ⟨(c :: first) :: more, hgroups.cons (by omega) c, ?_⟩
            rw [if_neg hgroup, htext, intercalate_cons_cons_first]

/-- Groups of digits with separators between them, and a fraction behind its mark. -/
def written (settings : FormatSettings) (groups : List (List Char)) (fraction : List Char) :
    List Char :=
  settings.thousandsSeparator.toList.intercalate groups
    ++ (if fraction = [] then [] else settings.decimalMark ++ fraction)

theorem exists_grouped_eq_written (settings : FormatSettings) {numeral : FixedNumeral}
    (h : numeral.fraction ≠ some []) :
    ∃ groups, InThrees numeral.whole groups ∧
      settings.grouped numeral = settings.written groups numeral.decimals := by
  obtain ⟨groups, hgroups, htext⟩ :=
    exists_inThrees settings.thousandsSeparator.toList numeral.whole
  refine ⟨groups, hgroups, ?_⟩
  unfold grouped written
  rw [htext]
  rcases FixedNumeral.fraction_cases h with ⟨hnone, hempty⟩ | ⟨hsome, hdigits⟩
  · rw [hnone, if_pos hempty]
  · rw [hsome, if_neg hdigits]

/-- What is kept of a fraction does not end with a zero. -/
theorem getLast?_decimals_trimmed (numeral : FixedNumeral) :
    numeral.trimmed.decimals.getLast? ≠ some '0' := by
  rw [FixedNumeral.decimals_trimmed, List.getLast?_reverse]
  intro hzero
  have hkept := List.head?_dropWhile_not (fun c => c == '0') numeral.decimals.reverse
  rw [hzero] at hkept
  cases hkept

/-- An amount of money is the written digits. -/
theorem exists_currency_eq_written (settings : FormatSettings) (x : Binary64) :
    ∃ whole fraction groups,
      FixedNumeral.IsDecimalText x settings.currencyDecimals.toNat whole fraction ∧
      InThrees whole groups ∧ settings.amount .currency x = settings.written groups fraction := by
  have hsays := FixedNumeral.says_fixed x settings.currencyDecimals.toNat
  obtain ⟨groups, hgroups, htext⟩ := exists_grouped_eq_written settings hsays.fraction_ne_nil
  exact ⟨_, _, groups, FixedNumeral.isDecimalText_fixed x _, hgroups, htext⟩

/-- A plain number is the written digits without the zeros at the end. -/
theorem exists_number_eq_written (settings : FormatSettings) (x : Binary64) :
    ∃ whole kept zeros groups,
      FixedNumeral.IsDecimalText x 3 whole (kept ++ List.replicate zeros '0') ∧
      kept.getLast? ≠ some '0' ∧ InThrees whole groups ∧
      settings.amount .number x = settings.written groups kept := by
  have hsays := (FixedNumeral.says_fixed x 3).trimmed
  have hdecimal := FixedNumeral.isDecimalText_fixed x 3
  obtain ⟨zeros, hzeros⟩ := FixedNumeral.exists_eq_append_zeros (x.fixed 3).decimals
  rw [← FixedNumeral.decimals_trimmed] at hzeros
  rw [hzeros] at hdecimal
  obtain ⟨groups, hgroups, htext⟩ := exists_grouped_eq_written settings hsays.fraction_ne_nil
  exact ⟨_, _, zeros, groups, hdecimal, getLast?_decimals_trimmed _, hgroups, htext⟩

/-- **Amounts of money and plain numbers show the decimal text of the magnitude.**  If the decimal
separator has no digits, an amount shows, behind its sign and the symbol, the digits in front of the
point in groups of three and all digits behind the point.  A plain number shows the same with three
places, without the zeros at the end. -/
theorem format_writes_decimalText (settings : FormatSettings)
    (hmark : ∀ c ∈ settings.decimalSeparator.toList, c.isDigit = false) {value : Json}
    {x : Binary64} (hx : value.numberView = some x) :
    (∃ sign whole fraction groups, (sign = [] ∨ sign = ['-']) ∧
      FixedNumeral.IsDecimalText x settings.currencyDecimals.toNat whole fraction ∧
      InThrees whole groups ∧
      (settings.format .currency (some value)).toList
        = sign ++ settings.currencySymbol.toList ++ settings.written groups fraction) ∧
    (∃ sign whole kept zeros groups, (sign = [] ∨ sign = ['-']) ∧
      FixedNumeral.IsDecimalText x 3 whole (kept ++ List.replicate zeros '0') ∧
      kept.getLast? ≠ some '0' ∧ InThrees whole groups ∧
      (settings.format .number (some value)).toList = sign ++ settings.written groups kept) := by
  have hformat (type : FieldType) (hnumeric : type.isNumeric = true) :
      ∃ sign, (sign = [] ∨ sign = ['-']) ∧ (settings.format type (some value)).toList
        = sign ++ settings.front type ++ settings.amount type x ++ back type := by
    refine ⟨if settings.showsMinus type x then ['-'] else [], ?_, ?_⟩
    · cases settings.showsMinus type x
      · exact .inl rfl
      · exact .inr rfl
    · rw [toList_format_of_numberView settings hnumeric hx,
        numberText_eq (exists_mem_decimalMark hmark)]
  constructor
  · obtain ⟨sign, hsign, htext⟩ := hformat .currency rfl
    obtain ⟨whole, fraction, groups, hdecimal, hgroups, hamount⟩ :=
      exists_currency_eq_written settings x
    refine ⟨sign, whole, fraction, groups, hsign, hdecimal, hgroups, ?_⟩
    rw [htext, hamount]
    exact List.append_nil _
  · obtain ⟨sign, hsign, htext⟩ := hformat .number rfl
    obtain ⟨whole, kept, zeros, groups, hdecimal, hkept, hgroups, hamount⟩ :=
      exists_number_eq_written settings x
    refine ⟨sign, whole, kept, zeros, groups, hsign, hdecimal, hkept, hgroups, ?_⟩
    rw [htext, hamount]
    show sign ++ [] ++ settings.written groups kept ++ [] = _
    rw [List.append_nil, List.append_nil]

/-- The theorem at a number whose zeros all go and whose thousands keep theirs, under settings that
cannot tell the two separators apart. -/
theorem format_writes_decimalText_equal_separators :
    let settings := { default with thousandsSeparator := ".", decimalSeparator := "." }
    let value : Json := .num (.whole ⟨-1200, by decide, by decide⟩)
    (∀ c ∈ settings.decimalSeparator.toList, c.isDigit = false) ∧
      settings.format .number (some value) = "-1.200" ∧
      ∃ x, value.numberView = some x ∧
        ∃ sign whole kept zeros groups, (sign = [] ∨ sign = ['-']) ∧
          FixedNumeral.IsDecimalText x 3 whole (kept ++ List.replicate zeros '0') ∧
          kept.getLast? ≠ some '0' ∧ InThrees whole groups ∧
          (settings.format .number (some value)).toList = sign ++ settings.written groups kept := by
  intro settings value
  have hmark : ∀ c ∈ settings.decimalSeparator.toList, c.isDigit = false := by
    have hpoint : settings.decimalSeparator.toList = ['.'] := by decide
    intro c hc
    rw [hpoint] at hc
    rw [List.mem_singleton.mp hc]
    rfl
  have hx : value.numberView = some (Whole.toBinary64 ⟨-1200, by decide, by decide⟩) := rfl
  exact ⟨hmark, by decide +kernel, _, hx, (format_writes_decimalText settings hmark hx).2⟩

end FormatSettings

end Reporting
