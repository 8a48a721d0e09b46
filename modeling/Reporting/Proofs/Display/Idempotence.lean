import Reporting.Proofs.Display.Amount
import Reporting.Proofs.Display.Shown
import Reporting.Proofs.Json.Printer
import Reporting.Proofs.Record.View

/-!
# Showing a shown value

A shown value is a text, and showing this text with the same type leaves it as it is if the
settings are unmistakable (`FormatSettings.format_format`).  A text that is no value of the type is
shown as it is.  If a shown amount is read as a number, it stands there in plain decimal notation,
and the number that is read shows the same digits and the same sign.
-/

namespace Reporting

namespace Json

/-- Whether a value has the view that a type shows. -/
def isSeenAs (type : FieldType) (value : Json) : Bool :=
  match type with
  | .currency => value.numberView.isSome
  | .percentage => value.numberView.isSome
  | .number => value.numberView.isSome
  | .date => value.dateView.isSome
  | .boolean => value.truthView.isSome
  | .text => false

/-- No text that holds a bracket or a brace is seen as a value of any type. -/
theorem isSeenAs_of_bracket (type : FieldType) {c : Char} (hc : c = '[' ∨ c = '{') {cs : List Char}
    (h : c ∈ cs) : (Json.str (String.ofList cs)).isSeenAs type = false := by
  have hforeign : Text.isNumeral c = false ∧ Calendar.isDateChar c = false ∧
      Text.isBlank c = false := by
    rcases hc with rfl | rfl <;> decide
  have htrim := Text.mem_trim_of_not_blank h hforeign.2.2
  have hnumber : (Json.str (String.ofList cs)).numberView = none := by
    rw [numberView_ofList]
    exact Extended.finite?_read?_of_foreign hforeign.1 htrim
  have hdate : (Json.str (String.ofList cs)).dateView = none := by
    rw [dateView_ofList]
    refine Date.read?_of_not_isDateText fun hdateText => ?_
    have hchar := hdateText.chars c htrim
    rw [hforeign.2.1] at hchar
    cases hchar
  have htruth : (Json.str (String.ofList cs)).truthView = none := by
    have hword : c ∈ Text.lowerAscii (Text.trim cs) := by
      have hlower : c.toLower = c := by rcases hc with rfl | rfl <;> decide
      rw [← hlower]
      exact List.mem_map_of_mem htrim
    have hother {word : List Char} (hnot : '[' ∉ word ∧ '{' ∉ word) :
        Text.lowerAscii (Text.trim cs) ≠ word := by
      rintro rfl
      rcases hc with rfl | rfl
      · exact hnot.1 hword
      · exact hnot.2 hword
    rw [truthView_ofList]
    dsimp only
    rw [if_neg (not_or.mpr ⟨hother (by decide), hother (by decide)⟩),
      if_neg (not_or.mpr ⟨hother (by decide), hother (by decide)⟩)]
  cases type <;> simp [isSeenAs, hnumber, hdate, htruth]

/-- A number shows a hyphen only as its sign. -/
theorem count_hyphen_displayChars (x : Binary64) :
    (Extended.finite x).displayChars.count '-' ≤ 1 := by
  have hpositional : ((x.shortest .up).positional).count '-' = 0 := by
    refine List.count_eq_zero.mpr fun hmem => ?_
    rcases Decimal.isDigit_or_point_of_mem_positional hmem with hdigit | hpoint
    · cases hdigit
    · cases hpoint
  unfold Extended.displayChars Extended.positionalText
  dsimp only
  split
  · exact Text.count_hyphen_signedDigits _
  · rw [List.count_append, hpositional]
    split <;> decide

theorem dateView_textView_num (n : Number) : (Json.str (Json.num n).textView).dateView = none := by
  have hread {cs : List Char} (hcount : cs.count '-' ≤ 1) :
      (Json.str (String.ofList cs)).dateView = none := by
    have htrim := (Text.trim_infix cs).sublist.count_le '-'
    rw [dateView_ofList]
    refine Date.read?_of_not_isDateText fun hdateText => ?_
    have hhyphens := hdateText.hyphens
    omega
  cases n with
  | whole n => exact hread (Text.count_hyphen_signedDigits n.val)
  | real x => exact hread (count_hyphen_displayChars x)

/-- **The text of a value that a type does not show is no such value either.** -/
theorem isSeenAs_textView {type : FieldType} {value : Json} (h : value.isSeenAs type = false) :
    (Json.str value.textView).isSeenAs type = false := by
  cases value with
  | null => cases type <;> rfl
  | bool b => cases type <;> cases b <;> first | rfl | cases h
  | num n =>
      cases type with
      | date =>
          show (Json.str (Json.num n).textView).dateView.isSome = false
          rw [dateView_textView_num]
          rfl
      | text => rfl
      | _ => cases h
  | str s => exact h
  | arr items => exact isSeenAs_of_bracket type (.inl rfl) List.mem_cons_self
  | obj members => exact isSeenAs_of_bracket type (.inr rfl) List.mem_cons_self

end Json

namespace FormatSettings

section Amounts

variable {settings : FormatSettings} {numeral : FixedNumeral} {x y : Binary64} {places : Nat}

/-- In front of an amount that can be read there is nothing but its sign. -/
theorem trimStart_sign {front : List Char} (hfront : IsApart front) {negative : Bool}
    (h : ∀ c ∈ Text.trimStart ((if negative then ['-'] else []) ++ front),
      Text.isNumeral c = true) :
    Text.trimStart ((if negative then ['-'] else []) ++ front)
      = if negative then ['-'] else [] := by
  rcases hfront with hblank | ⟨c, hc, hink, hforeign⟩
  · cases negative with
    | false => exact List.dropWhile_eq_nil_iff.mpr hblank
    | true =>
        -- Behind a minus sign blanks are not trimmed.
        cases front with
        | nil => rfl
        | cons c rest =>
            have hc : c ∈ Text.trimStart (['-'] ++ c :: rest) :=
              List.mem_cons_of_mem _ List.mem_cons_self
            have hforeign := Text.isNumeral_of_isBlank (hblank c List.mem_cons_self)
            rw [h c hc] at hforeign
            cases hforeign
  · rw [h c (Text.mem_trimStart_of_not_blank (List.mem_append_right _ hc) hink)] at hforeign
    cases hforeign

/-- **What is read from a shown amount shows the same digits.** -/
theorem steps_of_numberView_shown (hset : settings.Unmistakable) (h : numeral.Says x places)
    {front : List Char} (hfront : IsApart front) {negative : Bool}
    (hread : (Json.str (String.ofList ((if negative then ['-'] else []) ++ front
      ++ settings.grouped numeral))).numberView = some y) :
    settings.grouped numeral = numeral.chars ∧ y.negative = negative ∧
      y.fixedSteps places = x.fixedSteps places := by
  rw [Json.numberView_ofList, Text.trim_append (isBody_grouped settings h)] at hread
  have hnumeral : ∀ c ∈ Text.trimStart ((if negative then ['-'] else []) ++ front)
      ++ settings.grouped numeral, Text.isNumeral c = true := by
    intro c hc
    by_contra hforeign
    rw [Extended.finite?_read?_of_foreign (Bool.not_eq_true _ ▸ hforeign) hc] at hread
    cases hread
  have hbody : settings.grouped numeral = numeral.chars := by
    rcases grouped_eq_chars_or_foreign hset numeral with hplain | ⟨c, hc, hforeign⟩
    · exact hplain
    · rw [hnumeral c (List.mem_append_right _ hc)] at hforeign
      cases hforeign
  have hsign := trimStart_sign hfront fun c hc => hnumeral c (List.mem_append_left _ hc)
  obtain ⟨more, rfl, hsteps⟩ := h.steps
  rw [hsign, hbody, Extended.read?_signed h.isDigit_head?_chars h.read?_chars, Option.bind_some]
    at hread
  cases hnumber : Extended.ofDecimal negative
      ⟨Text.numeralValue (numeral.whole ++ numeral.decimals), -numeral.decimals.length⟩ with
  | finite z =>
      rw [hnumber] at hread
      cases hread
      obtain ⟨hnegative, hsame⟩ := Extended.fixedSteps_ofDecimal hsteps hnumber
      exact ⟨hbody, hnegative, hsame.trans hsteps.symm⟩
  | infinite =>
      rw [hnumber] at hread
      cases hread
  | undefined =>
      rw [hnumber] at hread
      cases hread

/-- The number that is read has the sign that is shown. -/
theorem sign_of_steps (hbody : settings.grouped numeral = numeral.chars)
    (hy : numeral.Says y places) (hnegative : y.negative
      = ((Extended.finite x).isNegative && hasNonzeroDigit (settings.grouped numeral))) :
    sign (.finite y) (settings.grouped numeral) = sign (.finite x) (settings.grouped numeral) := by
  have hvalue : (Extended.finite y).isNegative = (y.negative && decide (y.units ≠ 0)) := by
    cases hsign : y.negative with
    | false => simp [Extended.isNegative, Binary64.value, hsign]
    | true => simp [Extended.isNegative, Binary64.value, hsign, Nat.pos_iff_ne_zero]
  unfold sign
  rw [hvalue, hnegative]
  by_cases hdigit : hasNonzeroDigit (settings.grouped numeral) = true
  · have hunits : y.units ≠ 0 := hy.units_ne_zero (hbody ▸ hdigit)
    simp [hdigit, hunits]
  · simp [hdigit]

variable (hset : settings.Unmistakable)
include hset

/-- **An amount of money that is read again is shown as it was.** -/
theorem currency_of_numberView (x : Binary64)
    (hread : (Json.str (String.ofList (settings.currency (.finite x)))).numberView = some y) :
    settings.currency (.finite y) = settings.currency (.finite x) := by
  have hx := FixedNumeral.says_fixed x settings.currencyDecimals.toNat
  have hsplit : settings.currency (.finite x)
      = (if (Extended.finite x).isNegative
          && hasNonzeroDigit (settings.grouped (x.fixed settings.currencyDecimals.toNat))
          then ['-'] else [])
        ++ settings.currencySymbol.toList
        ++ settings.grouped (x.fixed settings.currencyDecimals.toNat) := rfl
  rw [hsplit] at hread
  obtain ⟨hbody, hnegative, hsteps⟩ := steps_of_numberView_shown hset hx hset.symbol hread
  have hsame : y.fixed settings.currencyDecimals.toNat
      = x.fixed settings.currencyDecimals.toNat := by
    unfold Binary64.fixed
    rw [hsteps]
  have hsign := sign_of_steps hbody (hx.of_steps hsteps) hnegative
  show sign (.finite y) (settings.grouped (y.fixed settings.currencyDecimals.toNat))
    ++ settings.currencySymbol.toList
    ++ settings.grouped (y.fixed settings.currencyDecimals.toNat) = _
  rw [hsame, hsign]
  rfl

/-- **A plain number that is read again is shown as it was.** -/
theorem number_of_numberView (x : Binary64)
    (hread : (Json.str (String.ofList (settings.number (.finite x)))).numberView = some y) :
    settings.number (.finite y) = settings.number (.finite x) := by
  have hmark := hset.exists_not_isDigit
  have hx := (FixedNumeral.says_fixed x 3).trimmed
  have hfront : IsApart [] := .inl (by simp)
  rw [number_eq hmark] at hread
  rw [← List.append_nil (sign _ _)] at hread
  obtain ⟨hbody, hnegative, hsteps⟩ := steps_of_numberView_shown hset hx hfront hread
  have hsame : y.fixed 3 = x.fixed 3 := by
    unfold Binary64.fixed
    rw [hsteps]
  have hsign := sign_of_steps hbody (hx.of_steps hsteps) hnegative
  rw [number_eq hmark, number_eq hmark, hsame, hsign]

end Amounts

section Values

/-- A value that a type does not see is shown as its text. -/
theorem formatValue_of_not_seen (settings : FormatSettings) {type : FieldType} {value : Json}
    (h : value.isSeenAs type = false) : settings.formatValue type value = value.textView := by
  cases type
  case text => rfl
  all_goals
    simp only [Json.isSeenAs, Option.isSome_eq_false_iff, Option.isNone_iff_eq_none] at h
    unfold formatValue
    dsimp only
    rw [h]

/-- No percentage is read as a number. -/
theorem numberView_percentage (x : Extended) :
    (Json.str (String.ofList (percentage x))).numberView = none := by
  have hsign : '%' ∈ percentage x := List.mem_append_right _ (List.mem_singleton_self _)
  rw [Json.numberView_ofList]
  exact Extended.finite?_read?_of_foreign (by decide) (Text.mem_trim_of_not_blank hsign (by decide))

variable {settings : FormatSettings} (hset : settings.Unmistakable)
include hset

/-- **A shown value that is seen again as a value of its type is shown as it was.** -/
theorem formatValue_of_seen_again {type : FieldType} {value : Json}
    (hseen : value.isSeenAs type = true)
    (hagain : (Json.str (settings.formatValue type value)).isSeenAs type = true) :
    settings.formatValue type (.str (settings.formatValue type value))
      = settings.formatValue type value := by
  cases type with
  | currency =>
      obtain ⟨x, hx⟩ := Option.isSome_iff_exists.mp hseen
      obtain ⟨y, hy⟩ := Option.isSome_iff_exists.mp hagain
      rw [formatValue_of_numberView settings rfl hy]
      rw [formatValue_of_numberView settings rfl hx] at hy ⊢
      exact congrArg String.ofList (currency_of_numberView hset x hy)
  | percentage =>
      obtain ⟨x, hx⟩ := Option.isSome_iff_exists.mp hseen
      obtain ⟨y, hy⟩ := Option.isSome_iff_exists.mp hagain
      rw [formatValue_of_numberView settings rfl hx] at hy
      exact absurd (hy.symm.trans (numberView_percentage _)) nofun
  | number =>
      obtain ⟨x, hx⟩ := Option.isSome_iff_exists.mp hseen
      obtain ⟨y, hy⟩ := Option.isSome_iff_exists.mp hagain
      rw [formatValue_of_numberView settings rfl hy]
      rw [formatValue_of_numberView settings rfl hx] at hy ⊢
      exact congrArg String.ofList (number_of_numberView hset x hy)
  | date =>
      obtain ⟨d, hd⟩ := Option.isSome_iff_exists.mp hseen
      obtain ⟨other, hother⟩ := Option.isSome_iff_exists.mp hagain
      rw [formatValue_date settings hother]
      rw [formatValue_date settings hd] at hother ⊢
      rw [Json.dateView_ofList] at hother
      rw [Pattern.read?_trim_of_isUnmistakable hset.dates hother]
  | boolean =>
      obtain ⟨b, hb⟩ := Option.isSome_iff_exists.mp hseen
      obtain ⟨other, hother⟩ := Option.isSome_iff_exists.mp hagain
      rw [formatValue_boolean settings hother]
      rw [formatValue_boolean settings hb] at hother ⊢
      exact hset.labels b other hother
  | text => cases hseen

end Values

/-- **Showing a shown value leaves it as it is**, for every type and for every value that may be
missing, if the settings are unmistakable. -/
theorem format_format {settings : FormatSettings} (h : settings.Unmistakable) (type : FieldType)
    (value : Option Json) :
    settings.format type (some (.str (settings.format type value)))
      = settings.format type value := by
  rw [format_eq settings type value, format_eq settings type (some _), Option.getD_some]
  generalize value.getD .null = value
  by_cases hseen : value.isSeenAs type = true
  · by_cases hagain : (Json.str (settings.formatValue type value)).isSeenAs type = true
    · exact formatValue_of_seen_again h hseen hagain
    · exact formatValue_of_not_seen settings (Bool.not_eq_true _ ▸ hagain)
  · have hunseen := Bool.not_eq_true _ ▸ hseen
    rw [formatValue_of_not_seen settings hunseen]
    exact formatValue_of_not_seen settings (Json.isSeenAs_textView hunseen)

/-- The usual settings are unmistakable: the dollar sign, the comma and the slashes of the pattern
stand in no number and no date. -/
theorem unmistakable_default : default.Unmistakable where
  symbol := .inr ⟨'$', by decide⟩
  thousands := .inr ⟨',', by decide⟩
  decimals := .inl (by decide)
  dates := by decide
  labels := by decide

/-- A number without thousands is read again from its text, and shown in the same way. -/
theorem format_format_default_without_thousands :
    default.Unmistakable ∧
      default.format .number (some (.str " -750.12504 ")) = "-750.125" ∧
      (Json.str "-750.125").isSeenAs .number = true ∧
      default.format .number
          (some (.str (default.format .number (some (.str " -750.12504 ")))))
        = default.format .number (some (.str " -750.12504 ")) :=
  ⟨unmistakable_default, by decide +kernel, by decide +kernel,
    format_format unmistakable_default .number _⟩

/-- Settings can be used although a shown value is mistaken for another one.  With a point between
the thousands `1.200` is read as a little more than one, and with hyphens between month, day and
year `01-02-24` as a day of the first year; a label can say the other truth value. -/
theorem format_changes_shown_values :
    let dotted := { default with thousandsSeparator := ".", decimalSeparator := "," }
    let hyphened := { default with dateFormat := "%m-%d-%y" }
    let crossed := { default with trueLabel := "no" }
    (dotted.fault? = none ∧
      dotted.format .number (some (.ofNat 1200)) = "1.200" ∧
      dotted.format .number (some (.str "1.200")) = "1,2") ∧
    (hyphened.fault? = none ∧
      hyphened.format .date (some (.str "2024-01-02")) = "01-02-24" ∧
      hyphened.format .date (some (.str "01-02-24")) = "02-24-01") ∧
    (crossed.fault? = none ∧
      crossed.format .boolean (some (.bool true)) = "no" ∧
      crossed.format .boolean (some (.str "no")) = "No") := by
  decide +kernel

end FormatSettings

end Reporting
