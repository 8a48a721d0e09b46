import Reporting.Proofs.Binary64.Whole
import Reporting.Proofs.Json.Numeral
import Reporting.Proofs.Keyed
import Reporting.Sql.Result

/-!
# Integers in query results

A cell of a signed type, or of the widest unsigned one, is read as a value that denotes its integer,
so no two integers are confused (`QueryResult.reads_integers`).  The value is a number, except for an
integer of 128 bits that a signed word of 64 bits cannot hold, which is read as its decimal text.

Cells of the unsigned types of 8, 16 and 32 bits are read as `null`, whatever they hold
(`QueryResult.loses_unsigned_integers`).
-/

namespace Reporting

/-- The integer that a value denotes: that of a number, or that of a decimal text. -/
inductive Json.IsInteger : Json → Int → Prop
  | number (n : Whole) : IsInteger (.num (.whole n)) n.val
  | text (n : Int) : IsInteger (.str (String.ofList (Text.signedDigits n))) n

/-- **A value denotes one integer at most.** -/
theorem Json.IsInteger.unique {value : Json} {m n : Int} (hm : value.IsInteger m)
    (hn : value.IsInteger n) : m = n := by
  cases hm with
  | number => cases hn; rfl
  | text =>
      generalize htext : String.ofList (Text.signedDigits m) = s at hn
      cases hn
      exact Text.signedDigits_injective (String.ofList_injective htext)

namespace IntegerType

/-- Whether cells of a type are read as integers. -/
def isRead : IntegerType → Bool
  | .tiny | .small | .integer | .big | .huge | .unsignedBig => true
  | .unsignedTiny | .unsignedSmall | .unsignedInteger | .unsignedHuge => false

/-- A type of 64 bits or less fits a word of 64 bits, with or without a sign. -/
theorem word_of_holds {type : IntegerType} (hbits : type.bits ≤ 64) {n : Int}
    (h : type.holds n = true) : -9223372036854775808 ≤ n ∧ n ≤ 18446744073709551615 := by
  have hrange : -9223372036854775808 ≤ type.least ∧ type.greatest ≤ 18446744073709551615 := by
    cases type <;> first | decide | exact absurd hbits (by decide)
  simp only [holds, Bool.and_eq_true, decide_eq_true_eq] at h
  omega

end IntegerType

namespace Cell

variable {type : IntegerType} {n : Int}

/-- **A cell of a type that is read** becomes a number, or the text of an integer that a signed word of
64 bits does not hold. -/
theorem json_of_isRead (hread : type.isRead = true) (hholds : type.holds n = true) :
    (∃ whole : Whole, (integer type n).json = .num (.whole whole) ∧ whole.val = n) ∨
      type = .huge ∧ IntegerType.big.holds n = false ∧
        (integer type n).json = .str (String.ofList (Text.signedDigits n)) := by
  have hnumber (hbits : type.bits ≤ 64) :
      ∃ whole : Whole, Json.ofInt n = .num (.whole whole) ∧ whole.val = n := by
    obtain ⟨hlower, hupper⟩ := IntegerType.word_of_holds hbits hholds
    exact ⟨⟨n, hlower, hupper⟩, Json.ofInt_eq_whole hlower hupper, rfl⟩
  cases type
  case huge =>
    by_cases hword : IntegerType.big.holds n = true
    · obtain ⟨hlower, hupper⟩ := IntegerType.word_of_holds (by decide) hword
      refine .inl ⟨⟨n, hlower, hupper⟩, ?_, rfl⟩
      rw [json, if_pos hword, Json.ofInt_eq_whole hlower hupper]
    · exact .inr ⟨rfl, Bool.not_eq_true _ ▸ hword, if_neg hword⟩
  case unsignedTiny | unsignedSmall | unsignedInteger | unsignedHuge => cases hread
  all_goals exact .inl (hnumber (by decide))

/-- A cell of an unsigned type of at most 32 bits becomes `null`. -/
theorem json_of_narrow (hsigned : type.isSigned = false) (hbits : type.bits ≤ 32) :
    (integer type n).json = .null := by
  cases type
  case unsignedTiny | unsignedSmall | unsignedInteger => rfl
  case unsignedBig | unsignedHuge => exact absurd hbits (by decide)
  all_goals cases hsigned

/-- A cell of a type that is read denotes its integer. -/
theorem isInteger_json (hread : type.isRead = true) (hholds : type.holds n = true) :
    (integer type n).json.IsInteger n := by
  rcases json_of_isRead hread hholds with ⟨whole, hjson, rfl⟩ | ⟨-, -, hjson⟩
  · rw [hjson]
    exact .number whole
  · rw [hjson]
    exact .text n

end Cell

namespace QueryResult

variable (result : QueryResult)

/-- The value under a name in the row with some number. -/
def value? (place : Nat) (name : String) : Option Json :=
  result.records[place]?.bind (Keyed.find? name)

/-- The answers for a cell of a result: the value under the name of its column, unless a later column
has the same name, and the result's one value if it is the first cell of the first row. -/
inductive Answers (cell : Cell) : Option Json → Prop
  | inRecord (place column : Nat) {row : List Cell} {name : String}
      (hrow : result.rows[place]? = some row) (hcell : row[column]? = some cell)
      (hname : result.columns[column]? = some name)
      (hlast : name ∉ result.columns.drop (column + 1)) : Answers cell (result.value? place name)
  | scalar {row : List Cell} (hrow : result.rows.head? = some row)
      (hcell : row.head? = some cell) : Answers cell result.scalar?

/-- **Every cell is answered with its value.** -/
theorem Answers.eq_json {result : QueryResult} {cell : Cell} {answer : Option Json}
    (h : result.Answers cell answer) : answer = some cell.json := by
  cases h with
  | inRecord place column hrow hcell hname hlast =>
      rename_i row name
      have hentry : (result.columns.zip (row.map Cell.json))[column]? = some (name, cell.json) := by
        rw [List.getElem?_zip_eq_some, List.getElem?_map, hcell]
        exact ⟨hname, rfl⟩
      obtain ⟨hlength, hentry⟩ := List.getElem?_eq_some_iff.mp hentry
      have hsplit := List.take_append_drop column (result.columns.zip (row.map Cell.json))
      rw [List.drop_eq_getElem_cons hlength, hentry] at hsplit
      have hrest : name ∉ ((result.columns.zip (row.map Cell.json)).drop (column + 1)).map Prod.fst := by
        intro hkey
        obtain ⟨⟨key, value⟩, hlater, rfl⟩ := List.mem_map.mp hkey
        rw [List.zip, List.drop_zipWith] at hlater
        exact hlast (List.of_mem_zip hlater).1
      unfold value? records
      rw [List.getElem?_map, hrow, Option.map_some, Option.bind_some, ← hsplit,
        Keyed.find?_ofList_append _ hrest]
  | @scalar row hrow hcell =>
      unfold scalar?
      rw [hrow, Option.bind_some, hcell, Option.map_some]

/-- **Integers in query results.**  A cell of a signed type, or of the widest unsigned one, is answered
with a value that denotes its integer: a number, or the text of an integer of 128 bits that a signed
word of 64 bits does not hold.  Hence cells of these types with different integers are answered with
values that denote different integers.  A cell of an unsigned type of 8, 16 or 32 bits is answered with
`null`, like a cell that holds nothing. -/
theorem reads_integers (result other : QueryResult) :
    (∀ {type : IntegerType} {n : Int} {answer : Option Json}, type.isRead = true →
      type.holds n = true → result.Answers (.integer type n) answer →
        ∃ value, answer = some value ∧ value.IsInteger n ∧
          ((∃ whole : Whole, value = .num (.whole whole)) ∨
            type = .huge ∧ IntegerType.big.holds n = false ∧
              value = .str (String.ofList (Text.signedDigits n)))) ∧
    (∀ {type type' : IntegerType} {m n : Int} {value value' : Json}, type.isRead = true →
      type'.isRead = true → type.holds m = true → type'.holds n = true → m ≠ n →
        result.Answers (.integer type m) (some value) →
        other.Answers (.integer type' n) (some value') →
          ∀ k, ¬ (value.IsInteger k ∧ value'.IsInteger k)) ∧
    (∀ {type : IntegerType} {n : Int} {answer : Option Json}, type.isSigned = false →
      type.bits ≤ 32 → result.Answers (.integer type n) answer → answer = some .null) ∧
    ∀ {answer : Option Json}, result.Answers .null answer → answer = some .null := by
  refine ⟨?read, ?distinct, ?narrow, fun hanswer => hanswer.eq_json⟩
  case read =>
    intro type n answer hread hholds hanswer
    refine ⟨_, hanswer.eq_json, Cell.isInteger_json hread hholds, ?_⟩
    rcases Cell.json_of_isRead hread hholds with ⟨whole, hjson, -⟩ | hwide
    · exact .inl ⟨whole, hjson⟩
    · exact .inr hwide
  case distinct =>
    intro type type' m n value value' hread hread' hm hn hne hanswer hanswer' k ⟨hk, hk'⟩
    have hvalue := Option.some.inj hanswer.eq_json
    have hvalue' := Option.some.inj hanswer'.eq_json
    have hsame : m = k := (hvalue ▸ Cell.isInteger_json hread hm).unique hk
    have hsame' : n = k := (hvalue' ▸ Cell.isInteger_json hread' hn).unique hk'
    exact hne (hsame.trans hsame'.symm)
  case narrow =>
    intro type n answer hsigned hbits hanswer
    rw [hanswer.eq_json, Cell.json_of_narrow hsigned hbits]

/-- A row with the least integer of 8 bits, with the first one beyond the signed words of 64 bits, and
with an unsigned one of 8 bits. -/
theorem reads_integers_of_three_types :
    let result : QueryResult :=
      ⟨["least", "beyond", "narrow"],
        [[.integer .tiny (-128), .integer .huge 9223372036854775808, .integer .unsignedTiny 7]],
        by decide, by decide⟩
    (∃ value, result.scalar? = some value ∧ value.IsInteger (-128)) ∧
      (∃ value, result.value? 0 "beyond" = some value ∧ value.IsInteger 9223372036854775808) ∧
      result.value? 0 "narrow" = some .null := by
  intro result
  have hfirst : result.Answers (.integer .tiny (-128)) result.scalar? := .scalar rfl rfl
  have hsecond : result.Answers (.integer .huge 9223372036854775808) (result.value? 0 "beyond") :=
    .inRecord 0 1 rfl rfl rfl (by decide)
  have hthird : result.Answers (.integer .unsignedTiny 7) (result.value? 0 "narrow") :=
    .inRecord 0 2 rfl rfl rfl (by decide)
  obtain ⟨hread, -, hlost, -⟩ := reads_integers result result
  obtain ⟨least, hleast, hminus, -⟩ := hread (by decide) (by decide) hfirst
  obtain ⟨beyond, hbeyond, hwide, -⟩ := hread (by decide) (by decide) hsecond
  exact ⟨⟨least, hleast, hminus⟩, ⟨beyond, hbeyond, hwide⟩, hlost (by decide) (by decide) hthird⟩

/-- **Unsigned integers of 8, 16 and 32 bits are lost**: different ones are answered with the same
`null`. -/
theorem loses_unsigned_integers :
    let result : QueryResult :=
      ⟨["tiny", "small", "integer", "other"],
        [[.integer .unsignedTiny 7, .integer .unsignedSmall 7, .integer .unsignedInteger 7,
          .integer .unsignedTiny 8]],
        by decide, by decide⟩
    (IntegerType.unsignedTiny.holds 7 = true ∧ IntegerType.unsignedTiny.holds 8 = true ∧
      IntegerType.unsignedSmall.holds 7 = true ∧ IntegerType.unsignedInteger.holds 7 = true) ∧
      result.scalar? = some .null ∧ result.value? 0 "tiny" = some .null ∧
      result.value? 0 "small" = some .null ∧ result.value? 0 "integer" = some .null ∧
      result.value? 0 "other" = some .null := by
  intro result
  have htiny : result.Answers (.integer .unsignedTiny 7) (result.value? 0 "tiny") :=
    .inRecord 0 0 rfl rfl rfl (by decide)
  have hsmall : result.Answers (.integer .unsignedSmall 7) (result.value? 0 "small") :=
    .inRecord 0 1 rfl rfl rfl (by decide)
  have hinteger : result.Answers (.integer .unsignedInteger 7) (result.value? 0 "integer") :=
    .inRecord 0 2 rfl rfl rfl (by decide)
  have hother : result.Answers (.integer .unsignedTiny 8) (result.value? 0 "other") :=
    .inRecord 0 3 rfl rfl rfl (by decide)
  exact ⟨by decide, rfl, htiny.eq_json, hsmall.eq_json, hinteger.eq_json, hother.eq_json⟩

end QueryResult

end Reporting
