import Reporting.Proofs.Json.Printer
import Reporting.Proofs.Store.History
import Reporting.Proofs.Store.Lines
import Reporting.Proofs.Text.Utf8

/-!
# Importing is inserting what the lines say

A file is read line by line, and nothing is written unless every line that is not blank is JSON.
Then the file does to the tables what inserting the values of these lines does, in their order
(`Database.importFile_ofUtf8`).

A file of records can be laid out in many ways: with either line end, with blank lines anywhere,
with or without an end of the last line.  Compact text never holds a line end, whatever the strings
of a record hold, so every layout has one line for each record and is read as the same records
(`FileLayout.filledLines_text`).
-/

namespace Reporting

namespace Text

/-- Whether a line is to be read: it is, unless it is blank. -/
def isFilled (line : List Char) : Bool :=
  !line.all isBlank

/-- The lines of a text that are not blank. -/
def filledLines (text : String) : List String :=
  ((lines text.toList).filter isFilled).map String.ofList

end Text

namespace FileContent

/-- The file that holds a text in UTF-8. -/
def ofUtf8 (text : String) : FileContent :=
  ofBytes text.toUTF8.data.toList

theorem characters?_map_some (cs : List Char) : characters? (cs.map some) = some cs := by
  induction cs with
  | nil => rfl
  | cons c rest ih => simp [characters?, ih]

/-- Lines of text are read if all of them that are filled are JSON, and then as their values. -/
theorem readLines_eq_ok_iff {lines : List (List Char)} {records : List Json} :
    readLines (lines.map (List.map some)) = .ok records ↔
      List.Forall₂ (fun line record => Json.read? line = some record)
        ((lines.filter Text.isFilled).map String.ofList) records := by
  induction lines generalizing records with
  | nil =>
      constructor
      · intro h
        cases h
        exact .nil
      · intro h
        cases h
        rfl
  | cons line rest ih =>
      rw [List.map_cons, readLines, characters?_map_some]
      by_cases hblank : line.all Text.isBlank = true
      · have hskip : ¬Text.isFilled line = true := by simp [Text.isFilled, hblank]
        simp only [hblank, if_true, List.filter_cons_of_neg hskip]
        exact ih
      · have hkeep : Text.isFilled line = true := by simpa [Text.isFilled] using hblank
        simp only [hblank, List.filter_cons_of_pos hkeep, List.map_cons, List.forall₂_cons_left_iff]
        constructor
        · intro h
          cases hread : Json.read? (String.ofList line) with
          | none => simp [hread] at h
          | some record =>
              cases hrest : readLines (rest.map (List.map some)) with
              | error reason => simp [hread, hrest, Except.map] at h
              | ok others =>
                  simp [hread, hrest, Except.map] at h
                  exact ⟨record, others, rfl, ih.mp hrest, h.symm⟩
        · rintro ⟨record, others, hread, hothers, rfl⟩
          simp [hread, ih.mpr hothers, Except.map]

/-- **The records of a file** with a text are the values of the lines of the text that are
filled. -/
theorem records_ofUtf8_eq_ok_iff {text : String} {records : List Json} :
    (ofUtf8 text).records = .ok records ↔
      List.Forall₂ (fun line record => Json.read? line = some record) (Text.filledLines text)
        records := by
  unfold FileContent.records ofUtf8 ofBytes
  rw [Text.decodeUtf8_toUTF8, lines_map_some]
  exact readLines_eq_ok_iff

/-- A line that cannot be read: a byte of it belongs to no character, or it is neither blank nor
JSON. -/
def IsBad (line : FileContent) : Prop :=
  none ∈ line ∨ ∃ cs : List Char, line = cs.map some ∧ Text.isFilled cs = true ∧
    Json.read? (String.ofList cs) = none

theorem characters?_eq_none {line : FileContent} (h : characters? line = none) : none ∈ line := by
  induction line with
  | nil => cases h
  | cons c rest ih =>
      cases c with
      | none => exact List.mem_cons_self
      | some c => exact List.mem_cons_of_mem _ (ih (by simpa [characters?] using h))

theorem eq_map_of_characters? {line : FileContent} {cs : List Char}
    (h : characters? line = some cs) : line = cs.map some := by
  induction line generalizing cs with
  | nil =>
      cases h
      rfl
  | cons c rest ih =>
      cases c with
      | none => cases h
      | some c =>
          obtain ⟨more, hmore, rfl⟩ := Option.map_eq_some_iff.mp h
          rw [List.map_cons, ← ih hmore]

/-- A line of text is bad if it is filled and not JSON. -/
theorem isBad_map_some {cs : List Char} :
    IsBad (cs.map some) ↔ Text.isFilled cs = true ∧ Json.read? (String.ofList cs) = none := by
  constructor
  · rintro (hmem | ⟨ds, heq, hfilled, hread⟩)
    · simp at hmem
    · obtain rfl : cs = ds := List.map_injective_iff.mpr (fun _ _ => Option.some.inj) heq
      exact ⟨hfilled, hread⟩
  · rintro ⟨hfilled, hread⟩
    exact Or.inr ⟨cs, rfl, hfilled, hread⟩

/-- Reading fails at the first bad line, however many good ones come before it, and at no other. -/
theorem exists_readLines_eq_error_iff {lines : List FileContent} :
    (∃ reason, readLines lines = .error reason) ↔ ∃ line ∈ lines, IsBad line := by
  induction lines with
  | nil => simp [readLines]
  | cons line rest ih =>
      have hcons : (∃ l ∈ line :: rest, IsBad l) ↔ IsBad line ∨ ∃ l ∈ rest, IsBad l := by simp
      rw [hcons, ← ih, readLines]
      cases hchars : characters? line with
      | none =>
          have hbad : IsBad line := Or.inl (characters?_eq_none hchars)
          simp [hbad]
      | some cs =>
          obtain rfl := eq_map_of_characters? hchars
          rw [isBad_map_some]
          by_cases hblank : cs.all Text.isBlank = true
          · simp [hblank, Text.isFilled]
          · have hfilled : Text.isFilled cs = true := by simpa [Text.isFilled] using hblank
            simp only [hblank, hfilled, true_and]
            cases hread : Json.read? (String.ofList cs) with
            | none => simp
            | some record => cases readLines rest <;> simp [Except.map]

theorem exists_mem_consFirst {c : Option Char} {lines : List FileContent} :
    (∃ line ∈ consFirst c lines, none ∈ line) ↔ c = none ∨ ∃ line ∈ lines, none ∈ line := by
  cases lines with
  | nil => simp [consFirst, eq_comm]
  | cons line rest => simp [consFirst, eq_comm, or_assoc]

/-- No byte gets lost between the lines, except for line ends. -/
theorem exists_mem_lines_iff (content : FileContent) :
    (∃ line ∈ content.lines, none ∈ line) ↔ none ∈ content := by
  fun_induction FileContent.lines content with
  | case1 => simp
  | case2 rest ih => simpa using ih
  | case3 rest ih => simpa using ih
  | case4 c rest _ _ ih => rw [exists_mem_consFirst, ih, List.mem_cons, eq_comm]

/-- **What makes a file unreadable**: a byte that belongs to no character, or a line that is neither
blank nor JSON. -/
theorem exists_records_eq_error_iff (content : FileContent) :
    (∃ reason, content.records = .error reason) ↔
      none ∈ content ∨ ∃ cs : List Char, cs.map some ∈ content.lines ∧ Text.isFilled cs = true ∧
        Json.read? (String.ofList cs) = none := by
  unfold FileContent.records
  rw [exists_readLines_eq_error_iff, ← exists_mem_lines_iff]
  constructor
  · rintro ⟨line, hline, hnone | ⟨cs, rfl, hbad⟩⟩
    · exact Or.inl ⟨line, hline, hnone⟩
    · exact Or.inr ⟨cs, hline, hbad⟩
  · rintro (⟨line, hline, hnone⟩ | ⟨cs, hline, hbad⟩)
    · exact ⟨line, hline, Or.inl hnone⟩
    · exact ⟨_, hline, isBad_map_some.mpr hbad⟩

end FileContent

/-- Lines have values together if each of them has one. -/
theorem exists_forall₂_iff {α β : Type} {r : α → β → Prop} {xs : List α} :
    (∃ ys, List.Forall₂ r xs ys) ↔ ∀ x ∈ xs, ∃ y, r x y := by
  induction xs with
  | nil => simp
  | cons x rest ih =>
      rw [List.forall_mem_cons, ← ih]
      constructor
      · rintro ⟨_, h⟩
        cases h with
        | cons hfirst hrest => exact ⟨⟨_, hfirst⟩, ⟨_, hrest⟩⟩
      · rintro ⟨⟨y, hfirst⟩, ⟨ys, hrest⟩⟩
        exact ⟨y :: ys, .cons hfirst hrest⟩

/-! ## Layouts -/

/-- How a line ends. -/
inductive LineEnd where
  | feed
  | returnFeed
  deriving DecidableEq

/-- A line of a file of records: the compact text of a record, or nothing but blanks. -/
inductive LayoutLine where
  | record (json : Json)
  | blank (cs : List Char) (hblank : cs.all Text.isBlank = true) (hfeed : '\n' ∉ cs)

/-- A file of records: lines with their ends, and perhaps a last line without an end. -/
structure FileLayout where
  lines : List (LayoutLine × LineEnd)
  last : Option LayoutLine

namespace LineEnd

/-- The characters of a line end. -/
def chars : LineEnd → List Char
  | feed => ['\n']
  | returnFeed => ['\r', '\n']

end LineEnd

namespace LayoutLine

/-- The characters of a line. -/
def chars : LayoutLine → List Char
  | record json => json.chars
  | blank cs _ _ => cs

/-- The record on a line. -/
def record? : LayoutLine → Option Json
  | record json => some json
  | blank _ _ _ => none

/-- A line holds no line feed. -/
theorem feed_not_mem_chars (line : LayoutLine) : '\n' ∉ line.chars := by
  intro hmem
  cases line with
  | record json =>
      have hcontrol : 0x20 ≤ '\n'.toNat := Json.noControl_chars json '\n' hmem
      revert hcontrol
      decide
  | blank cs hblank hfeed => exact hfeed hmem

/-- What is left to read of a line: the text of its record. -/
theorem filter_isFilled_chars (line : LayoutLine) :
    [line.chars].filter Text.isFilled = (line.record?.map Json.chars).toList := by
  cases line with
  | record json =>
      have hfilled : Text.isFilled json.chars = true := by
        simp [Text.isFilled, Json.not_all_isBlank_chars json]
      simp [chars, record?, hfilled]
  | blank cs hblank hfeed => simp [chars, record?, Text.isFilled, hblank]

/-- The line feed may take a carriage return of the line with it, but none of a record. -/
theorem filter_isFilled_dropReturn (line : LayoutLine) :
    [Text.dropReturn line.chars].filter Text.isFilled
      = (line.record?.map Json.chars).toList := by
  rw [← line.filter_isFilled_chars]
  cases line with
  | record json =>
      have hlast : json.chars.getLast? ≠ some '\r' := by
        intro hlast
        have hcontrol : 0x20 ≤ '\r'.toNat :=
          Json.noControl_chars json '\r' (List.mem_of_getLast? hlast)
        revert hcontrol
        decide
      rw [chars, Text.dropReturn_of_getLast? hlast]
  | blank cs hblank hfeed =>
      have hdropped : (Text.dropReturn cs).all Text.isBlank = true :=
        Text.all_isBlank_dropReturn hblank
      simp [chars, Text.isFilled, hblank, hdropped]

end LayoutLine

namespace FileLayout

/-- The characters of a file. -/
def chars (layout : FileLayout) : List Char :=
  layout.lines.flatMap (fun line => line.1.chars ++ line.2.chars)
    ++ (layout.last.map LayoutLine.chars).getD []

/-- The text of a file. -/
def text (layout : FileLayout) : String :=
  String.ofList layout.chars

/-- The records of a file, in their order. -/
def records (layout : FileLayout) : List Json :=
  (layout.lines.map Prod.fst ++ layout.last.toList).filterMap LayoutLine.record?

/-- What is to be read of a line with its end and of what follows. -/
theorem filter_lines_append (line : LayoutLine) (ending : LineEnd) (rest : List Char) :
    (Text.lines (line.chars ++ ending.chars ++ rest)).filter Text.isFilled
      = (line.record?.map Json.chars).toList ++ (Text.lines rest).filter Text.isFilled := by
  cases ending with
  | feed =>
      have hlines := Text.lines_append_feed line.feed_not_mem_chars rest
      rw [LineEnd.chars, List.append_assoc, List.singleton_append, hlines,
        ← line.filter_isFilled_dropReturn, ← List.filter_append]
      rfl
  | returnFeed =>
      have hfeed : '\n' ∉ line.chars ++ ['\r'] := by
        simp [line.feed_not_mem_chars]
      have hlines := Text.lines_append_feed hfeed rest
      have hchars : line.chars ++ LineEnd.returnFeed.chars ++ rest
          = line.chars ++ ['\r'] ++ '\n' :: rest := by simp [LineEnd.chars]
      rw [hchars, hlines, Text.dropReturn_concat, ← line.filter_isFilled_chars,
        ← List.filter_append]
      rfl

/-- What is to be read of the last line, if there is one. -/
theorem filter_lines_last (last : Option LayoutLine) :
    (Text.lines ((last.map LayoutLine.chars).getD [])).filter Text.isFilled
      = (last.toList.filterMap LayoutLine.record?).map Json.chars := by
  cases last with
  | none => rfl
  | some line =>
      have hchars : (Text.lines line.chars).filter Text.isFilled
          = [line.chars].filter Text.isFilled := by
        rw [Text.lines_of_not_mem line.feed_not_mem_chars]
        split
        · rename_i hnil
          rw [hnil]
          rfl
        · rfl
      show (Text.lines line.chars).filter Text.isFilled = _
      rw [hchars, line.filter_isFilled_chars]
      cases hrecord : line.record? <;> simp [hrecord]

/-- **Every layout has one filled line for each record,** with the compact text of the record. -/
theorem filledLines_text (layout : FileLayout) :
    Text.filledLines layout.text = layout.records.map Json.text := by
  obtain ⟨lines, last⟩ := layout
  have hchars : (Text.lines (FileLayout.chars ⟨lines, last⟩)).filter Text.isFilled
      = (FileLayout.records ⟨lines, last⟩).map Json.chars := by
    unfold FileLayout.chars FileLayout.records
    simp only
    induction lines with
    | nil => exact filter_lines_last last
    | cons line rest ih =>
        obtain ⟨line, ending⟩ := line
        rw [List.flatMap_cons, List.append_assoc, filter_lines_append, ih]
        cases hrecord : line.record? <;> simp [hrecord]
  unfold Text.filledLines text
  rw [String.toList_ofList, hchars, List.map_map]
  rfl

end FileLayout

namespace Database

/-- A file whose filled lines are read as some records does what inserting the records does. -/
theorem importFile_of_forall₂ (db : Database) (b : BuiltIn) {text : String} {records : List Json}
    (h : List.Forall₂ (fun line record => Json.read? line = some record) (Text.filledLines text)
      records) :
    ∃ after, db.insertRecords (.builtIn b) records = .ok after ∧
      db.importFile (.builtIn b) (some (.ofUtf8 text)) = .ok (records.length, after) := by
  refine ⟨_, rfl, ?_⟩
  rw [importFile_some, FileContent.records_ofUtf8_eq_ok_iff.mpr h]
  rfl

/-- **Importing a text is inserting the values of its filled lines.**  Importing into a built-in
source succeeds if every line that is not blank is JSON and in no other case, and then tables and
count are those of inserting the values of these lines in their order.  In particular records whose
texts read back may be laid out in a file in any way: importing it is inserting them. -/
theorem importFile_ofUtf8 (db : Database) (b : BuiltIn) :
    (∀ text : String,
      ((∃ done, db.importFile (.builtIn b) (some (.ofUtf8 text)) = .ok done) ↔
        ∀ line ∈ Text.filledLines text, ∃ record, Json.read? line = some record) ∧
      ∀ records : List Json,
        List.Forall₂ (fun line record => Json.read? line = some record) (Text.filledLines text)
          records →
        ∃ after, db.insertRecords (.builtIn b) records = .ok after ∧
          db.importFile (.builtIn b) (some (.ofUtf8 text)) = .ok (records.length, after)) ∧
    ∀ layout : FileLayout, (∀ record ∈ layout.records, record.ReadsBack) →
      ∃ after, db.insertRecords (.builtIn b) layout.records = .ok after ∧
        db.importFile (.builtIn b) (some (.ofUtf8 layout.text))
          = .ok (layout.records.length, after) := by
  refine ⟨fun text => ⟨?_, fun records h => db.importFile_of_forall₂ b h⟩, fun layout h => ?_⟩
  · rw [← exists_forall₂_iff]
    constructor
    · rintro ⟨done, hdone⟩
      rw [importFile_some] at hdone
      cases hrecords : (FileContent.ofUtf8 text).records with
      | error reason => simp [hrecords] at hdone
      | ok records => exact ⟨records, FileContent.records_ofUtf8_eq_ok_iff.mp hrecords⟩
    · rintro ⟨records, hrecords⟩
      obtain ⟨after, _, himport⟩ := db.importFile_of_forall₂ b hrecords
      exact ⟨_, himport⟩
  · refine db.importFile_of_forall₂ b ?_
    rw [layout.filledLines_text, List.forall₂_map_left_iff, List.forall₂_same]
    exact h

/-- The theorem at a text with a blank line and a last line that lacks its end, and at a file of a
record with a line feed in a string. -/
theorem importFile_ofUtf8_line_feed_in_string :
    let db : Database := ⟨[⟨7, none, "0"⟩], [], [], []⟩
    let text := "null\r\n\u00a0\n[null]"
    let values : List Json := [.null, .arr [.null]]
    let layout : FileLayout :=
      ⟨[(.blank ['\u2003', '\r'] (by decide) (by decide), .feed),
        (.record (.obj [("name", .str "a\nb\r")]), .returnFeed)], some (.record .null)⟩
    List.Forall₂ (fun line record => Json.read? line = some record) (Text.filledLines text) values ∧
    (∀ record ∈ layout.records, record.ReadsBack) ∧
    (∃ after, db.insertRecords (.builtIn .deals) values = .ok after ∧
      db.importFile (.builtIn .deals) (some (.ofUtf8 text)) = .ok (2, after)) ∧
    ∃ after, db.insertRecords (.builtIn .deals) layout.records = .ok after ∧
      db.importFile (.builtIn .deals) (some (.ofUtf8 layout.text)) = .ok (2, after) := by
  intro db text values layout
  have hfilled : (Text.lines "null\r\n\u00a0\n[null]".toList).filter Text.isFilled
      = ["null".toList, "[null]".toList] := by rfl
  have hlines : Text.filledLines text = ["null", "[null]"] := by
    show List.map String.ofList _ = _
    rw [hfilled]
    simp
  have hnull : Json.read? "null" = some .null := by cbv
  have harray : Json.read? "[null]" = some (.arr [.null]) := by cbv
  have hvalues : List.Forall₂ (fun line record => Json.read? line = some record)
      (Text.filledLines text) values := by
    rw [hlines]
    exact .cons hnull (.cons harray .nil)
  have hobject : (Json.obj [("name", .str "a\nb\r")]).ReadsBack := by unfold Json.ReadsBack; cbv
  have hlast : Json.null.ReadsBack := by unfold Json.ReadsBack; cbv
  have hback : ∀ record ∈ layout.records, record.ReadsBack := by
    have hrecords : layout.records = [.obj [("name", .str "a\nb\r")], .null] := rfl
    rw [hrecords]
    intro record hrecord
    simp only [List.mem_cons, List.not_mem_nil, or_false] at hrecord
    rcases hrecord with rfl | rfl
    · exact hobject
    · exact hlast
  have himport := importFile_ofUtf8 db .deals
  exact ⟨hvalues, hback, (himport.1 text).2 values hvalues, himport.2 layout hback⟩

end Database

end Reporting
