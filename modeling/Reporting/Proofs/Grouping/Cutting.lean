import Reporting.Proofs.Grouping.Key
import Reporting.Proofs.Json.Unambiguous
import Reporting.Proofs.Json.Printer

/-!
# Cutting group keys

A key is built path by path: every path but the first puts a separator behind what is there, and a
path with a value puts its text behind the separator (`key_concat`).  Since the separators are
removed from the text, cutting the key undoes this (`key_cutsInto`), wherever texts are empty and
whatever the values hold.

Only strings have something to lose.  Numbers are written without control characters, and in the
compact text of an array or an object those of its strings are escaped, the separator among them
(`Json.noControl_textView`).  So the part of such a value is all of its text, and arrays and objects
are even told apart as values.
-/

namespace Reporting

/-- The text of a finite number is written without control characters. -/
theorem Extended.noControl_displayChars (x : Binary64) :
    NoControl (Extended.finite x).displayChars := by
  unfold displayChars positionalText
  dsimp only
  split
  · exact noControl_of_ink fun _ hc => isInk_of_isNumeral (Text.isNumeral_of_mem_signedDigits hc)
  · have hpositional : NoControl (x.shortest .up).positional :=
      noControl_of_ink fun _ hc => isInk_of_isNumeral (Decimal.isNumeral_of_mem_positional hc)
    split <;> simp [hpositional]

namespace Json

/-- Whether a value is an array or an object. -/
def isContainer : Json → Bool
  | .arr _ | .obj _ => true
  | _ => false

theorem textView_container {value : Json} (h : value.isContainer = true) :
    value.textView = value.text := by
  cases value <;> first | rfl | cases h

/-- **Control characters come from strings.**  The text of any other value has none, even if there are
strings with control characters in it. -/
theorem noControl_textView {value : Json} (h : value.str? = none) :
    NoControl value.textView.toList := by
  cases value with
  | null => exact noControl_nil
  | bool b => cases b <;> simp [textView]
  | num n =>
      cases n with
      | whole n =>
          rw [textView, String.toList_ofList]
          exact noControl_of_ink fun _ => Number.isInk_of_mem_chars (n := .whole n)
      | real x =>
          rw [textView, String.toList_ofList]
          exact Extended.noControl_displayChars x
  | str s => cases h
  | arr items =>
      rw [textView_container rfl, text, String.toList_ofList]
      exact noControl_chars _
  | obj members =>
      rw [textView_container rfl, text, String.toList_ofList]
      exact noControl_chars _

end Json

namespace Grouping

/-! ## The text at a path -/

variable {record value : Json} {path : String}

/-- A value that is no string has no separator to lose. -/
theorem textAt_of_not_string (hvalue : record.resolve? path = some value)
    (hstring : value.str? = none) : textAt record path = value.textView.toList := by
  have hcontrol : ¬ 0x20 ≤ separator.toNat := by decide
  have hclean : separator ∉ value.textView.toList :=
    fun hmem => hcontrol (Json.noControl_textView hstring separator hmem)
  rw [textAt_of_resolve? hvalue, Text.erase_of_not_mem hclean]

/-- The text of an array or an object is its compact text. -/
theorem textAt_of_isContainer (hvalue : record.resolve? path = some value)
    (hcontainer : value.isContainer = true) : textAt record path = value.text.toList := by
  have hstring : value.str? = none := by
    cases value <;> first | rfl | cases hcontainer
  rw [textAt_of_not_string hvalue hstring, Json.textView_container hcontainer]

/-- Arrays and objects with the same text in a key are the same. -/
theorem eq_of_textAt_eq {other value' : Json} (hvalue : record.resolve? path = some value)
    (hvalue' : other.resolve? path = some value') (hcontainer : value.isContainer = true)
    (hcontainer' : value'.isContainer = true) (h : textAt record path = textAt other path) :
    value = value' := by
  rw [textAt_of_isContainer hvalue hcontainer, textAt_of_isContainer hvalue' hcontainer'] at h
  exact Json.text_injective (String.toList_injective h)

/-! ## Keys -/

/-- A key is built path by path: whether or not anything stands at a path that is added, a separator
stands in front of its text. -/
theorem key_concat {paths : List String} (hpaths : paths ≠ []) (path : String) (record : Json) :
    key (paths ++ [path]) record
      = key paths record ++ String.ofList (separator :: textAt record path) := by
  have hmap : paths.map (textAt record) ≠ [] := by simpa using hpaths
  unfold key
  rw [List.map_append, List.map_singleton, Text.join_concat _ hmap, String.ofList_append]

/-- The part of a key that belongs to a path is the text at the path. -/
theorem getElem?_parts_key {paths : List String} (hpaths : paths ≠ []) (record : Json)
    (i : Fin paths.length) :
    (parts (key paths record))[i.val]? = some (String.ofList (textAt record paths[i])) := by
  rw [parts_key hpaths, texts, List.getElem?_map, List.getElem?_eq_getElem i.isLt]
  rfl

/-- What comes out when the key of a record is cut at the separators, and what it tells of the
record. -/
structure CutsInto (paths : List String) (record : Json) : Prop where
  /-- A path more puts a separator behind the key and, if anything stands there, its text. -/
  step : ∀ path, key (paths ++ [path]) record
    = key paths record ++ String.ofList (separator :: textAt record path)
  /-- There is one part for each path, also for a path that is listed twice. -/
  length : (parts (key paths record)).length = paths.length
  /-- The part of a path is the text of what stands there, without separators. -/
  present : ∀ (i : Fin paths.length) (value : Json), record.resolve? paths[i] = some value →
    (parts (key paths record))[i.val]?
      = some (String.ofList (value.textView.toList.filter fun c => c ≠ '\x1f'))
  /-- The part of a path that leads nowhere is empty. -/
  missing : ∀ i : Fin paths.length, record.resolve? paths[i] = none →
    (parts (key paths record))[i.val]? = some ""
  /-- No other text is cut into these parts. -/
  only : ∀ text, parts text = parts (key paths record) → text = key paths record
  /-- Records have the same key exactly if all their parts are the same. -/
  same_iff : ∀ other, key paths record = key paths other ↔
    ∀ i : Fin paths.length, (parts (key paths record))[i.val]? = (parts (key paths other))[i.val]?
  /-- A value that is no string keeps all of its text, whatever is within it. -/
  whole : ∀ (i : Fin paths.length) (value : Json), record.resolve? paths[i] = some value →
    value.str? = none → (parts (key paths record))[i.val]? = some value.textView
  /-- Arrays and objects in the records of one key are the same. -/
  containers : ∀ other, key paths record = key paths other → ∀ path ∈ paths, ∀ value value',
    record.resolve? path = some value → other.resolve? path = some value' →
    value.isContainer = true → value'.isContainer = true → value = value'

/-- **Cutting a key undoes building it.**  If there are paths to group by, a key is cut into as many
parts as there are paths, each of them the text of what stands at its path without the separators, or
nothing; so records with one key have the same parts. -/
theorem key_cutsInto {paths : List String} (hpaths : paths ≠ []) (record : Json) :
    CutsInto paths record := by
  have hpart := getElem?_parts_key hpaths
  have hsame := key_eq_key_iff_textAt hpaths record
  constructor
  case step => exact fun path => key_concat hpaths path record
  case length => rw [parts_key hpaths, texts, List.length_map]
  case present =>
    intro i value hvalue
    rw [hpart, textAt_of_resolve? hvalue]
    rfl
  case missing =>
    intro i hmissing
    rw [hpart, textAt_of_missing hmissing, String.ofList_nil]
  case only => exact fun text htext => parts_injective htext
  case same_iff =>
    intro other
    constructor
    · intro hkey i
      rw [hkey]
    · intro hparts
      refine (hsame other).mpr fun path hpath => ?_
      obtain ⟨n, hn, rfl⟩ := List.getElem_of_mem hpath
      have hat := hparts ⟨n, hn⟩
      rw [hpart, hpart] at hat
      exact String.ofList_injective (Option.some.inj hat)
  case whole =>
    intro i value hvalue hstring
    rw [hpart, textAt_of_not_string hvalue hstring, String.ofList_toList]
  case containers =>
    intro other hkey path hpath value value' hvalue hvalue' hcontainer hcontainer'
    exact eq_of_textAt_eq hvalue hvalue' hcontainer hcontainer' ((hsame other).mp hkey path hpath)

/-- The theorem at a deal with separators in its city and its tags and without a stage, where a path
is listed twice. -/
theorem key_cutsInto_separators_and_gap :
    let paths := ["stage", "city", "tags", "city", "stage"]
    let deal : Json := .obj [("city", .str "Du\x1fbai"), ("tags", .arr [.str "\x1f"])]
    paths ≠ [] ∧ CutsInto paths deal ∧
      parts (key paths deal) = ["", "Dubai", "[\"\\u001f\"]", "Dubai", ""] := by
  intro paths deal
  have hpaths : paths ≠ [] := List.cons_ne_nil _ _
  have hcut := key_cutsInto hpaths deal
  exact ⟨hpaths, hcut, by decide⟩

end Grouping

end Reporting
