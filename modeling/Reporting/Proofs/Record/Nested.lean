import Reporting.Filter.Match
import Reporting.Grouping.Group
import Reporting.Projection
import Reporting.Proofs.Record.Path

/-!
# Nested paths

A path leads from a record inwards through objects (`Json.LeadsTo`), key by key, so what stands at a
nested path is what stands at its inner part in the value at its outer part.  Everything that reads a
path reads this value (`Json.SeenAt`): rules, the keys of groups, aggregations and fields.  They
differ in what they make of `null`, which is a value for all of them but the rules, and a field reads
nothing from the records of another source.
-/

namespace Reporting

/-- The answer of a rule about what stands at its path.  To a rule `null` is nothing. -/
def FilterRule.answer (rule : FilterRule) : Option Json → Bool
  | none | some .null => rule.operator == .isNull
  | some value => rule.acceptsValue value

/-- The text in the key of a group of what stands at a path. -/
def Grouping.textOf : Option Json → List Char
  | some value => Text.erase separator value.textView.toList
  | none => []

namespace Json

/-- Some keys lead from a value to one within it.  Only an object has values under keys. -/
inductive LeadsTo : Json → List String → Json → Prop
  | here (json : Json) : LeadsTo json [] json
  | member {members : Members} {key : String} {keys : List String} {inner value : Json}
      (hkey : Keyed.find? key members = some inner) (hinner : LeadsTo inner keys value) :
      LeadsTo (.obj members) (key :: keys) value

/-- There is a value under a key of objects only. -/
theorem get?_eq_some_iff {json inner : Json} {key : String} :
    json.get? key = some inner ↔
      ∃ members, json = .obj members ∧ Keyed.find? key members = some inner := by
  cases json <;> simp [get?]

/-- Following keys finds what they lead to. -/
theorem follow?_eq_some_iff {json value : Json} {keys : List String} :
    json.follow? keys = some value ↔ json.LeadsTo keys value := by
  constructor
  · intro h
    induction keys generalizing json with
    | nil =>
        obtain rfl := Option.some.inj h
        exact .here json
    | cons key keys ih =>
        rw [follow?_cons, Option.bind_eq_some_iff] at h
        obtain ⟨inner, hkey, hinner⟩ := h
        obtain ⟨members, rfl, hfind⟩ := get?_eq_some_iff.mp hkey
        exact .member hfind (ih hinner)
  · intro h
    induction h with
    | here json => rfl
    | member hkey _ ih => rw [follow?_cons, get?, hkey, Option.bind_some, ih]

/-- Keys that lead on from where others led have led through an object there. -/
theorem exists_members_of_follow? {json : Json} {front back : List String} {key : String}
    (h : (json.follow? (front ++ key :: back)).isSome) :
    ∃ members, json.follow? front = some (.obj members) := by
  obtain ⟨value, hvalue⟩ := Option.isSome_iff_exists.mp h
  rw [follow?_append, Option.bind_eq_some_iff] at hvalue
  obtain ⟨met, hfront, hrest⟩ := hvalue
  rw [follow?_cons, Option.bind_eq_some_iff] at hrest
  obtain ⟨inner, hkey, _⟩ := hrest
  obtain ⟨members, rfl, _⟩ := get?_eq_some_iff.mp hkey
  exact ⟨members, hfront⟩

/-- What stands at a path of a record, if anything does, and what those who read the path see
of it. -/
structure SeenAt (record : Json) (path : String) (value? : Option Json) : Prop where
  resolve : record.resolve? path = value?
  /-- A value is there exactly if the keys of the path lead to it. -/
  leads : ∀ value, value? = some value ↔ path ≠ "" ∧ record.LeadsTo (Path.segments path) value
  /-- Whatever is met on the way to a value, before the last key, is an object. -/
  objects : value?.isSome → ∀ front key back, Path.segments path = front ++ key :: back →
    ∃ members, record.follow? front = some (.obj members)
  /-- Where `null` counts as missing, nothing else is different. -/
  present : ∀ value, record.resolvePresent? path = some value ↔ value? = some value ∧ value ≠ .null
  /-- A rule answers about the value. -/
  filter : ∀ rule : FilterRule, rule.field = path → rule.accepts record = rule.answer value?
  /-- The key of a group holds the text of the value. -/
  group : Grouping.textAt record path = Grouping.textOf value?
  /-- An aggregation takes the value. -/
  aggregate : ∀ (aggregations : List Aggregation) (accs : List Accumulator) (i : Nat)
    (agg : Aggregation) (acc : Accumulator), aggregations[i]? = some agg → accs[i]? = some acc →
    agg.field = path → (Grouping.addRecord aggregations record accs)[i]? = some (acc.add value?)
  /-- A field reads the value, unless the record names another source. -/
  project : ∀ field : SelectedField, field.path = path →
    field.valueIn? record = if record.source?.all (· = field.source) then value? else none

/-- All who read a path see what it resolves to. -/
theorem seenAt_resolve? (record : Json) (path : String) :
    record.SeenAt path (record.resolve? path) := by
  constructor
  case resolve => rfl
  case leads =>
    intro value
    by_cases hempty : path = ""
    · simp [hempty, resolve?]
    · rw [resolve?_eq_follow? hempty, follow?_eq_some_iff]
      exact (and_iff_right hempty).symm
  case objects =>
    intro hsome front key back hsegments
    by_cases hempty : path = ""
    · simp [hempty, resolve?] at hsome
    · rw [resolve?_eq_follow? hempty, hsegments] at hsome
      exact exists_members_of_follow? hsome
  case present => exact fun value => resolvePresent?_eq_some_iff
  case filter =>
    rintro rule rfl
    unfold FilterRule.accepts resolvePresent?
    cases record.resolve? rule.field with
    | none => rfl
    | some value => cases value <;> rfl
  case group =>
    unfold Grouping.textAt
    cases record.resolve? path <;> rfl
  case aggregate =>
    intro aggregations accs i agg acc hagg hacc hfield
    subst hfield
    simp [Grouping.addRecord, List.getElem?_zipWith, hagg, hacc]
  case project =>
    rintro field rfl
    unfold SelectedField.valueIn?
    cases record.source? with
    | none => rfl
    | some source => simp

/-- **Paths compose.**  Everything that reads a path sees the value that the path resolves to, and
what stands at a nested path is what its inner part resolves to in the value at its outer part, and
nothing if nothing stands there. -/
theorem seenAt_nested (record : Json) :
    (∀ path, record.SeenAt path (record.resolve? path)) ∧
    ∀ outer inner, outer ≠ "" → inner ≠ "" →
      record.SeenAt (outer ++ "." ++ inner)
        ((record.resolve? outer).bind fun value => value.resolve? inner) := by
  refine ⟨seenAt_resolve? record, ?_⟩
  intro outer inner houter hinner
  rw [← resolve?_dot houter hinner]
  exact seenAt_resolve? record _

/-- The theorem at a path with an empty segment that leads to `null`. -/
theorem seenAt_nested_empty_segment :
    let record : Json := .obj [("a", .obj [("", .obj [("b", .null)])])]
    "a." ≠ "" ∧ "b" ≠ "" ∧ record.SeenAt ("a." ++ "." ++ "b") (some .null) ∧
      record.resolvePresent? ("a." ++ "." ++ "b") = none := by
  intro record
  have hseen := (seenAt_nested record).2 "a." "b" (by decide) (by decide)
  have hvalue : ((record.resolve? "a.").bind fun value => value.resolve? "b") = some .null := rfl
  rw [hvalue] at hseen
  refine ⟨by decide, by decide, hseen, ?_⟩
  refine Option.eq_none_iff_forall_ne_some.mpr ?_
  intro value hpresent
  obtain ⟨hnull, hother⟩ := (hseen.present value).mp hpresent
  exact hother (Option.some.inj hnull).symm

end Json

end Reporting
