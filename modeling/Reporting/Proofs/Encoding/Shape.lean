import Reporting.Encoding.Shape
import Reporting.Proofs.Json.Document

/-!
# Reading back what was written

An object that is written has some members, no two of them with one key.  Read as a structure it has
a field for each name under which there is a member, with the document of that member
(`Document.Shows`), and no field for any other name.  So each field of a structure is read back on
its own, whatever order the members come in, and a part that is left out when it is absent is found
absent again (`Document.Shows.optional?`).
-/

namespace Reporting.Document

section Lists

variable {α : Type} {read : Document → Option α} {write : α → Json}

/-- Things that are read back one by one are read back from an array. -/
theorem array?_map {xs : List α} (h : ∀ x ∈ xs, read (write x).document = some x) :
    array? read (Json.arr (xs.map write)).document = some xs := by
  show all? read (Json.document.itemDocuments (xs.map write)) = some xs
  induction xs with
  | nil => rfl
  | cons x rest ih =>
      have hrest := ih fun y hy => h y (List.mem_cons_of_mem x hy)
      rw [List.map_cons, Json.document.itemDocuments, all?, h x List.mem_cons_self, hrest]
      rfl

/-- Each thing of an array is read from one of its items. -/
theorem exists_of_mem_array? {document : Document} {xs : List α}
    (h : array? read document = some xs) {x : α} (hx : x ∈ xs) :
    ∃ item, read item = some x := by
  cases document with
  | arr items =>
      have hitems : all? read items = some xs := h
      clear h
      induction items generalizing xs with
      | nil =>
          cases hitems
          cases hx
      | cons item rest ih =>
          obtain ⟨value, hvalue, hrest⟩ := Option.bind_eq_some_iff.mp hitems
          obtain ⟨values, hvalues, hcons⟩ := Option.bind_eq_some_iff.mp hrest
          cases hcons
          rcases List.mem_cons.mp hx with rfl | hlater
          · exact ⟨item, hvalue⟩
          · exact ih hlater hvalues
  | _ => cases h

end Lists

/-- Whether fields show some members: the field with one of the names is the document of the member
under it, and is missing if there is no such member. -/
def Shows (names : List String) (members : Members) (fields : List (String × Document)) : Prop :=
  ∀ name ∈ names, Keyed.find? name fields = (Keyed.find? name members).map Json.document

/-- No field has another name, and the members with a name are all there. -/
theorem exists_fieldsOf? (names : List String) {members : Members}
    (h : (members.map Prod.fst).Nodup) :
    ∃ fields, fieldsOf? names (Json.document.memberDocuments members) = some fields ∧
      ∀ name, Keyed.find? name fields
        = if name ∈ names then (Keyed.find? name members).map Json.document else none := by
  induction members with
  | nil => exact ⟨[], rfl, fun name => by simp⟩
  | cons first rest ih =>
      obtain ⟨key, value⟩ := first
      rw [List.map_cons, List.nodup_cons] at h
      obtain ⟨fields, hfields, hfind⟩ := ih h.2
      have hread : fieldsOf? names (Json.document.memberDocuments ((key, value) :: rest))
          = if !names.contains key then some fields
            else if Keyed.contains key fields then none
            else some ((key, value.document) :: fields) := by
        rw [Json.document.memberDocuments, fieldsOf?, hfields]
        rfl
      by_cases hkey : key ∈ names
      · -- The key is new among the fields, since it is not repeated among the members.
        have hnew : Keyed.find? key fields = none := by
          rw [hfind, if_pos hkey, Keyed.find?_eq_none_of_not_mem h.1, Option.map_none]
        refine ⟨(key, value.document) :: fields, ?_, fun name => ?_⟩
        · simp [hread, hkey, Keyed.contains, hnew]
        · rw [Keyed.find?, Keyed.find?, hfind]
          by_cases hname : key = name
          · subst hname
            simp [hkey]
          · simp [hname]
      · refine ⟨fields, ?_, fun name => ?_⟩
        · simp [hread, hkey]
        · rw [hfind, Keyed.find?]
          by_cases hname : key = name
          · subst hname
            simp [hkey]
          · simp [hname]

/-- **A structure is read from an object by its fields.**  Whatever is read from fields that show
the members is read from the object of the members. -/
theorem read_object {α : Type} {names : List String} {members : Members}
    {next : List (String × Document) → Option α} {x : α} (hkeys : (members.map Prod.fst).Nodup)
    (h : ∀ fields, Shows names members fields → next fields = some x) :
    ((Json.object members).document.fields? names >>= next) = some x := by
  have hordered : ((Keyed.ofList members).map Prod.fst).Nodup :=
    (Keyed.ordered_ofList members).nodup_keys
  obtain ⟨fields, hfields, hfind⟩ := exists_fieldsOf? names hordered
  have hobject : (Json.object members).document.fields? names = some fields := hfields
  rw [hobject]
  apply h
  intro name hname
  rw [hfind, if_pos hname, Keyed.find?_ofList hkeys]

/-- A part that may be absent is read back if it is not written as `null`. -/
theorem Shows.optional? {α : Type} {names : List String} {members : Members}
    {fields : List (String × Document)} (h : Shows names members fields) {name : String}
    (hname : name ∈ names) {part : Option α} (write : α → Json)
    (hvalue : Keyed.find? name members = part.map write)
    (hnull : ∀ x, (write x).document ≠ .null) {read : Document → Option α}
    (hread : ∀ x ∈ part, read (write x).document = some x) :
    optional? fields name read = some part := by
  unfold Document.optional?
  rw [h name hname, hvalue]
  cases part with
  | none => rfl
  | some x =>
      rw [Option.map_some, Option.map_some]
      split
      · rename_i hnone
        cases hnone
      · rename_i hsome
        exact absurd (Option.some.inj hsome) (hnull x)
      · rename_i hsome
        rw [← Option.some.inj hsome, hread x rfl]
        rfl

end Reporting.Document
