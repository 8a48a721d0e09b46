import Reporting.Json.Document
import Reporting.Proofs.Keyed

/-!
# Values as documents

A value keeps the members of every object in the order of their keys, each key once
(`Json.Ordered`).  Such a value is read back from its document (`Json.json?_document`), and
whatever is read from a document is such a value, in whatever order the text spells the members
out and however often it repeats a key (`Document.ordered_of_json?`).
-/

namespace Reporting

namespace Json

mutual

/-- The members of every object inside a value stand in the order of their keys, each key once. -/
def Ordered : Json → Prop
  | .null => True
  | .bool _ => True
  | .num _ => True
  | .str _ => True
  | .arr items => OrderedItems items
  | .obj members => Keyed.Ordered members ∧ OrderedMembers members

/-- Every item of an array is ordered. -/
def OrderedItems : List Json → Prop
  | [] => True
  | x :: rest => x.Ordered ∧ OrderedItems rest

/-- Every value in an object is ordered. -/
def OrderedMembers : Members → Prop
  | [] => True
  | (_, x) :: rest => x.Ordered ∧ OrderedMembers rest

end

/-- All values that an object is made of are ordered if the given ones are. -/
theorem orderedMembers_insert {key : String} {value : Json} (hvalue : value.Ordered)
    {members : Members} (h : OrderedMembers members) :
    OrderedMembers (Keyed.insert key value members) := by
  induction members with
  | nil => exact ⟨hvalue, trivial⟩
  | cons first rest ih =>
      obtain ⟨k, v⟩ := first
      unfold Keyed.insert
      split
      · exact ⟨hvalue, h.2⟩
      · split
        · exact ⟨hvalue, h⟩
        · exact ⟨h.1, ih h.2⟩

theorem orderedMembers_foldl_insert {members done : Members} (h : OrderedMembers members)
    (hdone : OrderedMembers done) :
    OrderedMembers (members.foldl (fun done entry => Keyed.insert entry.1 entry.2 done) done) := by
  induction members generalizing done with
  | nil => exact hdone
  | cons first rest ih => exact ih h.2 (orderedMembers_insert h.1 hdone)

/-- An object of ordered values is ordered, whatever order its members are given in. -/
theorem ordered_object {members : Members} (h : OrderedMembers members) :
    (Json.object members).Ordered :=
  ⟨Keyed.ordered_ofList members, orderedMembers_foldl_insert h trivial⟩

mutual

/-- **An ordered value is read back from its document.** -/
theorem json?_document : ∀ {value : Json}, value.Ordered → value.document.json? = some value
  | .null, _ => rfl
  | .bool _, _ => rfl
  | .num _, _ => rfl
  | .str _, _ => rfl
  | .arr items, h => by
      have hitems : OrderedItems items := h
      rw [document, Document.json?, itemValues?_itemDocuments hitems, Option.map_some]
  | .obj members, h => by
      have hmembers := memberValues?_memberDocuments h.2
      rw [document, Document.json?, hmembers, Option.map_some, object,
        Keyed.ofList_of_ordered h.1]

theorem itemValues?_itemDocuments : ∀ {items : List Json}, OrderedItems items →
    Document.json?.itemValues? (document.itemDocuments items) = some items
  | [], _ => rfl
  | x :: rest, h => by
      rw [document.itemDocuments, Document.json?.itemValues?, json?_document h.1,
        itemValues?_itemDocuments h.2]
      rfl

theorem memberValues?_memberDocuments : ∀ {members : Members}, OrderedMembers members →
    Document.json?.memberValues? (document.memberDocuments members) = some members
  | [], _ => rfl
  | (_, x) :: rest, h => by
      rw [document.memberDocuments, Document.json?.memberValues?, json?_document h.1,
        memberValues?_memberDocuments h.2]
      rfl

end

end Json

namespace Document

mutual

/-- **Whatever is read from a document is ordered.** -/
theorem ordered_of_json? : ∀ {document : Document} {value : Json},
    document.json? = some value → value.Ordered
  | .null, _, h => by
      cases h
      trivial
  | .bool _, _, h => by
      cases h
      trivial
  | .num _, _, h => by
      cases h
      trivial
  | .str _, _, h => by
      cases h
      trivial
  | .arr items, _, h => by
      obtain ⟨values, hvalues, rfl⟩ := Option.map_eq_some_iff.mp h
      exact orderedItems_of_itemValues? hvalues
  | .obj members, _, h => by
      obtain ⟨values, hvalues, rfl⟩ := Option.map_eq_some_iff.mp h
      exact Json.ordered_object (orderedMembers_of_memberValues? hvalues)
  | .unreadable, _, h => by cases h

theorem orderedItems_of_itemValues? : ∀ {items : List Document} {values : List Json},
    json?.itemValues? items = some values → Json.OrderedItems values
  | [], _, h => by
      cases h
      trivial
  | x :: rest, _, h => by
      obtain ⟨value, hvalue, hrest⟩ := Option.bind_eq_some_iff.mp h
      obtain ⟨values, hvalues, hcons⟩ := Option.bind_eq_some_iff.mp hrest
      cases hcons
      exact ⟨ordered_of_json? hvalue, orderedItems_of_itemValues? hvalues⟩

theorem orderedMembers_of_memberValues? :
    ∀ {members : List (Option String × Document)} {values : Members},
      json?.memberValues? members = some values → Json.OrderedMembers values
  | [], _, h => by
      cases h
      trivial
  | (key, x) :: rest, _, h => by
      obtain ⟨key, _, hmember⟩ := Option.bind_eq_some_iff.mp h
      obtain ⟨value, hvalue, hrest⟩ := Option.bind_eq_some_iff.mp hmember
      obtain ⟨values, hvalues, hcons⟩ := Option.bind_eq_some_iff.mp hrest
      cases hcons
      exact ⟨ordered_of_json? hvalue, orderedMembers_of_memberValues? hvalues⟩

end

end Document

end Reporting
