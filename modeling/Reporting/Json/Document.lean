import Reporting.Json.Basic

/-!
# Documents

A document is what a JSON text spells out, before it is known what the text is to be read as.
Members stand in the order of the text, repeated keys included, because a typed reader refuses a
repeated field where a plain value keeps the last one.

Some parts of a text are well formed without denoting a value: a number out of range, a string with
an unpaired surrogate, an array or object nested too deeply.  They are `unreadable`.  A reader that
skips such a part is not disturbed by it.
-/

namespace Reporting

/-- A JSON text as a tree. -/
inductive Document where
  | null
  | bool (b : Bool)
  | num (n : Number)
  | str (s : String)
  | arr (items : List Document)
  /-- Members in the order of the text; a key may be unreadable. -/
  | obj (members : List (Option String × Document))
  | unreadable

namespace Document

instance : Inhabited Document := ⟨.null⟩

/-- The value of a document.  Of members with the same key the last one counts. -/
def json? : Document → Option Json
  | .null => some .null
  | .bool b => some (.bool b)
  | .num n => some (.num n)
  | .str s => some (.str s)
  | .arr items => (itemValues? items).map .arr
  | .obj members => (memberValues? members).map Json.object
  | .unreadable => none
where
  /-- The values of the items of an array. -/
  itemValues? : List Document → Option (List Json)
    | [] => some []
    | x :: rest => do
      let value ← x.json?
      let values ← itemValues? rest
      some (value :: values)
  /-- The keys and values of the members of an object. -/
  memberValues? : List (Option String × Document) → Option Members
    | [] => some []
    | (key, x) :: rest => do
      let key ← key
      let value ← x.json?
      let values ← memberValues? rest
      some ((key, value) :: values)

end Document

namespace Json

/-- A value as a document. -/
def document : Json → Document
  | .null => .null
  | .bool b => .bool b
  | .num n => .num n
  | .str s => .str s
  | .arr items => .arr (itemDocuments items)
  | .obj members => .obj (memberDocuments members)
where
  /-- The items of an array as documents. -/
  itemDocuments : List Json → List Document
    | [] => []
    | x :: rest => x.document :: itemDocuments rest
  /-- The members of an object as documents. -/
  memberDocuments : Members → List (Option String × Document)
    | [] => []
    | (key, x) :: rest => (some key, x.document) :: memberDocuments rest

end Json

end Reporting
