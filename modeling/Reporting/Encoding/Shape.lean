import Reporting.Json.Document

/-!
# Shapes of documents

How the types of this library are read from documents.  A structure is an object whose members are
its fields; members with other names are ignored, and a repeated field is refused.  It may also be
an array of its fields in their order, from whose end fields with a default may be missing.  One of
several names is a string, or an object with the name as its only key and `null` under it.
-/

namespace Reporting.Document

/-- The text of a string. -/
def string? : Document → Option String
  | .str s => some s
  | _ => none

/-- A truth value. -/
def boolean? : Document → Option Bool
  | .bool b => some b
  | _ => none

/-- A whole number that is not negative. -/
def natural? : Document → Option UInt64
  | .num (.whole n) => if 0 ≤ n.val then some (UInt64.ofNat n.val.toNat) else none
  | _ => none

/-- Read every document of a list. -/
def all? {α : Type} (read : Document → Option α) : List Document → Option (List α)
  | [] => some []
  | x :: rest => do
    let value ← read x
    let values ← all? read rest
    some (value :: values)

/-- An array of things. -/
def array? {α : Type} (read : Document → Option α) : Document → Option (List α)
  | .arr items => all? read items
  | _ => none

/-- The name in a document that chooses one of several names. -/
def choice? : Document → Option String
  | .str name => some name
  | .obj [(some name, .null)] => some name
  | _ => none

/-- The thing with the chosen name. -/
def named? {α : Type} (nameOf : α → String) (things : List α) (document : Document) :
    Option α := do
  let name ← document.choice?
  things.find? fun thing => nameOf thing == name

/-- The members of an object under some names, each name at most once. -/
def fieldsOf? (names : List String) :
    List (Option String × Document) → Option (List (String × Document))
  | [] => some []
  | (none, _) :: _ => none
  | (some key, x) :: rest => do
    let fields ← fieldsOf? names rest
    if !names.contains key then some fields
    else if Keyed.contains key fields then none
    else some ((key, x) :: fields)

/-- The fields of a structure with some names. -/
def fields? (names : List String) : Document → Option (List (String × Document))
  | .obj members => fieldsOf? names members
  | .arr items => if items.length ≤ names.length then some (names.zip items) else none
  | _ => none

/-- A field that has to be there. -/
def required? {α : Type} (fields : List (String × Document)) (name : String)
    (read : Document → Option α) : Option α :=
  (Keyed.find? name fields).bind read

/-- A field that has a value when it is missing. -/
def defaulted? {α : Type} (fields : List (String × Document)) (name : String) (default : α)
    (read : Document → Option α) : Option α :=
  match Keyed.find? name fields with
  | some document => read document
  | none => some default

/-- A field that may be missing or `null`. -/
def optional? {α : Type} (fields : List (String × Document)) (name : String)
    (read : Document → Option α) : Option (Option α) :=
  match Keyed.find? name fields with
  | none => some none
  | some .null => some none
  | some document => (read document).map some

end Reporting.Document
