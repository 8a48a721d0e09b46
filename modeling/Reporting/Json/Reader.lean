import Reporting.Json.Document
import Reporting.Json.Lexeme

/-!
# Reading JSON text

A machine with a stack takes the lexemes of a text one by one and builds its document.  The stack
holds the arrays and objects that are still open, so its height is the depth of nesting; whatever
is nested more than `Document.deepest` levels deep is well formed but unreadable.
-/

namespace Reporting

namespace Document

/-- How many arrays and objects may stand inside one another. -/
def deepest : Nat := 127

/-- An array or object that is still open, with its finished part in reverse. -/
inductive Frame where
  | items (done : List Document)
  | members (done : List (Option String × Document)) (key : Option String)

/-- What the machine expects next. -/
inductive Expected where
  /-- A value. -/
  | value (stack : List Frame)
  /-- The first item of an array, or its end. -/
  | firstItem (stack : List Frame)
  /-- A comma or the end of an array. -/
  | nextItem (stack : List Frame) (done : List Document)
  /-- The first key of an object, or its end. -/
  | firstKey (stack : List Frame)
  /-- A key of an object. -/
  | key (stack : List Frame) (done : List (Option String × Document))
  /-- The colon after a key. -/
  | colon (stack : List Frame) (done : List (Option String × Document)) (key : Option String)
  /-- A comma or the end of an object. -/
  | nextMember (stack : List Frame) (done : List (Option String × Document))
  /-- Nothing more. -/
  | finish (document : Document)

/-- Put a finished value where it belongs. -/
def place (document : Document) : List Frame → Expected
  | [] => .finish document
  | .items done :: stack => .nextItem stack (document :: done)
  | .members done key :: stack => .nextMember stack ((key, document) :: done)

/-- A container inside the open ones, unless it is nested too deeply. -/
def nested (stack : List Frame) (document : Document) : Document :=
  if stack.length < deepest then document else .unreadable

/-- Begin a value at a lexeme. -/
def beginValue? (stack : List Frame) : Lexeme → Option Expected
  | .null => some (place .null stack)
  | .bool b => some (place (.bool b) stack)
  | .num (some n) => some (place (.num n) stack)
  | .num none => some (place .unreadable stack)
  | .str (some s) => some (place (.str s) stack)
  | .str none => some (place .unreadable stack)
  | .openArray => some (.firstItem stack)
  | .openObject => some (.firstKey stack)
  | _ => none

/-- Take one lexeme. -/
def take? : Expected → Lexeme → Option Expected
  | .value stack, lexeme => beginValue? stack lexeme
  | .firstItem stack, .closeArray => some (place (nested stack (.arr [])) stack)
  | .firstItem stack, lexeme => beginValue? (.items [] :: stack) lexeme
  | .nextItem stack done, .comma => some (.value (.items done :: stack))
  | .nextItem stack done, .closeArray => some (place (nested stack (.arr done.reverse)) stack)
  | .firstKey stack, .closeObject => some (place (nested stack (.obj [])) stack)
  | .firstKey stack, .str key => some (.colon stack [] key)
  | .key stack done, .str key => some (.colon stack done key)
  | .colon stack done key, .colon => some (.value (.members done key :: stack))
  | .nextMember stack done, .comma => some (.key stack done)
  | .nextMember stack done, .closeObject =>
    some (place (nested stack (.obj done.reverse)) stack)
  | _, _ => none

/-- Take all lexemes. -/
def takeAll? : Expected → List Lexeme → Option Expected
  | expected, [] => some expected
  | expected, lexeme :: rest => do
    let expected ← take? expected lexeme
    takeAll? expected rest

/-- The document of a text, if the text is well formed. -/
def read? (text : String) : Option Document := do
  let lexemes ← Lexeme.scan? text.toList
  match ← takeAll? (.value []) lexemes with
  | .finish document => some document
  | _ => none

end Document

/-- The value of a JSON text.  A numeral that is no whole number of 64 bits is rounded correctly, to
the binary64 number nearest to its decimal value.  A reader that makes its best effort only may be off
by one in the last place, and differs from this one there. -/
def Json.read? (text : String) : Option Json := do
  let document ← Document.read? text
  document.json?

end Reporting
