import Reporting.Binary64.Shortest
import Reporting.Calendar.Iso
import Reporting.Json.Printer
import Reporting.Text.Lower

/-!
# Views of a value

Records hold whatever was stored, so a rule that needs a number, a text, a truth value or a date
looks at a value through a view.  A view is partial where a value has nothing of the wanted kind.
The text view is total: it is what is displayed, compared and grouped when nothing better is known.

`Json.ofExtended` goes the other way and turns a computed number into a value.
-/

namespace Reporting

/-- The text of a computed number: a whole number below `10 ^ 15` in plain digits without the sign
of a negative zero, any other number in positional form. -/
def Extended.displayChars (x : Extended) : List Char :=
  match x with
  | .finite y =>
    if y.isWhole ∧ y.units < Nat.pow 10 15 * Binary64.one then Text.signedDigits y.truncate
    else x.positionalText
  | _ => x.positionalText

namespace Json

/-- The numeric view: a number, or a string that holds a finite one between blanks. -/
def numberView : Json → Option Binary64
  | .num n => some n.toBinary64
  | .str s => (Extended.read? (Text.trim s.toList)).bind Extended.finite?
  | _ => none

/-- The text view.  `null` is the empty text, and arrays and objects are their compact text. -/
def textView : Json → String
  | .null => ""
  | .str s => s
  | .bool b => if b then "true" else "false"
  | .num (.whole n) => String.ofList (Text.signedDigits n.val)
  | .num (.real x) => String.ofList (Extended.finite x).displayChars
  | json => json.text

/-- The truth view: a truth value, one of the words `true`, `yes`, `false`, `no` between blanks in
any letter case, or a number, of which all but zero are true. -/
def truthView : Json → Option Bool
  | .bool b => some b
  | .str s =>
    let word := Text.lowerAscii (Text.trim s.toList)
    if word = "true".toList ∨ word = "yes".toList then some true
    else if word = "false".toList ∨ word = "no".toList then some false
    else none
  | .num n => some (n.toBinary64.value != 0)
  | _ => none

/-- The date view: a date in text between blanks, or the date of a whole number of milliseconds
from the start of 1970. -/
def dateView : Json → Option Date
  | .str s => Date.read? (Text.trim s.toList)
  | .num (.whole n) =>
    if n.val ≤ 9223372036854775807 then Date.ofMilliseconds? n.val else none
  | _ => none

/-- The value of a computed number.  A whole number below `9 * 10 ^ 15` becomes an integer, and a
number that is not finite becomes zero. -/
def ofExtended : Extended → Json
  | .finite x =>
    if x.isWhole ∧ x.units < 9 * Nat.pow 10 15 * Binary64.one then ofInt x.truncate
    else .num (.real x)
  | _ => ofInt 0

end Json

end Reporting
