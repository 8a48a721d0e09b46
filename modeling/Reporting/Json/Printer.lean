import Reporting.Binary64.Shortest
import Reporting.Json.Basic

/-!
# Compact JSON text

The text of a value without any white space.  Members come in the order they are kept in.  A
string escapes the quote, the backslash and the control characters and nothing else.  A real
number has the fewest digits that read back, always shows a fraction or an exponent, and uses an
exponent when its decimal exponent is below `-5` or at least `16`.
-/

namespace Reporting

/-- A character inside a string. -/
def Json.escaped (c : Char) : List Char :=
  if c = '"' then ['\\', '"']
  else if c = '\\' then ['\\', '\\']
  else if c = '\n' then ['\\', 'n']
  else if c = '\r' then ['\\', 'r']
  else if c = '\t' then ['\\', 't']
  else if c = '\x08' then ['\\', 'b']
  else if c = '\x0c' then ['\\', 'f']
  else if c.toNat < 0x20 then
    ['\\', 'u', '0', '0', Text.hexDigit (c.toNat / 16), Text.hexDigit c.toNat]
  else [c]

/-- A string in quotes. -/
def Json.quoted (s : String) : List Char :=
  '"' :: (s.toList.flatMap Json.escaped ++ ['"'])

/-- A decimal with a fraction or an exponent. -/
def Decimal.jsonChars (d : Decimal) : List Char :=
  let ds := Text.digits d.coefficient
  let point := d.pointPosition
  if -5 < point ∧ point ≤ 16 then
    if 0 ≤ d.exponent then d.positional ++ ['.', '0'] else d.positional
  else
    let mantissa :=
      match ds with
      | first :: (second :: rest) => first :: '.' :: second :: rest
      | ds => ds
    mantissa ++ 'e' :: (if point ≤ 0 then '-' else '+') :: Text.digits (point - 1).natAbs

/-- A number as it stands in a JSON text. -/
def Number.chars : Number → List Char
  | .whole n => Text.signedDigits n.val
  | .real x =>
    (if x.negative then ['-'] else []) ++ (x.shortest .even).jsonChars

namespace Json

/-- The compact text of a value, as characters. -/
def chars : Json → List Char
  | .null => "null".toList
  | .bool b => if b then "true".toList else "false".toList
  | .num n => n.chars
  | .str s => quoted s
  | .arr items => '[' :: (itemsChars items ++ [']'])
  | .obj members => '{' :: (membersChars members ++ ['}'])
where
  /-- The items of an array, with commas between them. -/
  itemsChars : List Json → List Char
    | [] => []
    | [x] => x.chars
    | x :: y :: rest => x.chars ++ ',' :: itemsChars (y :: rest)
  /-- The members of an object, with commas between them. -/
  membersChars : Members → List Char
    | [] => []
    | [(k, x)] => quoted k ++ ':' :: x.chars
    | (k, x) :: y :: rest => quoted k ++ ':' :: (x.chars ++ ',' :: membersChars (y :: rest))

/-- The compact text of a value. -/
def text (json : Json) : String :=
  String.ofList json.chars

end Json

end Reporting
