/-!
# Blank characters

White space in the sense of the Unicode property `White_Space`, and what it means for a text to be
trimmed or blank.  Everything works on lists of characters; a `String` enters only through
`isBlankText`.
-/

namespace Reporting.Text

/-- The characters with the Unicode property `White_Space`. -/
def isBlank (c : Char) : Bool :=
  let n := c.toNat
  (9 ≤ n && n ≤ 13) || n == 0x20 || n == 0x85 || n == 0xA0 || n == 0x1680
    || (0x2000 ≤ n && n ≤ 0x200A) || n == 0x2028 || n == 0x2029 || n == 0x202F
    || n == 0x205F || n == 0x3000

/-- Drop the blanks at the start. -/
def trimStart (cs : List Char) : List Char :=
  cs.dropWhile isBlank

/-- Drop the blanks at the end. -/
def trimEnd (cs : List Char) : List Char :=
  (cs.reverse.dropWhile isBlank).reverse

/-- Drop the blanks at both ends. -/
def trim (cs : List Char) : List Char :=
  trimEnd (trimStart cs)

/-- A text with nothing but blanks in it, the empty text included. -/
def isBlankText (s : String) : Bool :=
  s.toList.all isBlank

end Reporting.Text
