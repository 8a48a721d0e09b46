import Reporting.Binary64.Decimal
import Reporting.Json.Basic

/-!
# Lexemes of JSON text

The words of a JSON text: punctuation, the three names, numbers and strings.  A scanner with four
states walks over the text one character at a time and puts out raw words; each raw word is then
read on its own.
-/

namespace Reporting

/-- A word of a JSON text.  A number may be out of range, and a string may hold an unpaired
surrogate; such a word is well formed but has no value. -/
inductive Lexeme where
  | openArray
  | closeArray
  | openObject
  | closeObject
  | colon
  | comma
  | null
  | bool (b : Bool)
  | num (n : Option Number)
  | str (s : Option String)

/-- A number read from the characters of a JSON numeral.  `none` says that they are no numeral,
`some none` that the number is out of range.  A negative zero is a real number, and so is an
integer beyond 64 bits. -/
def Number.read? (cs : List Char) : Option (Option Number) :=
  let (negative, body) :=
    match cs with
    | '-' :: rest => (true, rest)
    | rest => (false, rest)
  let (integral, rest) := Text.spanDigits body
  let real : Option (Option Number) :=
    (Decimal.read? body).map fun d => (Extended.ofDecimal negative d).finite?.map .real
  if integral.isEmpty || (1 < integral.length && integral.head? == some '0') then none
  else
    match rest with
    | [] =>
      let n : Int := Text.numeralValue integral
      if negative && n == 0 then real
      else
        match Whole.ofInt? (if negative then -n else n) with
        | some n => some (some (.whole n))
        | none => real
    | ['.'] => none
    | '.' :: c :: _ => if c.isDigit then real else none
    | _ => real

namespace Lexeme

/-- The white space of JSON. -/
def isSpace (c : Char) : Bool :=
  c = ' ' || c = '\t' || c = '\n' || c = '\r'

/-- The lexeme of a punctuation mark. -/
def punctuation? (c : Char) : Option Lexeme :=
  if c = '[' then some .openArray
  else if c = ']' then some .closeArray
  else if c = '\x7b' then some .openObject
  else if c = '\x7d' then some .closeObject
  else if c = ':' then some .colon
  else if c = ',' then some .comma
  else none

/-- The lexeme of a bare word. -/
def ofWord? (cs : List Char) : Option Lexeme :=
  if cs = "null".toList then some .null
  else if cs = "true".toList then some (.bool true)
  else if cs = "false".toList then some (.bool false)
  else (Number.read? cs).map .num

/-- A piece of a string: a character, or a code unit written in hexadecimal. -/
inductive Piece where
  | char (c : Char)
  | unit (n : Nat)

/-- The character that a one-letter escape stands for. -/
def escape? (c : Char) : Option Char :=
  if c = '"' ∨ c = '\\' ∨ c = '/' then some c
  else if c = 'n' then some '\n'
  else if c = 'r' then some '\r'
  else if c = 't' then some '\t'
  else if c = 'b' then some '\x08'
  else if c = 'f' then some '\x0c'
  else none

/-- The pieces of the inside of a string, unless an escape is malformed. -/
def pieces? : List Char → Option (List Piece)
  | [] => some []
  | '\\' :: 'u' :: a :: b :: c :: d :: rest => do
    let a ← Text.hexValue? a
    let b ← Text.hexValue? b
    let c ← Text.hexValue? c
    let d ← Text.hexValue? d
    let more ← pieces? rest
    some (.unit (((a * 16 + b) * 16 + c) * 16 + d) :: more)
  | '\\' :: c :: rest => do
    let c ← escape? c
    let more ← pieces? rest
    some (.char c :: more)
  | c :: rest => do
    if c = '\\' then none
    else
      let more ← pieces? rest
      some (.char c :: more)

/-- The characters of some pieces.  A high surrogate and a low one right after it make one
character; any other surrogate has none. -/
def characters? : List Piece → Option (List Char)
  | [] => some []
  | .char c :: rest => do
    let more ← characters? rest
    some (c :: more)
  | .unit high :: .unit low :: rest => do
    if 0xD800 ≤ high && high < 0xDC00 && 0xDC00 ≤ low && low < 0xE000 then
      let more ← characters? rest
      some (Char.ofNat (0x10000 + (high - 0xD800) * 0x400 + (low - 0xDC00)) :: more)
    else if 0xD800 ≤ high && high < 0xE000 then none
    else
      let more ← characters? (.unit low :: rest)
      some (Char.ofNat high :: more)
  | .unit n :: rest => do
    if 0xD800 ≤ n && n < 0xE000 then none
    else
      let more ← characters? rest
      some (Char.ofNat n :: more)

/-- The lexeme of the inside of a string. -/
def ofInside? (cs : List Char) : Option Lexeme :=
  (pieces? cs).map fun pieces => .str ((characters? pieces).map String.ofList)

/-- What the scanner is in the middle of.  Characters read so far are kept in reverse. -/
inductive Mode where
  | outside
  | word (read : List Char)
  | inside (read : List Char)
  | escaped (read : List Char)

/-- Begin at a character outside all words. -/
def begin? (c : Char) : Option (Mode × List Lexeme) :=
  if isSpace c then some (.outside, [])
  else if c = '"' then some (.inside [], [])
  else
    match punctuation? c with
    | some mark => some (.outside, [mark])
    | none => some (.word [c], [])

/-- Go over one character, with the lexemes that end there. -/
def step? : Mode → Char → Option (Mode × List Lexeme)
  | .outside, c => begin? c
  | .word read, c =>
    if isSpace c || c = '"' || (punctuation? c).isSome then do
      let word ← ofWord? read.reverse
      let (mode, more) ← begin? c
      some (mode, word :: more)
    else some (.word (c :: read), [])
  | .inside read, c =>
    if c = '"' then do
      let text ← ofInside? read.reverse
      some (.outside, [text])
    else if c = '\\' then some (.escaped (c :: read), [])
    else if c.toNat < 0x20 then none
    else some (.inside (c :: read), [])
  | .escaped read, c => some (.inside (c :: read), [])

/-- The lexemes of a text from some mode on. -/
def scanFrom? : Mode → List Char → Option (List Lexeme)
  | .outside, [] => some []
  | .word read, [] => (ofWord? read.reverse).map fun word => [word]
  | .inside _, [] => none
  | .escaped _, [] => none
  | mode, c :: rest => do
    let (mode, done) ← step? mode c
    let more ← scanFrom? mode rest
    some (done ++ more)

/-- The lexemes of a text. -/
def scan? (cs : List Char) : Option (List Lexeme) :=
  scanFrom? .outside cs

end Lexeme

end Reporting
