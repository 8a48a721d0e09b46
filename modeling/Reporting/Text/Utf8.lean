/-!
# Text from bytes

A file is a list of bytes.  Reading it as UTF-8 gives a list of characters in which every byte
that belongs to no well-formed sequence is marked by `none`.  After such a byte the reader goes on
with the next one, so an ASCII character is never swallowed by a broken sequence before it; line
ends therefore stay where they are.
-/

namespace Reporting.Text

/-- The six bits that a continuation byte carries. -/
def continuation? (b : UInt8) : Option Nat :=
  if 0x80 ≤ b && b < 0xC0 then some (b.toNat - 0x80) else none

/-- The number made of the bits of a lead byte and of `count` continuation bytes. -/
def continued? : Nat → Nat → List UInt8 → Option Nat
  | 0, bits, _ => some bits
  | _ + 1, _, [] => none
  | count + 1, bits, b :: rest => do
    let more ← continuation? b
    continued? count (64 * bits + more) rest

/-- The character of a code point, unless that is a surrogate, out of range, or below the least
one that needs a sequence of this length. -/
def scalar? (least n : Nat) : Option Char :=
  if least ≤ n && n < 0x110000 && !(0xD800 ≤ n && n < 0xE000) then some (Char.ofNat n) else none

/-- The character that starts with byte `a`, and how many of the bytes after `a` belong to it. -/
def leading? (a : UInt8) (rest : List UInt8) : Option (Char × Nat) :=
  let sequence (lead count least : Nat) : Option (Char × Nat) := do
    let n ← continued? count (a.toNat - lead) rest
    let c ← scalar? least n
    some (c, count)
  if a < 0x80 then some (Char.ofNat a.toNat, 0)
  else if a < 0xC0 then none
  else if a < 0xE0 then sequence 0xC0 1 0x80
  else if a < 0xF0 then sequence 0xE0 2 0x800
  else if a < 0xF8 then sequence 0xF0 3 0x10000
  else none

/-- Decode a list of bytes, of which the first few belong to a character decoded already. -/
def decodeFrom : Nat → List UInt8 → List (Option Char)
  | _, [] => []
  | used + 1, _ :: rest => decodeFrom used rest
  | 0, a :: rest =>
    match leading? a rest with
    | some (c, more) => some c :: decodeFrom more rest
    | none => none :: decodeFrom 0 rest

/-- The characters of a list of bytes, with `none` for each byte that belongs to none. -/
def decodeUtf8 (bytes : List UInt8) : List (Option Char) :=
  decodeFrom 0 bytes

end Reporting.Text
