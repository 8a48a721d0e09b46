import Reporting.Sql.Cell
import Reporting.Text.Numeral

/-!
# Numerals in text

How the database writes whole numbers and decimals.  A numeral has a sign, digits around a point,
and perhaps a power of ten; single underscores may stand between digits, and spaces around the
numeral.  A whole number may be given by hexadecimal or binary digits instead.

The digits themselves may be missing: a sign before spaces is a numeral without digits, and an
exponent may consist of spaces.  Both count as zero.
-/

namespace Reporting

namespace Sql

/-- The space characters of the database. -/
def isSpace (c : Char) : Bool :=
  c = ' ' || (9 ≤ c.toNat && c.toNat ≤ 13)

/-- Drop spaces in front. -/
def dropSpaces (cs : List Char) : List Char :=
  cs.dropWhile isSpace

/-- Whether nothing but spaces is left. -/
def isDone (cs : List Char) : Bool :=
  cs.all isSpace

/-- Read digits of some kind with single underscores between them, and what follows.  An
underscore that is not followed by a digit ends the reading in failure. -/
def digitGroups? (isDigit : Char → Bool) : List Char → Option (List Char × List Char)
  | [] => some ([], [])
  | [c] => some (if isDigit c then ([c], []) else ([], [c]))
  | c :: next :: rest =>
    if isDigit c then
      if next = '_' then
        match rest with
        | d :: _ =>
          if isDigit d then
            (digitGroups? isDigit rest).map fun (ds, rest) => (c :: ds, rest)
          else none
        | [] => none
      else (digitGroups? isDigit (next :: rest)).map fun (ds, rest) => (c :: ds, rest)
    else some ([], c :: next :: rest)

/-- Nothing but digits is read as digits. -/
theorem isDigit_of_mem_digitGroups {isDigit : Char → Bool} {cs ds rest : List Char}
    (h : digitGroups? isDigit cs = some (ds, rest)) : ∀ c ∈ ds, isDigit c = true := by
  fun_induction digitGroups? isDigit cs generalizing ds rest with
  | case1 =>
    obtain ⟨rfl, rfl⟩ := h
    simp
  | case2 c =>
    split at h <;> (obtain ⟨rfl, rfl⟩ := h; simp_all)
  | case3 c hc d _ _ ih =>
    obtain ⟨⟨ds', _⟩, hds, hpair⟩ := Option.map_eq_some_iff.1 h
    obtain ⟨rfl, rfl⟩ := hpair
    simpa [hc] using ih hds
  | case4 => simp at h
  | case5 => simp at h
  | case6 c next rest' hc hnext ih =>
    obtain ⟨⟨ds', _⟩, hds, hpair⟩ := Option.map_eq_some_iff.1 h
    obtain ⟨rfl, rfl⟩ := hpair
    simpa [hc] using ih hds
  | case7 =>
    obtain ⟨rfl, rfl⟩ := h
    simp

/-- A sign in front, `true` for minus, and what follows. -/
def takeSign (cs : List Char) : Bool × List Char :=
  match cs with
  | '-' :: rest => (true, rest)
  | '+' :: rest => (false, rest)
  | rest => (false, rest)

/-- Read digits, and digits after a point if there is a point, which needs a digit on one side. -/
def mantissa? (cs : List Char) : Option ((List Char × List Char) × List Char) := do
  let (whole, rest) ← digitGroups? Char.isDigit cs
  match rest with
  | '.' :: more =>
    let (fraction, rest) ← digitGroups? Char.isDigit more
    if whole.isEmpty && fraction.isEmpty then none else some ((whole, fraction), rest)
  | rest => some ((whole, []), rest)

/-- Read an exponent to the end of the text: an integer of 16 bits, perhaps with a point. -/
def exponent? (cs : List Char) : Option Int := do
  let (negative, body) := takeSign cs
  let ((whole, fraction), rest) ← mantissa? body
  let n : Int := Text.numeralValue whole
  let n := if negative then -n else n
  if !body.isEmpty && fraction.isEmpty && isDone rest && IntegerType.small.holds n then some n
  else none

end Sql

/-- A number in decimal notation: its sign, its digits before and after the point, and its
exponent if one is written. -/
structure Numeral where
  negative : Bool
  whole : List Char
  fraction : List Char
  exponent : Option Int

namespace Numeral

/-- Read a whole text as a numeral. -/
def read? (cs : List Char) : Option Numeral := do
  let (negative, body) := Sql.takeSign cs
  let ((whole, fraction), rest) ← Sql.mantissa? body
  if body.isEmpty then none
  else if Sql.isDone rest then some ⟨negative, whole, fraction, none⟩
  else
    match rest with
    | e :: more =>
      if (e = 'e' ∨ e = 'E') ∧ ¬(whole = [] ∧ fraction = []) then
        (Sql.exponent? more).map fun n => ⟨negative, whole, fraction, some n⟩
      else none
    | [] => none

end Numeral

/-- How a text denotes a number. -/
inductive NumberText where
  | decimal (n : Numeral)
  /-- By hexadecimal or binary digits, which have this value. -/
  | based (value : Nat)

namespace NumberText

/-- The number that digits to some base denote. -/
def valueToBase (base : Nat) (ds : List Char) : Nat :=
  ds.foldl (fun n c => base * n + (Text.hexValue? c).getD 0) 0

/-- A number by hexadecimal digits, with single underscores between them. -/
def hexadecimal? (cs : List Char) : Option Nat := do
  let (ds, rest) ← Sql.digitGroups? (fun c => (Text.hexValue? c).isSome) cs
  if ds.isEmpty || !rest.isEmpty then none else some (valueToBase 16 ds)

/-- A number by binary digits, with any underscores behind the first digit and before the last. -/
def binary? (cs : List Char) : Option Nat :=
  if cs.isEmpty || cs.head? = some '_' || cs.getLast? = some '_' then none
  else if cs.all fun c => c = '0' || c = '1' || c = '_' then
    some (valueToBase 2 (cs.filter fun c => c ≠ '_'))
  else none

/-- Read a text as a number, after spaces.  No spaces may follow digits to a base. -/
def read? (cs : List Char) : Option NumberText :=
  match Sql.dropSpaces cs with
  | '0' :: 'x' :: ds => (hexadecimal? ds).map .based
  | '0' :: 'X' :: ds => (hexadecimal? ds).map .based
  | '0' :: 'b' :: ds => (binary? ds).map .based
  | '0' :: 'B' :: ds => (binary? ds).map .based
  | cs => (Numeral.read? cs).map .decimal

end NumberText

end Reporting
