import Reporting.Binary64.Basic
import Reporting.Keyed

/-!
# JSON values

Records and report cells are JSON values.  A number is either a whole number of at most 64 bits or
a finite binary64 number, and the two kinds stay apart: `1` and `1.0` are different values although
`Number.compare` finds them equal.  The members of an object are kept in the order of their keys.
-/

namespace Reporting

/-- A whole number that fits a signed or an unsigned word of 64 bits. -/
structure Whole where
  val : Int
  lower : -9223372036854775808 ≤ val
  upper : val ≤ 18446744073709551615
  deriving DecidableEq

/-- A number in a JSON text. -/
inductive Number where
  | whole (n : Whole)
  | real (x : Binary64)
  deriving DecidableEq

/-- A JSON value. -/
inductive Json where
  | null
  | bool (b : Bool)
  | num (n : Number)
  | str (s : String)
  | arr (items : List Json)
  | obj (members : List (String × Json))

/-- An object's members. -/
abbrev Members := List (String × Json)

namespace Whole

/-- An integer as a whole number, if it fits. -/
def ofInt? (n : Int) : Option Whole :=
  if h : -9223372036854775808 ≤ n ∧ n ≤ 18446744073709551615 then some ⟨n, h.1, h.2⟩ else none

theorem natAbs_le (n : Whole) : n.val.natAbs ≤ powTwo 64 := by
  have hlower := n.lower
  have hupper := n.upper
  show n.val.natAbs ≤ 18446744073709551616
  omega

/-- The binary64 number nearest to a whole number. -/
def toBinary64 (n : Whole) : Binary64 :=
  Binary64.ofInt n.val n.natAbs_le

end Whole

namespace Number

/-- The binary64 number nearest to a number. -/
def toBinary64 : Number → Binary64
  | .whole n => n.toBinary64
  | .real x => x

/-- Order by binary64 value, whatever the kinds. -/
def compare (a b : Number) : Ordering :=
  a.toBinary64.compare b.toBinary64

/-- Identity of numbers: same kind and same value. -/
def same : Number → Number → Bool
  | .whole a, .whole b => a.val == b.val
  | .real x, .real y => x.sameValue y
  | _, _ => false

end Number

namespace Json

instance : Inhabited Json := ⟨.null⟩

/-- The integer of a natural number below `2 ^ 64`. -/
def ofUInt64 (n : UInt64) : Json :=
  .num (.whole ⟨n.toNat, by omega, by have := n.toNat_lt; omega⟩)

/-- The number of an integer; one beyond 64 bits becomes a real number, or zero if it is out of
range even so. -/
def ofInt (n : Int) : Json :=
  match Whole.ofInt? n with
  | some whole => .num (.whole whole)
  | none =>
    match (Extended.ofInt n).finite? with
    | some x => .num (.real x)
    | none => .num (.whole ⟨0, by decide, by decide⟩)

/-- The number of a natural number. -/
def ofNat (n : Nat) : Json :=
  ofInt n

/-- An object from pairs in any order; a later pair replaces an earlier one with its key. -/
def object (members : Members) : Json :=
  .obj (Keyed.ofList members)

/-- The text of a string value. -/
def str? : Json → Option String
  | .str s => some s
  | _ => none

/-- The items of an array. -/
def items? : Json → Option (List Json)
  | .arr items => some items
  | _ => none

/-- The members of an object. -/
def members? : Json → Option Members
  | .obj members => some members
  | _ => none

/-- The value under a key of an object. -/
def get? (json : Json) (key : String) : Option Json :=
  match json with
  | .obj members => Keyed.find? key members
  | _ => none

/-- Whether a value is `null`. -/
def isNull : Json → Bool
  | .null => true
  | _ => false

/-- Identity of values: same kind and same content throughout. -/
def same : Json → Json → Bool
  | .null, .null => true
  | .bool a, .bool b => a == b
  | .num a, .num b => a.same b
  | .str a, .str b => a == b
  | .arr xs, .arr ys => sameItems xs ys
  | .obj xs, .obj ys => sameMembers xs ys
  | _, _ => false
where
  /-- Identity of arrays, item by item. -/
  sameItems : List Json → List Json → Bool
    | [], [] => true
    | x :: xs, y :: ys => x.same y && sameItems xs ys
    | _, _ => false
  /-- Identity of objects, member by member. -/
  sameMembers : Members → Members → Bool
    | [], [] => true
    | (k, x) :: xs, (l, y) :: ys => k == l && x.same y && sameMembers xs ys
    | _, _ => false

end Json

end Reporting
