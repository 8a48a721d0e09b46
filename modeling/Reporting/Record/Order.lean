import Reporting.Json.Printer

/-!
# Equality and order of values

`strictEq` is equality without any coercion, except that a whole number equals the real number of
the same value.  `order` compares values that may be absent: first by kind, then within the kind.
Arrays and objects are ordered by their compact text.
-/

namespace Reporting.Json

/-- Equality of values: of numbers by value, otherwise identity. -/
def strictEq : Json → Json → Bool
  | .num a, .num b => a.toBinary64.sameValue b.toBinary64
  | a, b => a.same b

/-- The place of a kind of value in the order: nothing, truth values, numbers, strings, and last
arrays and objects. -/
def rank : Option Json → Nat
  | none => 0
  | some .null => 0
  | some (.bool _) => 1
  | some (.num _) => 2
  | some (.str _) => 3
  | some (.arr _) => 4
  | some (.obj _) => 4

/-- The order of two values of the same rank. -/
def orderWithin : Option Json → Option Json → Ordering
  | some (.bool a), some (.bool b) => compare a b
  | some (.num a), some (.num b) => a.compare b
  | some (.str a), some (.str b) => compare a b
  | some a, some b => compare a.text b.text
  | _, _ => .eq

/-- The order of two values, either of which may be absent. -/
def order (a b : Option Json) : Ordering :=
  (compare (rank a) (rank b)).then (orderWithin a b)

end Reporting.Json
