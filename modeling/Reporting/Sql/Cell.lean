import Reporting.Json.Printer

/-!
# Query results

A cell of a query result, and the JSON value that it is read as.  Integers of the signed types and
of the widest unsigned one become whole numbers; an integer of 128 bits becomes its decimal text
where a signed word of 64 bits cannot hold it.  A floating-point number that is not finite becomes
`null`, and so does a cell of any type without a JSON counterpart.
-/

namespace Reporting

/-- The integer types of the database. -/
inductive IntegerType where
  | tiny
  | small
  | integer
  | big
  | huge
  | unsignedTiny
  | unsignedSmall
  | unsignedInteger
  | unsignedBig
  | unsignedHuge
  deriving DecidableEq

namespace IntegerType

/-- The number of bits of a type. -/
def bits : IntegerType → Nat
  | .tiny | .unsignedTiny => 8
  | .small | .unsignedSmall => 16
  | .integer | .unsignedInteger => 32
  | .big | .unsignedBig => 64
  | .huge | .unsignedHuge => 128

/-- Whether a type has negative numbers. -/
def isSigned : IntegerType → Bool
  | .tiny | .small | .integer | .big | .huge => true
  | .unsignedTiny | .unsignedSmall | .unsignedInteger | .unsignedBig | .unsignedHuge => false

/-- The least number of a type. -/
def least (type : IntegerType) : Int :=
  if type.isSigned then -(Nat.pow 2 (type.bits - 1) : Nat) else 0

/-- The greatest number of a type. -/
def greatest (type : IntegerType) : Int :=
  if type.isSigned then (Nat.pow 2 (type.bits - 1) : Nat) - 1 else (Nat.pow 2 type.bits : Nat) - 1

/-- Whether a number belongs to a type. -/
def holds (type : IntegerType) (n : Int) : Bool :=
  type.least ≤ n && n ≤ type.greatest

end IntegerType

/-- A cell of a query result. -/
inductive Cell where
  | null
  | boolean (b : Bool)
  | integer (type : IntegerType) (n : Int)
  | floating (x : Extended)
  | text (s : String)
  /-- A cell of any other type. -/
  | other

/-- The value that a cell is read as. -/
def Cell.json : Cell → Json
  | .null => .null
  | .boolean b => .bool b
  | .integer type n =>
    match type with
    | .tiny | .small | .integer | .big | .unsignedBig => .ofInt n
    | .huge =>
      if IntegerType.big.holds n then .ofInt n
      else .str (String.ofList (Text.signedDigits n))
    | .unsignedTiny | .unsignedSmall | .unsignedInteger | .unsignedHuge => .null
  | .floating x =>
    match x.finite? with
    | some x => .num (.real x)
    | none => .null
  | .text s => .str s
  | .other => .null

end Reporting
