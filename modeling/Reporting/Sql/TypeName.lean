import Reporting.Sql.Cell
import Reporting.Text.Numeral

/-!
# Names of types

The types of the database that texts are cast to, and the names by which a query calls them.  A
name is read in any letter case.  A decimal type has a width and a scale, given in brackets after
its name or left at `18` and `3`.
-/

namespace Reporting

/-- A type of the database. -/
inductive SqlType where
  | boolean
  | integer (type : IntegerType)
  | float
  | double
  | text
  | bytes
  | bits
  | uuid
  | date
  | time
  | timestamp
  /-- A timestamp counted in nanoseconds. -/
  | nanoTimestamp
  /-- Numbers of `width` digits in all, `scale` of them after the point. -/
  | decimal (width scale : Nat)
  /-- A type without a rule of its own here. -/
  | other
  deriving DecidableEq

namespace SqlType

/-- The names of the types without parameters. -/
def named : List (String × SqlType) :=
  [("BOOLEAN", .boolean), ("BOOL", .boolean), ("LOGICAL", .boolean),
    ("TINYINT", .integer .tiny), ("INT1", .integer .tiny),
    ("SMALLINT", .integer .small), ("INT2", .integer .small), ("SHORT", .integer .small),
    ("INT16", .integer .small),
    ("INTEGER", .integer .integer), ("INT", .integer .integer), ("INT4", .integer .integer),
    ("SIGNED", .integer .integer), ("INTEGRAL", .integer .integer), ("INT32", .integer .integer),
    ("BIGINT", .integer .big), ("INT8", .integer .big), ("LONG", .integer .big),
    ("INT64", .integer .big), ("OID", .integer .big),
    ("HUGEINT", .integer .huge), ("INT128", .integer .huge),
    ("UTINYINT", .integer .unsignedTiny), ("UINT8", .integer .unsignedTiny),
    ("USMALLINT", .integer .unsignedSmall), ("UINT16", .integer .unsignedSmall),
    ("UINTEGER", .integer .unsignedInteger), ("UINT32", .integer .unsignedInteger),
    ("UBIGINT", .integer .unsignedBig), ("UINT64", .integer .unsignedBig),
    ("UHUGEINT", .integer .unsignedHuge), ("UINT128", .integer .unsignedHuge),
    ("FLOAT", .float), ("REAL", .float), ("FLOAT4", .float),
    ("DOUBLE", .double), ("DOUBLE PRECISION", .double), ("FLOAT8", .double),
    ("VARCHAR", .text), ("TEXT", .text), ("STRING", .text), ("CHAR", .text), ("BPCHAR", .text),
    ("NVARCHAR", .text),
    ("BLOB", .bytes), ("BYTEA", .bytes), ("BINARY", .bytes), ("VARBINARY", .bytes),
    ("BIT", .bits), ("BITSTRING", .bits), ("UUID", .uuid), ("GUID", .uuid),
    ("DATE", .date), ("TIME", .time), ("TIMESTAMP", .timestamp), ("DATETIME", .timestamp),
    ("TIMESTAMP_US", .timestamp), ("TIMESTAMP_MS", .timestamp), ("TIMESTAMP_S", .timestamp),
    ("TIMESTAMP_NS", .nanoTimestamp), ("TIMESTAMPTZ", .timestamp),
    ("TIMESTAMP WITH TIME ZONE", .timestamp), ("TIMESTAMP WITHOUT TIME ZONE", .timestamp),
    ("DECIMAL", .decimal 18 3), ("DEC", .decimal 18 3), ("NUMERIC", .decimal 18 3),
    ("INTERVAL", .other), ("TIMETZ", .other), ("TIME WITH TIME ZONE", .other)]

/-- Drop blanks on both sides. -/
def trim (cs : List Char) : List Char :=
  ((cs.dropWhile fun c => c = ' ').reverse.dropWhile fun c => c = ' ').reverse

/-- A numeral alone, between blanks. -/
def parameter? (cs : List Char) : Option Nat :=
  let ds := trim cs
  if ds.isEmpty || !ds.all Char.isDigit then none else some (Text.numeralValue ds)

/-- A decimal type of at most 38 digits. -/
def decimal? (width scale : Nat) : Option SqlType :=
  if 1 ≤ width && width ≤ 38 && scale ≤ width then some (.decimal width scale) else none

/-- The decimal type that parameters in brackets describe. -/
def ofParameters? (inside : List Char) : Option SqlType := do
  let width ← parameter? (inside.takeWhile fun c => c ≠ ',')
  match inside.dropWhile fun c => c ≠ ',' with
  | [] => decimal? width 0
  | _ :: scale => decimal? width (← parameter? scale)

/-- The type without parameters that has a name in upper case. -/
def find? (cs : List Char) : Option SqlType :=
  (named.find? fun entry => entry.1.toList = cs).map Prod.snd

/-- The type with a name, if the database has one.  Texts may be given a length, which changes
nothing; other names with brackets are those of types without a rule here. -/
def ofName? (name : String) : Option SqlType :=
  let cs := trim (name.toList.map Char.toUpper)
  let head := trim (cs.takeWhile fun c => c ≠ '(' && c ≠ '[')
  match cs.dropWhile fun c => c ≠ '(' && c ≠ '[' with
  | [] => find? cs
  | '(' :: rest =>
    match find? head, rest.getLast? with
    | some (.decimal _ _), some ')' => ofParameters? rest.dropLast
    | some (.decimal _ _), some ']' => some .other
    | some (.decimal _ _), _ => none
    | some .text, some ')' => (parameter? rest.dropLast).map fun _ => .text
    | _, _ => some .other
  | _ => some .other

end SqlType

end Reporting
