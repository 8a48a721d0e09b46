import Reporting.Json.Basic
import Reporting.Text.Split

/-!
# Paths into records

A path such as `financial.agreedPrice` names the keys to follow from a record inwards.  The empty
path leads nowhere; every other path is cut at its dots, and an empty segment is a key like any
other.
-/

namespace Reporting

/-- The keys of a path, in the order in which they are followed. -/
def Path.segments (path : String) : List String :=
  (Text.split '.' path.toList).map String.ofList

namespace Json

/-- The value that some keys lead to. -/
def follow? : Json → List String → Option Json
  | json, [] => some json
  | json, key :: keys => (json.get? key).bind fun inner => follow? inner keys

/-- The value at a path, `null` included. -/
def resolve? (record : Json) (path : String) : Option Json :=
  if path.isEmpty then none else follow? record (Path.segments path)

/-- The value at a path, unless it is `null`. -/
def resolvePresent? (record : Json) (path : String) : Option Json :=
  (record.resolve? path).filter fun value => !value.isNull

end Json

end Reporting
