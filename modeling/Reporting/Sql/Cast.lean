import Reporting.Sql.FixedPoint
import Reporting.Sql.Floating
import Reporting.Sql.Moment
import Reporting.Sql.TypeName
import Reporting.Sql.WideInteger

/-!
# Casting text

The cell that a text becomes when it is cast to a type of the database, unless the text does not
fit the type.  How numbers and times are read is the matter of the modules beside this one; here
are truth values, bytes, bits and identifiers, and the choice by type.
-/

namespace Reporting

namespace Sql

/-- The truth value that a text denotes. -/
def boolean? (cs : List Char) : Option Bool :=
  let word := cs.map Char.toLower
  if ["t", "true", "y", "yes", "1"].any fun w => w.toList = word then some true
  else if ["f", "false", "n", "no", "0"].any fun w => w.toList = word then some false
  else none

/-- Whether a text denotes bytes: ASCII characters, a backslash only before `x` and two hexadecimal
digits. -/
def isBytes : List Char → Bool
  | [] => true
  | '\\' :: 'x' :: a :: b :: rest =>
    (Text.hexValue? a).isSome && (Text.hexValue? b).isSome && isBytes rest
  | c :: rest => c ≠ '\\' && c.toNat < 0x80 && isBytes rest

/-- Whether a text denotes bits. -/
def isBits (cs : List Char) : Bool :=
  !cs.isEmpty && cs.all fun c => c = '0' || c = '1'

/-- Whether a text denotes an identifier of 128 bits: 32 hexadecimal digits with any hyphens among
them, perhaps in braces. -/
def isUuid (cs : List Char) : Bool :=
  let body :=
    match cs with
    | '\x7b' :: rest => if rest.getLast? = some '\x7d' then rest.dropLast else cs
    | cs => cs
  let ds := body.filter fun c => c ≠ '-'
  ds.length = 32 && ds.all fun c => (Text.hexValue? c).isSome

end Sql

namespace IntegerType

/-- Whether a minus sign is refused: the types without negative numbers take one only if zeros are
all that follows it. -/
def refusesSign (type : IntegerType) (cs : List Char) : Bool :=
  match cs with
  | '-' :: rest => !type.isSigned && rest.any fun c => c ≠ '0'
  | _ => false

/-- The integer of a type that a number becomes.  Digits to a base are not taken in 128 bits. -/
def ofNumber? (type : IntegerType) : NumberText → Option Int
  | .decimal x => if type.bits ≤ 64 then type.ofNumeral? x else type.ofNumeralWide? x
  | .based n => if type.bits ≤ 64 then type.fit? n else none

/-- The integer of a type that a text denotes. -/
def ofText? (type : IntegerType) (cs : List Char) : Option Int :=
  if type.refusesSign (Sql.dropSpaces cs) then none
  else (NumberText.read? cs).bind type.ofNumber?

theorem holds_of_ofNumber? {type : IntegerType} {number : NumberText} {n : Int}
    (h : type.ofNumber? number = some n) : type.holds n = true := by
  cases number with
  | decimal x =>
    simp only [ofNumber?] at h
    split at h
    · exact holds_of_ofNumeral? h
    · exact holds_of_ofNumeralWide? h
  | based value =>
    simp only [ofNumber?] at h
    split at h
    · obtain ⟨hholds, rfl⟩ := holds_of_fit? h
      exact hholds
    · simp at h

/-- A text denotes a number of the type. -/
theorem holds_of_ofText? {type : IntegerType} {cs : List Char} {n : Int}
    (h : type.ofText? cs = some n) : type.holds n = true := by
  unfold ofText? at h
  split at h
  · simp at h
  · obtain ⟨_, _, h⟩ := Option.bind_eq_some_iff.1 h
    exact holds_of_ofNumber? h

end IntegerType

/-- Whether a text denotes a number of a decimal type. -/
def FixedPoint.takesText (type : FixedPoint) (cs : List Char) : Bool :=
  match NumberText.read? cs with
  | some (.decimal x) => type.takes x
  | _ => false

namespace Cell

/-- A cell without a counterpart in JSON, if a text denotes one. -/
def otherIf (denoted : Bool) : Option Cell :=
  if denoted then some .other else none

/-- The cell of a text that is cast to a type. -/
def cast? (type : SqlType) (text : String) : Option Cell :=
  let cs := text.toList
  match type with
  | .boolean => (Sql.boolean? cs).map .boolean
  | .integer type => (type.ofText? cs).map (.integer type)
  | .float => (Sql.floating? Extended.singleOfDecimal cs).map .floating
  | .double => (Sql.floating? Extended.ofDecimal cs).map .floating
  | .text => some (.text text)
  | .bytes => otherIf (Sql.isBytes cs)
  | .bits => otherIf (Sql.isBits cs)
  | .uuid => otherIf (Sql.isUuid cs)
  | .date => otherIf (Sql.isDate cs)
  | .time => otherIf (Sql.isTime cs)
  | .timestamp => otherIf (Sql.isTimestamp cs)
  | .nanoTimestamp => otherIf (Sql.isNanoTimestamp cs)
  | .decimal width scale => otherIf (FixedPoint.takesText ⟨width, scale⟩ cs)
  | .other => some .other

end Cell

end Reporting
