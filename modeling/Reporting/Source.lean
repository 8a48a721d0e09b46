import Reporting.Json.Basic

/-!
# Data sources

A source is where records come from.  The four built-in sources have a table in the record store;
any other name is a source as well, one without records.  Every name belongs to exactly one source
(`Source.ofName_name`, `Source.name_ofName`).
-/

namespace Reporting

/-- The sources with records of their own. -/
inductive BuiltIn where
  | deals
  | properties
  | expenses
  | commissions
  deriving DecidableEq

namespace BuiltIn

/-- The built-in sources in their usual order. -/
def all : List BuiltIn := [.deals, .properties, .expenses, .commissions]

/-- The name of a built-in source. -/
def name : BuiltIn → String
  | .deals => "deals"
  | .properties => "properties"
  | .expenses => "expenses"
  | .commissions => "commissions"

/-- The built-in source with a name. -/
def ofName? (name : String) : Option BuiltIn :=
  if name = "deals" then some .deals
  else if name = "properties" then some .properties
  else if name = "expenses" then some .expenses
  else if name = "commissions" then some .commissions
  else none

/-- The name of the table that holds the records of a source. -/
def tableName : BuiltIn → String
  | .deals => "deal_records"
  | .properties => "property_records"
  | .expenses => "expense_records"
  | .commissions => "commission_records"

/-- The place of a source among the built-in ones. -/
def index : BuiltIn → Nat
  | .deals => 0
  | .properties => 1
  | .expenses => 2
  | .commissions => 3

theorem ofName?_name (b : BuiltIn) : ofName? b.name = some b := by
  cases b <;> decide

theorem name_of_ofName? {name : String} {b : BuiltIn} (h : ofName? name = some b) :
    b.name = name := by
  unfold ofName? at h
  repeat' split at h
  all_goals first
    | (cases h; simp_all [BuiltIn.name])
    | simp at h

end BuiltIn

/-- A data source. -/
inductive Source where
  | builtIn (b : BuiltIn)
  | other (name : String) (unknown : BuiltIn.ofName? name = none)
  deriving DecidableEq

namespace Source

/-- The name of a source. -/
def name : Source → String
  | .builtIn b => b.name
  | .other name _ => name

/-- The source with a name. -/
def ofName (name : String) : Source :=
  match h : BuiltIn.ofName? name with
  | some b => .builtIn b
  | none => .other name h

/-- The built-in source that this is, if it is one. -/
def builtIn? : Source → Option BuiltIn
  | .builtIn b => some b
  | .other _ _ => none

/-- The table that holds the records of a source. -/
def tableName? (source : Source) : Option String :=
  source.builtIn?.map BuiltIn.tableName

/-- The order of sources: the built-in ones first, then the others by name. -/
def compare : Source → Source → Ordering
  | .builtIn a, .builtIn b => Ord.compare a.index b.index
  | .builtIn _, .other _ _ => .lt
  | .other _ _, .builtIn _ => .gt
  | .other a _, .other b _ => Ord.compare a b

instance : Ord Source := ⟨compare⟩

theorem name_ofName (name : String) : (ofName name).name = name := by
  unfold ofName
  split
  · rename_i b h
    exact BuiltIn.name_of_ofName? h
  · rfl

theorem ofName_name (source : Source) : ofName source.name = source := by
  cases source with
  | builtIn b => cases b <;> decide
  | other name unknown =>
      unfold ofName
      split
      · rename_i b h
        rw [show (Source.other name unknown).name = name from rfl] at h
        rw [unknown] at h
        cases h
      · rfl

/-- Sources with one name are one source. -/
theorem name_injective {a b : Source} (h : a.name = b.name) : a = b := by
  rw [← ofName_name a, h, ofName_name b]

end Source

/-- The key under which a fetched record carries the name of its source. -/
def sourceKey : String := "_source"

/-- The source that a fetched record names. -/
def Json.source? (record : Json) : Option Source :=
  ((record.get? sourceKey).bind Json.str?).map Source.ofName

end Reporting
