/-!
# Select statements

A select statement with equality conditions.  Values never become part of the text: each condition
has a placeholder in the text and its value among the parameters.
-/

namespace Reporting

/-- A select statement. -/
structure Select where
  columns : List String
  table : String
  /-- The conditions, with a placeholder for the value of each. -/
  conditions : List String
  /-- The values of the placeholders, in the order of the text. -/
  parameters : List String
  ordering : List String
  deriving DecidableEq

namespace Select

/-- Everything in a table. -/
def fromTable (table : String) : Select := ⟨["*"], table, [], [], []⟩

/-- Choose the columns. -/
def select (columns : List String) (query : Select) : Select :=
  { query with columns := columns }

/-- The condition on a column, with a placeholder for the value. -/
def term (column : String) : String :=
  column ++ " = ?"

/-- Require a column to equal a value. -/
def whereEq (column value : String) (query : Select) : Select :=
  { query with
    conditions := query.conditions ++ [term column]
    parameters := query.parameters ++ [value] }

/-- Add clauses to order by. -/
def orderBy (clauses : List String) (query : Select) : Select :=
  { query with ordering := query.ordering ++ clauses }

/-- A clause with a keyword in front, if it has any parts. -/
def clause (keyword separator : String) (parts : List String) : List String :=
  if parts.isEmpty then [] else [keyword ++ " " ++ String.intercalate separator parts]

/-- The text of the statement, one clause a line. -/
def text (query : Select) : String :=
  String.intercalate "\n"
    (["SELECT " ++ String.intercalate ", " query.columns, "FROM " ++ query.table]
      ++ clause "WHERE" " AND " query.conditions
      ++ clause "ORDER BY" ", " query.ordering)

end Select

end Reporting
