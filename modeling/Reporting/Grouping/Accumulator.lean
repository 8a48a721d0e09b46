import Reporting.Record.View

/-!
# Accumulators

One aggregation over one group.  An accumulator takes the values of the group one by one.  Values
without a numeric view are counted and otherwise ignored.
-/

namespace Reporting

/-- What to compute over a group. -/
inductive AggregationFunction where
  | sum
  | avg
  | count
  | min
  | max
  deriving DecidableEq

namespace AggregationFunction

/-- All functions. -/
def all : List AggregationFunction := [.sum, .avg, .count, .min, .max]

/-- The name of a function. -/
def name : AggregationFunction → String
  | .sum => "sum"
  | .avg => "avg"
  | .count => "count"
  | .min => "min"
  | .max => "max"

end AggregationFunction

/-- The running state of an aggregation.  The two counts are not bounded; words of 64 bits hold them
as long as fewer than `2 ^ 64` values are taken. -/
structure Accumulator where
  count : Nat
  numericCount : Nat
  sum : Extended
  min : Option Binary64
  max : Option Binary64

namespace Accumulator

/-- The state before any value. -/
def empty : Accumulator := ⟨0, 0, Extended.zero, none, none⟩

/-- Take a number. -/
def addNumber (acc : Accumulator) (n : Binary64) : Accumulator where
  count := acc.count + 1
  numericCount := acc.numericCount + 1
  sum := acc.sum + .finite n
  min := some (match acc.min with
    | some m => m.min n
    | none => n)
  max := some (match acc.max with
    | some m => m.max n
    | none => n)

/-- Take a value, which may be missing. -/
def add (acc : Accumulator) (value : Option Json) : Accumulator :=
  match value.bind Json.numberView with
  | some n => acc.addNumber n
  | none => { acc with count := acc.count + 1 }

/-- The state after some values. -/
def ofList (values : List (Option Json)) : Accumulator :=
  values.foldl add empty

/-- The result.  Without any number the average, the least and the greatest are zero. -/
def compute (acc : Accumulator) : AggregationFunction → Extended
  | .sum => acc.sum
  | .count => Extended.ofNat acc.count
  | .avg =>
    if acc.numericCount = 0 then Extended.zero else acc.sum / Extended.ofNat acc.numericCount
  | .min => .finite (acc.min.getD (Binary64.zero false))
  | .max => .finite (acc.max.getD (Binary64.zero false))

end Accumulator

end Reporting
