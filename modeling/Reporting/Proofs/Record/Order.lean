import Reporting.Record.Order

/-!
# The order of values is one of keys

Values of all kinds are compared by three keys, one after the other: the rank, a number and a text
(`order_eq_compareLex`).  A value without a number or without a text has the same key there as all
values of its rank.

An order by keys is total and transitive, whatever the kinds of the values and whichever of them
tie.
-/

namespace Reporting.Json

/-- The number that truth values and numbers are compared by. -/
def orderNumber : Option Json → Int
  | some (.bool b) => if b then 1 else 0
  | some (.num n) => n.toBinary64.value
  | _ => 0

/-- The text that strings, arrays and objects are compared by. -/
def orderText : Option Json → String
  | some (.str s) => s
  | some (.arr items) => (Json.arr items).text
  | some (.obj members) => (Json.obj members).text
  | _ => ""

/-- Truth values are compared as the numbers zero and one. -/
theorem compare_bool (a b : Bool) :
    compare a b = compare (orderNumber (some (.bool a))) (orderNumber (some (.bool b))) := by
  cases a <;> cases b <;> rfl

/-- Within a rank the number decides, and then the text. -/
theorem orderWithin_eq_keys {a b : Option Json} (h : rank a = rank b) :
    orderWithin a b
      = (compare (orderNumber a) (orderNumber b)).then (compare (orderText a) (orderText b)) := by
  rcases a with _ | _ | a | a | a | a | a <;> rcases b with _ | _ | b | b | b | b | b
  -- Pairs of different ranks contradict the hypothesis; an array and an object share a rank.
  all_goals first | cases h; done | skip
  case some.bool.some.bool =>
    rw [← compare_bool a b]
    simp [orderWithin, orderText]
  all_goals simp [orderWithin, orderNumber, orderText, Number.compare, Binary64.compare]

/-- **Values are ordered by keys**: by rank, number and text, the first difference deciding. -/
theorem order_eq_compareLex :
    order = compareLex (compareOn rank) (compareLex (compareOn orderNumber)
      (compareOn orderText)) := by
  funext a b
  unfold order compareLex compareOn
  cases hrank : compare (rank a) (rank b) with
  | lt => rfl
  | gt => rfl
  | eq =>
      have hsame : rank a = rank b := Std.LawfulEqOrd.eq_of_compare hrank
      exact orderWithin_eq_keys hsame

/-- The order of values is total and transitive. -/
instance : Std.TransCmp order := by
  rw [order_eq_compareLex]
  infer_instance

end Reporting.Json
