import Reporting.Proofs.Record.Order
import Reporting.Proofs.StableSort
import Reporting.Sort

/-!
# Sorting rows

A list of rules orders rows totally and transitively, however many rules it has and whatever their
directions, because each rule does.  So sorting is stable, and it sorts what rows are made of along
with the rows: the sorted rows of some items are the rows of the items in sorted order
(`Row.sort_map`).  A choice among rows is the same choice among the sorted rows
(`Row.sort_filter`), and so is a choice among items (`Row.sort_map_filter`).

Of all arrangements of some rows, the sorted rows are the only one that is in order and leaves ties
as they were, and rules that are sorted by later are rules that are asked first
(`Row.sort_stable_and_lexicographic`).
-/

namespace Reporting

/-- Comparing what is read from two values is as total and transitive as comparing values. -/
theorem transCmp_on {α β : Type} (cmp : β → β → Ordering) [Std.TransCmp cmp] (read : α → β) :
    Std.TransCmp fun a b => cmp (read a) (read b) where
  eq_swap := Std.OrientedCmp.eq_swap
  isLE_trans := Std.TransCmp.isLE_trans

/-- A rule orders rows totally and transitively. -/
instance SortRule.transCmp_compare (rule : SortRule) : Std.TransCmp rule.compare := by
  have hup := transCmp_on Json.order fun row : Row => row.sortValue? rule.field
  cases hdirection : rule.direction with
  | asc =>
      have hcompare : rule.compare = fun a b =>
          Json.order (a.sortValue? rule.field) (b.sortValue? rule.field) := by
        funext a b
        simp only [SortRule.compare, hdirection]
      rw [hcompare]
      exact hup
  | desc =>
      have hcompare : rule.compare = fun a b =>
          Json.order (b.sortValue? rule.field) (a.sortValue? rule.field) := by
        funext a b
        simp only [SortRule.compare, hdirection]
        exact Std.OrientedCmp.eq_swap.symm
      rw [hcompare]
      exact Std.TransCmp.opposite

namespace Row

/-- Rules that are asked one after the other order rows totally and transitively. -/
instance transCmp_compare (rules : List SortRule) : Std.TransCmp (compare rules) := by
  induction rules with
  | nil => exact { eq_swap := rfl, isLE_trans := fun _ _ => rfl }
  | cons rule rules ih =>
      have hcompare : compare (rule :: rules) = compareLex rule.compare (compare rules) := rfl
      rw [hcompare]
      infer_instance

/-- Comparing two rows the other way round turns the outcome round. -/
theorem compare_swap (rules : List SortRule) (a b : Row) :
    compare rules b a = (compare rules a b).swap :=
  Std.OrientedCmp.eq_swap

/-- A row may stand before another one unless it comes after it. -/
theorem precedes_eq_isLE (rules : List SortRule) (a b : Row) :
    precedes rules a b = (compare rules a b).isLE :=
  Ordering.isLE_eq_not_beq_gt.symm

/-- A row that may stand before a second one may stand before whatever that one may. -/
theorem precedes_trans (rules : List SortRule) (a b c : Row) (hab : precedes rules a b = true)
    (hbc : precedes rules b c = true) : precedes rules a c = true := by
  rw [precedes_eq_isLE] at *
  exact Std.TransCmp.isLE_trans hab hbc

/-- Of two rows one may stand before the other. -/
theorem precedes_total (rules : List SortRule) (a b : Row) :
    (precedes rules a b || precedes rules b a) = true := by
  rw [precedes_eq_isLE, precedes_eq_isLE, compare_swap rules a b]
  cases compare rules a b <;> rfl

/-- **Leaving out rows moves no other row**, whatever the rules are and whichever rows tie. -/
theorem sort_filter (rules : List SortRule) (rows : List Row) (keep : Row → Bool) :
    sort rules (rows.filter keep) = (sort rules rows).filter keep :=
  StableSort.mergeSort_filter (precedes_trans rules) (precedes_total rules) rows keep

theorem compare_cons (rule : SortRule) (rules : List SortRule) (a b : Row) :
    compare (rule :: rules) a b = (rule.compare a b).then (compare rules a b) :=
  rfl

/-- **The first difference decides**, in the direction of its own rule. -/
theorem compare_eq_find? (rules : List SortRule) (a b : Row) :
    compare rules a b
      = ((rules.map fun rule => rule.compare a b).find? (· != .eq)).getD .eq := by
  induction rules with
  | nil => rfl
  | cons rule rest ih =>
      rw [compare_cons, ih, List.map_cons]
      cases hrule : rule.compare a b with
      | eq => rfl
      | lt => rfl
      | gt => rfl

/-- Rules that follow others are asked where the others tie. -/
theorem compare_append (major minor : List SortRule) (a b : Row) :
    compare (major ++ minor) a b = (compare major a b).then (compare minor a b) := by
  induction major with
  | nil => rfl
  | cons rule rest ih =>
      rw [List.cons_append, compare_cons, compare_cons, ih, Ordering.then_assoc]

/-- Rows tie if no rule finds a difference. -/
theorem tied_precedes (rules : List SortRule) (a b : Row) :
    StableSort.tied (precedes rules) a b = (compare rules a b == .eq) := by
  unfold StableSort.tied precedes
  rw [compare_swap rules a b]
  cases compare rules a b <;> rfl

/-- To ask more rules is to order by the first ones, and where they tie by the others. -/
theorem precedes_append (major minor : List SortRule) :
    precedes (major ++ minor) = StableSort.lex (precedes major) (precedes minor) := by
  funext a b
  unfold StableSort.lex precedes
  rw [compare_append, compare_swap major a b]
  cases compare major a b <;> cases compare minor a b <;> rfl

/-- What it is to sort rows stably: the same rows are put in order, and all rows that tie with some
row stand as they stood. -/
structure SortedStably (rules : List SortRule) (rows sorted : List Row) : Prop where
  perm : sorted.Perm rows
  ordered : sorted.Pairwise fun a b => compare rules a b ≠ .gt
  ties (a : Row) : sorted.filter (fun b => compare rules a b == .eq)
    = rows.filter fun b => compare rules a b == .eq

/-- Sorting sorts stably. -/
theorem sortedStably_sort (rules : List SortRule) (rows : List Row) :
    SortedStably rules rows (sort rules rows) where
  perm := List.mergeSort_perm rows _
  ordered := by
    have hsorted := List.pairwise_mergeSort (precedes_trans rules) (precedes_total rules) rows
    refine hsorted.imp ?_
    intro a b hab
    simpa [precedes] using hab
  ties a := by
    have hties : (sort rules rows).filter (StableSort.tied (precedes rules) a)
        = rows.filter (StableSort.tied (precedes rules) a) :=
      StableSort.filter_tied_mergeSort (precedes_trans rules) (precedes_total rules) rows a
    simpa only [funext (tied_precedes rules a)] using hties

/-- There is one way to sort stably. -/
theorem SortedStably.eq_sort {rules : List SortRule} {rows sorted : List Row}
    (h : SortedStably rules rows sorted) : sorted = sort rules rows := by
  apply StableSort.eq_mergeSort (precedes_trans rules) (precedes_total rules)
  · refine h.ordered.imp ?_
    intro a b hab
    simpa [precedes] using hab
  · intro a
    simpa only [funext (tied_precedes rules a)] using h.ties a

/-- Rows that are sorted by some rules and then by others are sorted by the others first. -/
theorem sort_sort (major minor : List SortRule) (rows : List Row) :
    sort major (sort minor rows) = sort (major ++ minor) rows := by
  have htrans := precedes_trans (major ++ minor)
  have htotal := precedes_total (major ++ minor)
  unfold sort
  rw [precedes_append] at htrans htotal ⊢
  exact StableSort.mergeSort_mergeSort (precedes_trans major) (precedes_total major)
    (precedes_trans minor) (precedes_total minor) htrans htotal rows

/-- **Sorting is the stable sort of the rules in their order.**  Of two rows the first rule that
finds a difference decides, each rule in its own direction.  The sorted rows are the only
arrangement of the rows that is in this order and leaves all ties as they were.  And to sort by some
rules and afterwards by others is to sort once by the others followed by the first ones. -/
theorem sort_stable_and_lexicographic (rules : List SortRule) (rows : List Row) :
    (∀ a b, compare rules a b
      = ((rules.map fun rule => rule.compare a b).find? (· != .eq)).getD .eq) ∧
    (∀ sorted, sorted = sort rules rows ↔ SortedStably rules rows sorted) ∧
    ∀ minor, sort rules (sort minor rows) = sort (rules ++ minor) rows := by
  refine ⟨compare_eq_find? rules, ?_, fun minor => sort_sort rules minor rows⟩
  intro sorted
  constructor
  · rintro rfl
    exact sortedStably_sort rules rows
  · exact SortedStably.eq_sort

section Items

variable {α : Type} (rules : List SortRule) (row : α → Row)

/-- Items in the order of their rows. -/
def sortBy (items : List α) : List α :=
  items.mergeSort fun a b => precedes rules (row a) (row b)

/-- Items in the order of their rows are the same items. -/
theorem sortBy_perm (items : List α) : (sortBy rules row items).Perm items :=
  List.mergeSort_perm items _

/-- The sorted rows of some items are the rows of the sorted items. -/
theorem sort_map (items : List α) :
    sort rules (items.map row) = (sortBy rules row items).map row :=
  (List.map_mergeSort (f := row) fun _ _ _ _ => rfl).symm

/-- **Leaving out items leaves out their rows** and moves no other row, whatever the rules are and
whichever rows tie. -/
theorem sort_map_filter (items : List α) (keep : α → Bool) :
    sort rules ((items.filter keep).map row)
      = ((sortBy rules row items).filter keep).map row := by
  have hcommute : sortBy rules row (items.filter keep) = (sortBy rules row items).filter keep :=
    StableSort.mergeSort_filter (fun a b c => precedes_trans rules (row a) (row b) (row c))
      (fun a b => precedes_total rules (row a) (row b)) items keep
  rw [sort_map, hcommute]

/-- Of two items whose rows differ the lesser one stands first. -/
theorem lt_of_compare_eq_lt {items : List α} {i j : Nat} {x y : α}
    (hx : (sortBy rules row items)[i]? = some x) (hy : (sortBy rules row items)[j]? = some y)
    (h : compare rules (row x) (row y) = .lt) : i < j := by
  obtain ⟨hi, rfl⟩ := List.getElem?_eq_some_iff.mp hx
  obtain ⟨hj, rfl⟩ := List.getElem?_eq_some_iff.mp hy
  rcases Nat.lt_trichotomy i j with hless | rfl | hgreater
  · exact hless
  · cases h.symm.trans Std.ReflCmp.compare_self
  · have hsorted : (sortBy rules row items).Pairwise fun a b =>
        precedes rules (row a) (row b) = true :=
      List.pairwise_mergeSort (fun a b c => precedes_trans rules (row a) (row b) (row c))
        (fun a b => precedes_total rules (row a) (row b)) items
    have hprecedes := List.pairwise_iff_getElem.mp hsorted j i hj hi hgreater
    rw [precedes_eq_isLE, compare_swap, h] at hprecedes
    cases hprecedes

end Items

end Row

end Reporting
