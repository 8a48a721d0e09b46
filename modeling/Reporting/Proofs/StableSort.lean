/-!
# Stable sorting

A merge sort is pinned down by three facts: it rearranges its list, its result is in order, and
records that tie stay in the order in which they came.  Two lists in order with the same ties in
the same order are equal (`eq_of_pairwise_of_ties`), so every list that has the last two facts is
the merge sort (`eq_mergeSort`).

Hence sorting and filtering commute (`mergeSort_filter`): a record that is left out moves no other.
And sorting twice, the second time by what matters more, is sorting once by both orders, one after
the other (`mergeSort_mergeSort`).
-/

namespace Reporting.StableSort

variable {α : Type} {le : α → α → Bool}

/-- Whether neither of two records has to stand before the other. -/
def tied (le : α → α → Bool) (a b : α) : Bool :=
  le a b && le b a

/-- A record ties with itself. -/
theorem tied_self (total : ∀ a b, le a b || le b a) (a : α) : tied le a a = true := by
  have h := total a a
  simpa [tied] using h

/-- The head of a list in order may stand before every record of the list. -/
theorem le_of_mem_cons (total : ∀ a b, le a b || le b a) {a b : α} {rest : List α}
    (hsorted : (a :: rest).Pairwise fun x y => le x y = true) (hb : b ∈ a :: rest) :
    le a b = true := by
  rcases List.mem_cons.mp hb with rfl | hrest
  · simpa using total b b
  · exact List.rel_of_pairwise_cons hsorted hrest

/-- **Uniqueness of the stable order.**  Two lists in order are equal if they show the same ties
in the same order. -/
theorem eq_of_pairwise_of_ties (total : ∀ a b, le a b || le b a) {xs ys : List α}
    (hxs : xs.Pairwise fun a b => le a b = true) (hys : ys.Pairwise fun a b => le a b = true)
    (hties : ∀ a, xs.filter (tied le a) = ys.filter (tied le a)) : xs = ys := by
  induction xs generalizing ys with
  | nil =>
      cases ys with
      | nil => rfl
      | cons y ys =>
          have h := hties y
          simp [tied_self total y] at h
  | cons x xs ih =>
      cases ys with
      | nil =>
          have h := hties x
          simp [tied_self total x] at h
      | cons y ys =>
          have hx : x ∈ y :: ys := by
            have hmem : x ∈ (x :: xs).filter (tied le x) := by simp [tied_self total x]
            rw [hties x] at hmem
            exact (List.mem_filter.mp hmem).1
          have hy : y ∈ x :: xs := by
            have hmem : y ∈ (y :: ys).filter (tied le y) := by simp [tied_self total y]
            rw [← hties y] at hmem
            exact (List.mem_filter.mp hmem).1
          have hxy : tied le x y = true := by
            simp [tied, le_of_mem_cons total hxs hy, le_of_mem_cons total hys hx]
          have hhead : x = y := by
            have h := hties x
            rw [List.filter_cons_of_pos (tied_self total x), List.filter_cons_of_pos hxy] at h
            exact (List.cons.inj h).1
          subst hhead
          have htail : xs = ys := by
            refine ih hxs.of_cons hys.of_cons fun a => ?_
            have h := hties a
            by_cases ha : tied le a x = true
            · rw [List.filter_cons_of_pos ha, List.filter_cons_of_pos ha] at h
              exact (List.cons.inj h).2
            · rw [List.filter_cons_of_neg ha, List.filter_cons_of_neg ha] at h
              exact h
          rw [htail]

/-- Records that tie with one record tie with one another. -/
theorem pairwise_filter_tied (trans : ∀ a b c, le a b → le b c → le a c) (xs : List α) (a : α) :
    (xs.filter (tied le a)).Pairwise fun x y => le x y = true := by
  rw [List.pairwise_filter]
  refine List.pairwise_of_forall fun x y hx hy => ?_
  simp only [tied, Bool.and_eq_true] at hx hy
  exact trans x a y hx.2 hy.1

variable (trans : ∀ a b c, le a b → le b c → le a c) (total : ∀ a b, le a b || le b a)
include trans total

/-- Sorting keeps ties in the order in which they came. -/
theorem filter_tied_mergeSort (xs : List α) (a : α) :
    (xs.mergeSort le).filter (tied le a) = xs.filter (tied le a) := by
  have hsub : (xs.filter (tied le a)).Sublist (xs.mergeSort le) :=
    List.sublist_mergeSort trans total (pairwise_filter_tied trans xs a)
      List.filter_sublist
  have hsub' : (xs.filter (tied le a)).Sublist ((xs.mergeSort le).filter (tied le a)) := by
    have h := hsub.filter (tied le a)
    simpa using h
  have hlen : (xs.filter (tied le a)).length = ((xs.mergeSort le).filter (tied le a)).length :=
    ((List.mergeSort_perm xs le).filter (tied le a)).length_eq.symm
  exact (hsub'.eq_of_length hlen).symm

/-- A list in order that shows the ties of `xs` in their order is `xs` sorted. -/
theorem eq_mergeSort {xs ys : List α} (hys : ys.Pairwise fun a b => le a b = true)
    (hties : ∀ a, ys.filter (tied le a) = xs.filter (tied le a)) : ys = xs.mergeSort le := by
  refine eq_of_pairwise_of_ties total hys (List.pairwise_mergeSort trans total xs) fun a => ?_
  rw [hties a, filter_tied_mergeSort trans total xs a]

/-- **Sorting commutes with filtering.** -/
theorem mergeSort_filter (xs : List α) (keep : α → Bool) :
    (xs.filter keep).mergeSort le = (xs.mergeSort le).filter keep := by
  refine (eq_mergeSort trans total ?_ fun a => ?_).symm
  · exact (List.pairwise_mergeSort trans total xs).filter keep
  · calc ((xs.mergeSort le).filter keep).filter (tied le a)
        = ((xs.mergeSort le).filter (tied le a)).filter keep := by
          simp only [List.filter_filter, Bool.and_comm]
      _ = (xs.filter (tied le a)).filter keep := by
          rw [filter_tied_mergeSort trans total xs a]
      _ = (xs.filter keep).filter (tied le a) := by
          simp only [List.filter_filter, Bool.and_comm]

omit trans total

section Lexicographic

variable {major minor : α → α → Bool}

/-- Order by a major order, and by a minor one where the major one ties. -/
def lex (major minor : α → α → Bool) (a b : α) : Bool :=
  major a b && (!major b a || minor a b)

/-- Records tie in both orders together if they tie in each of them. -/
theorem tied_lex (major minor : α → α → Bool) (a b : α) :
    tied (lex major minor) a b = (tied minor a b && tied major a b) := by
  unfold tied lex
  cases major a b <;> cases major b a <;> simp

/-- A list in the major order whose major ties are in the minor order is in both orders
together. -/
theorem pairwise_lex (total : ∀ a b, major a b || major b a) {xs : List α}
    (hmajor : xs.Pairwise fun a b => major a b = true)
    (hminor : ∀ a, (xs.filter (tied major a)).Pairwise fun x y => minor x y = true) :
    xs.Pairwise fun a b => lex major minor a b = true := by
  rw [List.pairwise_iff_forall_sublist] at hmajor ⊢
  intro a b hsub
  have hab : major a b = true := hmajor hsub
  by_cases hba : major b a = true
  · have hboth : tied major a b = true := by simp [tied, hab, hba]
    have htied : [a, b].filter (tied major a) = [a, b] := by
      rw [List.filter_cons_of_pos (tied_self total a), List.filter_cons_of_pos hboth,
        List.filter_nil]
    have hpair : [a, b].Sublist (xs.filter (tied major a)) := by
      have h := hsub.filter (tied major a)
      rwa [htied] at h
    have hlesser : minor a b = true := List.pairwise_iff_forall_sublist.mp (hminor a) hpair
    simp [lex, hab, hlesser]
  · simp [lex, hab, hba]

/-- **Sorting twice sorts by both orders.**  Sorting by a minor order first and then by a major one
is sorting once by the major order and, where it ties, by the minor one. -/
theorem mergeSort_mergeSort
    (majorTrans : ∀ a b c, major a b → major b c → major a c)
    (majorTotal : ∀ a b, major a b || major b a)
    (minorTrans : ∀ a b c, minor a b → minor b c → minor a c)
    (minorTotal : ∀ a b, minor a b || minor b a)
    (lexTrans : ∀ a b c, lex major minor a b → lex major minor b c → lex major minor a c)
    (lexTotal : ∀ a b, lex major minor a b || lex major minor b a) (xs : List α) :
    (xs.mergeSort minor).mergeSort major = xs.mergeSort (lex major minor) := by
  have hminor : (xs.mergeSort minor).Pairwise fun a b => minor a b = true :=
    List.pairwise_mergeSort minorTrans minorTotal xs
  have hmajor : ((xs.mergeSort minor).mergeSort major).Pairwise fun a b => major a b = true :=
    List.pairwise_mergeSort majorTrans majorTotal (xs.mergeSort minor)
  have hkeep : ∀ a, ((xs.mergeSort minor).mergeSort major).filter (tied major a)
      = (xs.mergeSort minor).filter (tied major a) :=
    filter_tied_mergeSort majorTrans majorTotal (xs.mergeSort minor)
  have hsplit : ∀ (a : α) (ys : List α), ys.filter (tied (lex major minor) a)
      = (ys.filter (tied major a)).filter (tied minor a) := by
    intro a ys
    rw [List.filter_filter]
    exact List.filter_congr fun b _ => tied_lex major minor a b
  apply eq_mergeSort lexTrans lexTotal
  · apply pairwise_lex majorTotal hmajor
    intro a
    rw [hkeep a]
    exact hminor.filter _
  · intro a
    calc ((xs.mergeSort minor).mergeSort major).filter (tied (lex major minor) a)
        = ((xs.mergeSort minor).filter (tied major a)).filter (tied minor a) := by
          rw [hsplit, hkeep]
      _ = ((xs.mergeSort minor).filter (tied minor a)).filter (tied major a) := by
          simp only [List.filter_filter, Bool.and_comm]
      _ = (xs.filter (tied minor a)).filter (tied major a) := by
          rw [filter_tied_mergeSort minorTrans minorTotal xs a]
      _ = (xs.filter (tied major a)).filter (tied minor a) := by
          simp only [List.filter_filter, Bool.and_comm]
      _ = xs.filter (tied (lex major minor) a) := (hsplit a xs).symm

end Lexicographic

end Reporting.StableSort
