import Mathlib.Algebra.BigOperators.Group.List.Basic
import Mathlib.Data.List.Induction

/-!
# Distinct values in the order of their first occurrence

`List.eraseDups` keeps the first occurrence of every value.  A value more at the end counts only if
it is new (`eraseDups_concat`), and from this alone it follows that the distinct values of a list
may be chosen among (`eraseDups_filter`), translated (`eraseDups_map_of_injective`) and projected
(`eraseDups_map_eraseDups`).

A list falls into classes by any function of its members, and a sum over the list is the sum of the
sums over its classes (`sum_map_classes`).
-/

namespace Reporting.Distinct

section Lists

variable {α β : Type} [BEq α] [LawfulBEq α] [BEq β] [LawfulBEq β]

/-- A value more at the end counts if it is new. -/
theorem eraseDups_concat (xs : List α) (x : α) :
    (xs ++ [x]).eraseDups = if x ∈ xs then xs.eraseDups else xs.eraseDups ++ [x] := by
  rw [List.eraseDups_append]
  by_cases h : x ∈ xs
  · simp [List.removeAll, h]
  · simp [List.removeAll, h, List.eraseDups_cons]

theorem nodup_eraseDups (xs : List α) : xs.eraseDups.Nodup := by
  induction xs using List.reverseRecOn with
  | nil => simp
  | append_singleton xs x ih =>
      rw [eraseDups_concat]
      split
      · exact ih
      · rename_i hnew
        refine List.nodup_append.mpr ⟨ih, by simp, fun y hy z hz => ?_⟩
        rintro rfl
        rw [List.mem_singleton.mp hz] at hy
        exact hnew (List.mem_eraseDups.mp hy)

/-- The distinct values of a choice are a choice of the distinct values. -/
theorem eraseDups_filter (keep : α → Bool) (xs : List α) :
    (xs.filter keep).eraseDups = xs.eraseDups.filter keep := by
  induction xs using List.reverseRecOn with
  | nil => rfl
  | append_singleton xs x ih =>
      rw [List.filter_append, List.filter_singleton, eraseDups_concat]
      -- The last value counts if it is kept and new, on the left as on the right.
      by_cases hkeep : keep x = true
      · rw [hkeep, cond_true, eraseDups_concat, ih]
        by_cases hold : x ∈ xs
        · rw [if_pos (List.mem_filter.mpr ⟨hold, hkeep⟩), if_pos hold]
        · rw [if_neg fun h => hold (List.mem_filter.mp h).1, if_neg hold]
          simp [hkeep]
      · rw [Bool.eq_false_iff.mpr hkeep, cond_false, List.append_nil, ih]
        by_cases hold : x ∈ xs
        · rw [if_pos hold]
        · rw [if_neg hold]
          simp [hkeep]

/-- Values that are left out because they came before leave their images out as well. -/
theorem eraseDups_map_eraseDups (f : α → β) (xs : List α) :
    (xs.eraseDups.map f).eraseDups = (xs.map f).eraseDups := by
  induction xs using List.reverseRecOn with
  | nil => rfl
  | append_singleton xs x ih =>
      rw [List.map_append, List.map_singleton, eraseDups_concat, eraseDups_concat]
      by_cases hold : x ∈ xs
      · rw [if_pos hold, if_pos (List.mem_map_of_mem hold), ih]
      · have hsame : f x ∈ xs.eraseDups.map f ↔ f x ∈ xs.map f := by
          simp only [List.mem_map, List.mem_eraseDups]
        rw [if_neg hold, List.map_append, List.map_singleton, eraseDups_concat, ih]
        simp only [hsame]

/-- Renaming the values renames the distinct values. -/
theorem eraseDups_map_of_injective {f : α → β} (hf : Function.Injective f) (xs : List α) :
    (xs.map f).eraseDups = xs.eraseDups.map f := by
  induction xs using List.reverseRecOn with
  | nil => rfl
  | append_singleton xs x ih =>
      rw [List.map_append, List.map_singleton, eraseDups_concat, eraseDups_concat, ih]
      have hsame : f x ∈ xs.map f ↔ x ∈ xs := List.mem_map_of_injective hf
      by_cases hold : x ∈ xs
      · rw [if_pos (hsame.mpr hold), if_pos hold]
      · rw [if_neg fun h => hold (hsame.mp h), if_neg hold, List.map_append, List.map_singleton]

end Lists

section Classes

variable {α γ M : Type} [DecidableEq α] [AddCommMonoid M] (classOf : γ → α) (weight : γ → M)

/-- **A sum over some classes is the sum of the sums over each of them.** -/
theorem sum_map_classes {classes : List α} (hclasses : classes.Nodup) (xs : List γ) :
    (classes.map fun a => ((xs.filter fun x => classOf x = a).map weight).sum).sum
      = ((xs.filter fun x => classOf x ∈ classes).map weight).sum := by
  induction classes with
  | nil => simp
  | cons a rest ih =>
      obtain ⟨hfresh, hrest⟩ := List.nodup_cons.mp hclasses
      -- The first class is split off.  It is not among the others, which hold all the rest.
      have hsplit := List.sum_map_filter_add_sum_map_filter_not (fun x => classOf x = a) weight
        (xs.filter fun x => classOf x ∈ a :: rest)
      have hfirst : (xs.filter fun x => classOf x ∈ a :: rest).filter (fun x => classOf x = a)
          = xs.filter fun x => classOf x = a := by
        rw [List.filter_filter]
        refine List.filter_congr fun x _ => ?_
        by_cases h : classOf x = a <;> simp [h]
      have hothers : (xs.filter fun x => classOf x ∈ a :: rest).filter (fun x => ¬classOf x = a)
          = xs.filter fun x => classOf x ∈ rest := by
        rw [List.filter_filter]
        refine List.filter_congr fun x _ => ?_
        by_cases h : classOf x = a
        · simp [h, hfresh]
        · simp [h]
      rw [hfirst, hothers] at hsplit
      rw [List.map_cons, List.sum_cons, ih hrest, hsplit]

/-- The classes that pass a test add up to the members whose classes pass it. -/
theorem sum_map_classes_filter (test : α → Bool) (xs : List γ) :
    (((xs.map classOf).eraseDups.filter test).map fun a =>
        ((xs.filter fun x => classOf x = a).map weight).sum).sum
      = ((xs.filter fun x => test (classOf x)).map weight).sum := by
  rw [sum_map_classes classOf weight ((nodup_eraseDups _).filter test)]
  refine congrArg (fun kept => (kept.map weight).sum) (List.filter_congr fun x hx => ?_)
  have hmem : classOf x ∈ (xs.map classOf).eraseDups :=
    List.mem_eraseDups.mpr (List.mem_map_of_mem hx)
  simp [hmem]

end Classes

end Reporting.Distinct
