import Mathlib.Data.List.Nodup
import Reporting.Keyed

/-!
# Lists in the order of their keys

An ordered association list holds every key once, so looking keys up tells all that there is to
know about it: two ordered lists in which every key has the same value are the same list
(`Keyed.ext`).  Insertions keep the order.  Hence what a list holds after many insertions can be
compared key by key, without following how the entries came to their places.  The ordered list of
some pairs without a repeated key holds just these pairs (`Keyed.find?_ofList`).
-/

namespace Reporting.Keyed

variable {κ α : Type} [Ord κ]

/-- The keys stand in strictly ascending order. -/
def Ordered (entries : List (κ × α)) : Prop :=
  entries.Pairwise fun a b => compare a.1 b.1 = .lt

theorem ordered_nil : Ordered ([] : List (κ × α)) :=
  List.Pairwise.nil

/-- Of two different keys one comes first. -/
theorem lt_of_ne_of_not_lt [Std.TransOrd κ] [Std.LawfulEqOrd κ] {key k : κ} (hne : k ≠ key)
    (hlt : compare key k ≠ .lt) : compare k key = .lt := by
  have hgt : compare key k = .gt := by
    cases hcompare : compare key k with
    | lt => exact absurd hcompare hlt
    | eq => exact absurd (Std.LawfulEqOrd.eq_of_compare hcompare).symm hne
    | gt => rfl
  exact Std.OrientedCmp.lt_of_gt hgt

/-- An ordered list holds no entry twice. -/
theorem Ordered.nodup [Std.LawfulEqOrd κ] {entries : List (κ × α)} (h : Ordered entries) :
    entries.Nodup := by
  refine h.imp fun {a b} hlt hab => ?_
  subst hab
  rw [Std.ReflOrd.compare_self] at hlt
  cases hlt

variable [DecidableEq κ]

theorem mem_insert {key : κ} {value : α} {entries : List (κ × α)} {entry : κ × α}
    (h : entry ∈ insert key value entries) : entry = (key, value) ∨ entry ∈ entries := by
  induction entries with
  | nil => exact Or.inl (List.mem_singleton.mp h)
  | cons first rest ih =>
      obtain ⟨k, v⟩ := first
      unfold insert at h
      split at h
      · rcases List.mem_cons.mp h with rfl | hrest
        · exact Or.inl rfl
        · exact Or.inr (List.mem_cons_of_mem _ hrest)
      · split at h
        · exact List.mem_cons.mp h
        · rcases List.mem_cons.mp h with rfl | hrest
          · exact Or.inr List.mem_cons_self
          · rcases ih hrest with hnew | hold
            · exact Or.inl hnew
            · exact Or.inr (List.mem_cons_of_mem _ hold)

theorem mem_map_fst_insert {key other : κ} {value : α} {entries : List (κ × α)} :
    other ∈ (insert key value entries).map Prod.fst
      ↔ other = key ∨ other ∈ entries.map Prod.fst := by
  induction entries with
  | nil => simp [insert]
  | cons first rest ih =>
      obtain ⟨k, v⟩ := first
      unfold insert
      by_cases hk : k = key
      · simp [hk]
      · rw [if_neg hk]
        split
        · simp
        · rw [List.map_cons, List.map_cons, List.mem_cons, List.mem_cons, ih]
          exact or_left_comm

/-- What is found under a key after a value is put there unless it has one. -/
theorem find?_insertNew (key other : κ) (value : α) (entries : List (κ × α)) :
    find? other (insertNew key value entries)
      = (find? other entries).or (if key = other then some value else none) := by
  unfold insertNew contains
  by_cases hkey : key = other
  · subst hkey
    cases hfind : find? key entries with
    | none => simp
    | some found => simp [hfind]
  · have hother : find? other (insert key value entries) = find? other entries :=
      find?_insert_of_ne (Ne.symm hkey) value entries
    rw [if_neg hkey, Option.or_none]
    split
    · rfl
    · exact hother

omit [Ord κ] in
/-- A key that occurs nowhere has no value. -/
theorem find?_eq_none_of_not_mem {key : κ} {entries : List (κ × α)}
    (h : key ∉ entries.map Prod.fst) : find? key entries = none := by
  induction entries with
  | nil => rfl
  | cons first rest ih =>
      rw [List.map_cons, List.mem_cons, not_or] at h
      rw [find?, if_neg (Ne.symm h.1), ih h.2]

/-- If no key is repeated among some pairs, each of them is found after they have been put into a
list, and what was found before under all other keys. -/
theorem find?_foldl_insert_of_nodup {entries : List (κ × α)} (h : (entries.map Prod.fst).Nodup)
    (key : κ) (done : List (κ × α)) :
    find? key (entries.foldl (fun done entry => insert entry.1 entry.2 done) done)
      = (find? key entries).or (find? key done) := by
  induction entries generalizing done with
  | nil => rfl
  | cons first rest ih =>
      rw [List.map_cons, List.nodup_cons] at h
      rw [List.foldl_cons, ih h.2, find?_insert, find?]
      by_cases hkey : first.1 = key
      · rw [← hkey, find?_eq_none_of_not_mem h.1]
        simp
      · simp [hkey, Ne.symm hkey]

/-- Pairs with other keys change nothing under a key. -/
theorem find?_foldl_insert_of_not_mem {entries : List (κ × α)} {key : κ}
    (h : key ∉ entries.map Prod.fst) (done : List (κ × α)) :
    find? key (entries.foldl (fun done entry => insert entry.1 entry.2 done) done)
      = find? key done := by
  induction entries generalizing done with
  | nil => rfl
  | cons first rest ih =>
      rw [List.map_cons, List.mem_cons, not_or] at h
      rw [List.foldl_cons, ih h.2, find?_insert_of_ne h.1]

/-- Of some pairs with one key the last is found in their ordered list. -/
theorem find?_ofList_append (front : List (κ × α)) {key : κ} {rest : List (κ × α)}
    (h : key ∉ rest.map Prod.fst) (value : α) :
    find? key (ofList (front ++ (key, value) :: rest)) = some value := by
  unfold ofList
  rw [List.foldl_append, List.foldl_cons, find?_foldl_insert_of_not_mem h, find?_insert_self]

/-- Of pairs without a repeated key each one is found in their ordered list. -/
theorem find?_ofList {entries : List (κ × α)} (h : (entries.map Prod.fst).Nodup) (key : κ) :
    find? key (ofList entries) = find? key entries := by
  unfold ofList
  rw [find?_foldl_insert_of_nodup h, find?_nil, Option.or_none]

section Lawful

variable [Std.LawfulEqOrd κ]

/-- An ordered list holds exactly the pairs that looking up finds. -/
theorem mem_iff_find? {entries : List (κ × α)} (h : Ordered entries) (key : κ) (value : α) :
    (key, value) ∈ entries ↔ find? key entries = some value := by
  induction entries with
  | nil => simp
  | cons first rest ih =>
      obtain ⟨k, v⟩ := first
      obtain ⟨habove, hrest⟩ := List.pairwise_cons.mp h
      unfold find?
      by_cases hk : k = key
      · subst hk
        -- A second entry with the first key would stand behind it and above it.
        have hlater : (k, value) ∉ rest := fun hmem => by
          have hlt : compare k k = .lt := habove (k, value) hmem
          rw [Std.ReflOrd.compare_self] at hlt
          cases hlt
        simp [hlater, eq_comm]
      · rw [if_neg hk, ← ih hrest, List.mem_cons]
        simp [Ne.symm hk]

omit [DecidableEq κ] in
/-- An ordered list has every key once. -/
theorem Ordered.nodup_keys {entries : List (κ × α)} (h : Ordered entries) :
    (entries.map Prod.fst).Nodup := by
  refine List.Pairwise.map Prod.fst (fun a b hlt hab => ?_) h
  rw [hab, Std.ReflOrd.compare_self] at hlt
  cases hlt

variable [Std.TransOrd κ]

theorem ordered_insert (key : κ) (value : α) {entries : List (κ × α)} (h : Ordered entries) :
    Ordered (insert key value entries) := by
  induction entries with
  | nil => exact List.pairwise_singleton _ _
  | cons first rest ih =>
      obtain ⟨k, v⟩ := first
      obtain ⟨habove, hrest⟩ := List.pairwise_cons.mp h
      unfold insert
      split
      · rename_i hk
        subst hk
        exact List.pairwise_cons.mpr ⟨habove, hrest⟩
      · rename_i hne
        split
        · rename_i hlt
          refine List.pairwise_cons.mpr ⟨fun entry hentry => ?_, h⟩
          rcases List.mem_cons.mp hentry with rfl | hlater
          · exact hlt
          · exact Std.TransCmp.lt_trans hlt (habove entry hlater)
        · rename_i hnot
          refine List.pairwise_cons.mpr ⟨fun entry hentry => ?_, ih hrest⟩
          rcases mem_insert hentry with rfl | hold
          · exact lt_of_ne_of_not_lt hne hnot
          · exact habove entry hold

theorem ordered_insertNew (key : κ) (value : α) {entries : List (κ × α)} (h : Ordered entries) :
    Ordered (insertNew key value entries) := by
  unfold insertNew
  split
  · exact h
  · exact ordered_insert key value h

/-- **Ordered lists are told by their look-ups.** -/
theorem ext {entries other : List (κ × α)} (h : Ordered entries) (hother : Ordered other)
    (hfind : ∀ key, find? key entries = find? key other) : entries = other := by
  have hmem : ∀ entry, entry ∈ entries ↔ entry ∈ other := by
    intro entry
    obtain ⟨key, value⟩ := entry
    rw [mem_iff_find? h, mem_iff_find? hother, hfind key]
  have hperm : entries.Perm other := (List.perm_ext_iff_of_nodup h.nodup hother.nodup).mpr hmem
  refine hperm.eq_of_pairwise (fun a b _ _ hab hba => ?_) h hother
  rw [Std.OrientedCmp.gt_of_lt hab] at hba
  cases hba

theorem ordered_ofList (entries : List (κ × α)) : Ordered (ofList entries) := by
  unfold ofList
  refine List.foldlRecOn entries _ ordered_nil ?_
  intro done hdone entry _
  exact ordered_insert entry.1 entry.2 hdone

/-- An ordered list is its own ordered list. -/
theorem ofList_of_ordered {entries : List (κ × α)} (h : Ordered entries) :
    ofList entries = entries :=
  ext (ordered_ofList entries) h (find?_ofList h.nodup_keys)

end Lawful

end Reporting.Keyed
