/-!
# Ordered association lists

Objects, catalogs and in-memory stores are lists of pairs in the order of their keys, each key
once.  `find?` looks a key up; `insert` puts a pair at its place or replaces the value under an
equal key; `erase` removes a key.

Looking up after an insertion or a removal is described by equations that hold for every list,
also for one that is out of order (`find?_insert_self`, `find?_insert_of_ne`, `find?_erase_self`,
`find?_erase_of_ne`).
-/

namespace Reporting.Keyed

variable {κ α : Type} [DecidableEq κ]

/-- The value under a key. -/
def find? (key : κ) : List (κ × α) → Option α
  | [] => none
  | (k, v) :: rest => if k = key then some v else find? key rest

/-- Whether a key occurs. -/
def contains (key : κ) (entries : List (κ × α)) : Bool :=
  (find? key entries).isSome

/-- Put a value under a key: in place of the value there, or in front of the first greater key. -/
def insert [Ord κ] (key : κ) (value : α) : List (κ × α) → List (κ × α)
  | [] => [(key, value)]
  | (k, v) :: rest =>
    if k = key then (key, value) :: rest
    else if compare key k = .lt then (key, value) :: (k, v) :: rest
    else (k, v) :: insert key value rest

/-- Put a value under a key that has none yet. -/
def insertNew [Ord κ] (key : κ) (value : α) (entries : List (κ × α)) : List (κ × α) :=
  if contains key entries then entries else insert key value entries

/-- Remove a key. -/
def erase (key : κ) : List (κ × α) → List (κ × α)
  | [] => []
  | (k, v) :: rest => if k = key then erase key rest else (k, v) :: erase key rest

/-- The ordered list of some pairs, of which a later one replaces an earlier one with its key. -/
def ofList [Ord κ] (entries : List (κ × α)) : List (κ × α) :=
  entries.foldl (fun done entry => insert entry.1 entry.2 done) []

@[simp] theorem find?_nil (key : κ) : find? key ([] : List (κ × α)) = none := rfl

@[simp] theorem find?_insert_self [Ord κ] (key : κ) (value : α) (entries : List (κ × α)) :
    find? key (insert key value entries) = some value := by
  induction entries with
  | nil => simp [insert, find?]
  | cons entry rest ih =>
      obtain ⟨k, v⟩ := entry
      unfold insert
      split
      · simp [find?]
      · split
        · simp [find?]
        · rename_i hne _
          simp [find?, hne, ih]

theorem find?_insert_of_ne [Ord κ] {key other : κ} (h : other ≠ key) (value : α)
    (entries : List (κ × α)) :
    find? other (insert key value entries) = find? other entries := by
  induction entries with
  | nil => simp [insert, find?, Ne.symm h]
  | cons entry rest ih =>
      obtain ⟨k, v⟩ := entry
      unfold insert
      split
      · rename_i hk
        simp [find?, Ne.symm h, hk]
      · split
        · simp [find?, Ne.symm h]
        · simp [find?, ih]

/-- The value after an insertion: the new one under the new key, the old one elsewhere. -/
theorem find?_insert [Ord κ] (key other : κ) (value : α) (entries : List (κ × α)) :
    find? other (insert key value entries)
      = if other = key then some value else find? other entries := by
  split
  · rename_i h
    rw [h, find?_insert_self]
  · rename_i h
    exact find?_insert_of_ne h value entries

@[simp] theorem find?_erase_self (key : κ) (entries : List (κ × α)) :
    find? key (erase key entries) = none := by
  induction entries with
  | nil => rfl
  | cons entry rest ih =>
      obtain ⟨k, v⟩ := entry
      by_cases h : k = key
      · simp [erase, h, ih]
      · simp [erase, find?, h, ih]

theorem find?_erase_of_ne {key other : κ} (h : other ≠ key) (entries : List (κ × α)) :
    find? other (erase key entries) = find? other entries := by
  induction entries with
  | nil => rfl
  | cons entry rest ih =>
      obtain ⟨k, v⟩ := entry
      by_cases hk : k = key
      · simp [erase, find?, hk, Ne.symm h, ih]
      · simp [erase, find?, hk, ih]

end Reporting.Keyed
