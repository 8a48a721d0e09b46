import Reporting.Proofs.Row

/-!
# Rows that are written to more than once

A row is reached from the empty one by calls, of which two kinds write a cell and one remembers the
value at a path.  What a cell shows is the value of the last write to it.  What it is sorted by is
the value behind it, and only a formatted write puts a value there: a plain write replaces the cell
and leaves the value behind the old cell in place.  So a row is sorted by the last write if that
write is formatted or if no write before it was, and otherwise by the last write that was formatted
(`Row.sortValue?_ofCalls`).
-/

namespace Reporting

/-- A call that changes a row. -/
inductive RowCall where
  | insert (key : String) (value : Json)
  | insertFormatted (key : String) (display raw : Json)
  | insertPathValue (path : String) (raw : Json)

namespace RowCall

/-- The row after a call. -/
def perform (row : Row) : RowCall → Row
  | insert key value => row.insert key value
  | insertFormatted key display raw => row.insertFormatted key display raw
  | insertPathValue path raw => row.insertPathValue path raw

/-- The key of the cell that a call writes to. -/
def key? : RowCall → Option String
  | insert key _ => some key
  | insertFormatted key _ _ => some key
  | insertPathValue _ _ => none

/-- The key of the cell that a call puts a value behind. -/
def formattedKey? : RowCall → Option String
  | insertFormatted key _ _ => some key
  | insert _ _ | insertPathValue _ _ => none

/-- The value that a call shows. -/
def shown : RowCall → Json
  | insert _ value => value
  | insertFormatted _ display _ => display
  | insertPathValue _ raw => raw

/-- The value that a call gives to sort by. -/
def sorted : RowCall → Json
  | insert _ value => value
  | insertFormatted _ _ raw => raw
  | insertPathValue _ raw => raw

/-- A formatted write is a write. -/
theorem key?_of_formattedKey? {call : RowCall} {key : String}
    (h : call.formattedKey? = some key) : call.key? = some key := by
  cases call with
  | insertFormatted other display raw => exact h
  | insert other value | insertPathValue path raw => cases h

/-- What a plain write shows is what it gives to sort by. -/
theorem sorted_eq_shown {call : RowCall} (h : call.formattedKey? = none) :
    call.sorted = call.shown := by
  cases call with
  | insertFormatted other display raw => cases h
  | insert other value | insertPathValue path raw => rfl

end RowCall

/-- The row after some calls. -/
def Row.ofCalls (calls : List RowCall) : Row :=
  calls.foldl RowCall.perform empty

/-! ## Registers -/

/-- What a row keeps under a key: some calls set it and all others leave it alone. -/
structure Register (key : String) where
  look : Row → Option Json
  keyOf : RowCall → Option String
  value : RowCall → Json
  perform : ∀ row call,
    look (call.perform row) = if keyOf call = some key then some (value call) else look row

namespace Register

variable {key : String} (r : Register key)

/-- A register stays through calls that leave it alone. -/
theorem stable (row : Row) {calls : List RowCall}
    (hother : ∀ call ∈ calls, r.keyOf call ≠ some key) :
    r.look (calls.foldl RowCall.perform row) = r.look row := by
  induction calls generalizing row with
  | nil => rfl
  | cons call rest ih =>
      obtain ⟨hcall, hrest⟩ := List.forall_mem_cons.mp hother
      rw [List.foldl_cons, ih _ hrest, r.perform, if_neg hcall]

/-- A register holds the value of the last call that set it. -/
theorem last_write {calls : List RowCall} {place : Nat} {call : RowCall}
    (hlast : LastAt r.keyOf calls place call) (hkey : r.keyOf call = some key) :
    r.look (Row.ofCalls calls) = some (r.value call) := by
  obtain ⟨hcall, hlater⟩ := hlast
  have hsplit : calls = calls.take place ++ call :: calls.drop (place + 1) := by
    obtain ⟨hplace, rfl⟩ := List.getElem?_eq_some_iff.mp hcall
    simp
  have hother : ∀ later ∈ calls.drop (place + 1), r.keyOf later ≠ some key := by
    intro later hmem
    rw [← hkey]
    exact hlater later hmem
  unfold Row.ofCalls
  rw [hsplit, List.foldl_append, List.foldl_cons, r.stable _ hother, r.perform, if_pos hkey]

/-- What a cell shows is set by every write to it. -/
def shown (key : String) : Register key where
  look := fun row => row.get? key
  keyOf := RowCall.key?
  value := RowCall.shown
  perform := by
    intro row call
    cases call with
    | insert other value | insertFormatted other value raw =>
        show Keyed.find? key (Keyed.insert other value row.values) = _
        rw [Keyed.find?_insert]
        simp [RowCall.key?, RowCall.shown, Row.get?, eq_comm]
    | insertPathValue path raw => rfl

/-- The value behind a cell is set by the formatted writes to it. -/
def behind (key : String) : Register key where
  look := fun row => Keyed.find? key row.raw
  keyOf := RowCall.formattedKey?
  value := RowCall.sorted
  perform := by
    intro row call
    cases call with
    | insertFormatted other display raw =>
        show Keyed.find? key (Keyed.insert other raw row.raw) = _
        rw [Keyed.find?_insert]
        simp [RowCall.formattedKey?, RowCall.sorted, eq_comm]
    | insert other value | insertPathValue path raw => rfl

end Register

/-! ## Rows -/

namespace Row

section LastWrite

variable {calls : List RowCall} {place : Nat} {call : RowCall} {key : String}

/-- A cell shows the value of the last write to it. -/
theorem get?_ofCalls_of_lastAt (hlast : LastAt RowCall.key? calls place call)
    (hkey : call.key? = some key) : (ofCalls calls).get? key = some call.shown :=
  (Register.shown key).last_write hlast hkey

/-- After a formatted write to a cell the row is sorted by the value of the last one. -/
theorem sortValue?_ofCalls_of_lastAt (hlast : LastAt RowCall.formattedKey? calls place call)
    (hkey : call.formattedKey? = some key) :
    (ofCalls calls).sortValue? key = some call.sorted := by
  have hraw : Keyed.find? key (ofCalls calls).raw = some call.sorted :=
    (Register.behind key).last_write hlast hkey
  rw [sortValue?, hraw, Option.some_or]

/-- Without a formatted write to a cell the row is sorted by what the cell shows. -/
theorem sortValue?_ofCalls_of_plain (hlast : LastAt RowCall.key? calls place call)
    (hkey : call.key? = some key) (hplain : ∀ other ∈ calls, other.formattedKey? ≠ some key) :
    (ofCalls calls).sortValue? key = some call.shown := by
  have hraw : Keyed.find? key (ofCalls calls).raw = none :=
    (Register.behind key).stable empty hplain
  have hcell : Keyed.find? key (ofCalls calls).values = some call.shown :=
    get?_ofCalls_of_lastAt hlast hkey
  rw [sortValue?, hraw, hcell, Option.none_or, Option.some_or]

/-- The last write to a cell is the last formatted one if it is formatted. -/
theorem lastAt_formatted (hlast : LastAt RowCall.key? calls place call)
    (hkey : call.formattedKey? = some key) :
    LastAt RowCall.formattedKey? calls place call := by
  refine ⟨hlast.1, ?_⟩
  intro later hlater hsame
  apply hlast.2 later hlater
  rw [RowCall.key?_of_formattedKey? (hsame.trans hkey), RowCall.key?_of_formattedKey? hkey]

end LastWrite

/-- **What a row is sorted by after any calls.**  Under a key that was written to, the cell shows the
value of the last write to it.  The row is sorted by the value of this write if it is formatted, or
if none of the calls is a formatted write to the cell.  In every case in which one of them is, the
row is sorted by the value of the last one that is. -/
theorem sortValue?_ofCalls {calls : List RowCall} {key : String}
    (hwritten : ∃ call ∈ calls, call.key? = some key) :
    ∃ place call, LastAt RowCall.key? calls place call ∧ call.key? = some key ∧
      (ofCalls calls).get? key = some call.shown ∧
      (call.formattedKey? = some key ∨ (∀ other ∈ calls, other.formattedKey? ≠ some key) →
        (ofCalls calls).sortValue? key = some call.sorted) ∧
      ((∃ other ∈ calls, other.formattedKey? = some key) →
        ∃ place' formatted, LastAt RowCall.formattedKey? calls place' formatted ∧
          formatted.formattedKey? = some key ∧
          (ofCalls calls).sortValue? key = some formatted.sorted) := by
  obtain ⟨place, call, hlast, hkey⟩ := exists_lastAt hwritten
  refine ⟨place, call, hlast, hkey, get?_ofCalls_of_lastAt hlast hkey, ?_, ?_⟩
  · rintro (hformatted | hplain)
    · exact sortValue?_ofCalls_of_lastAt (lastAt_formatted hlast hformatted) hformatted
    · -- The last write is plain itself, so it shows what it gives to sort by.
      have hcall : call.formattedKey? = none := by
        cases hother : call.formattedKey? with
        | none => rfl
        | some other =>
            have hsame := (RowCall.key?_of_formattedKey? hother).symm.trans hkey
            exact absurd (hother.trans hsame) (hplain call (List.mem_of_getElem? hlast.1))
      rw [RowCall.sorted_eq_shown hcall]
      exact sortValue?_ofCalls_of_plain hlast hkey hplain
  · intro hformatted
    obtain ⟨place', formatted, hlast', hkey'⟩ := exists_lastAt hformatted
    exact ⟨place', formatted, hlast', hkey', sortValue?_ofCalls_of_lastAt hlast' hkey'⟩

/-- The theorem at a price that is written as it is and then formatted, and whose path is remembered
afterwards. -/
theorem sortValue?_ofCalls_formatted_last :
    let calls : List RowCall := [.insert "price" (.ofNat 1),
      .insertFormatted "price" (.str "$2.00") (.ofNat 2), .insertPathValue "price" (.ofNat 3)]
    (∃ call ∈ calls, call.key? = some "price") ∧
      ∃ place call, LastAt RowCall.key? calls place call ∧ call.key? = some "price" ∧
        (ofCalls calls).get? "price" = some call.shown ∧
        (ofCalls calls).sortValue? "price" = some call.sorted := by
  intro calls
  have hwritten : ∃ call ∈ calls, call.key? = some "price" :=
    ⟨_, List.mem_cons_self, rfl⟩
  obtain ⟨place, call, hlast, hkey, hshown, hsorted, _⟩ := sortValue?_ofCalls hwritten
  have hcall : call.formattedKey? = some "price" := by
    have hfound := hlast.findRev?_eq
    rw [hkey] at hfound
    obtain rfl := Option.some.inj hfound
    rfl
  exact ⟨hwritten, place, call, hlast, hkey, hshown, hsorted (.inl hcall)⟩

/-- A plain write to a cell that was formatted is shown, but the row is sorted by the value behind
the old cell. -/
theorem sortValue?_stale_after_plain_write :
    let calls : List RowCall := [.insertFormatted "k" (.str "a") (.ofNat 1), .insert "k" (.str "b")]
    LastAt RowCall.key? calls 1 (.insert "k" (.str "b")) ∧
      (ofCalls calls).get? "k" = some (.str "b") ∧
      (ofCalls calls).sortValue? "k" = some (.ofNat 1) ∧ Json.ofNat 1 ≠ .str "b" :=
  ⟨⟨rfl, nofun⟩, rfl, rfl, nofun⟩

end Row

end Reporting
