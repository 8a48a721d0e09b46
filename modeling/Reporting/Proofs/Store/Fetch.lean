import Mathlib.Data.List.Basic
import Reporting.Store.Basic

/-!
# Fetched records

Fetching adds the name of the source to every record and leaves everything else alone
(`Json.get?_of_tag`).  So what is fetched depends on nothing but what the store loads for the
built-in sources (`fetchAll_congr`), and a choice among the loaded records that does not look at
the name of the source is the same choice among the fetched ones (`fetchAll_filter`).
-/

namespace Reporting

/-- A partial function may be applied before or after a choice, if the choice among its values is
the choice among its arguments. -/
theorem filterMap_filter_of_agree {α β : Type} {f : α → Option β} {keep : α → Bool}
    {keep' : β → Bool} {xs : List α}
    (h : ∀ x ∈ xs, ∀ y, f x = some y → keep' y = keep x) :
    (xs.filter keep).filterMap f = (xs.filterMap f).filter keep' := by
  rw [List.filterMap_filter, List.filter_filterMap]
  refine List.filterMap_congr fun x hx => ?_
  cases hf : f x with
  | none => simp
  | some y => simp [Option.filter, h x hx y hf]

/-- A tagged record has the name of its source, and otherwise what the record has. -/
theorem Json.get?_of_tag {source : Source} {record tagged : Json}
    (h : record.tag? source = some tagged) (key : String) :
    tagged.get? key = if key = sourceKey then some (.str source.name) else record.get? key := by
  cases record with
  | obj members =>
      obtain rfl := Option.some.inj h
      exact Keyed.find?_insert sourceKey key (.str source.name) members
  | _ => cases h

/-- A tagged record has the owner of the record. -/
theorem Json.owner?_of_tag {source : Source} {record tagged : Json}
    (h : record.tag? source = some tagged) : tagged.owner? = record.owner? := by
  have hkey : ownerKey ≠ sourceKey := by decide
  unfold owner?
  rw [Json.get?_of_tag h, if_neg hkey]

namespace RecordStore

variable {σ τ : Type} [RecordStore σ] [RecordStore τ] {store : σ} {other : τ}
  {scope scope' : Scope}

/-- What is fetched depends on what is loaded for the built-in sources. -/
theorem fetchAll_congr
    (h : ∀ b, load store (.builtIn b) scope = load other (.builtIn b) scope')
    (sources : List Source) : fetchAll store sources scope = fetchAll other sources scope' := by
  refine List.flatMap_congr fun source _ => ?_
  cases source with
  | builtIn b => simp only [fetch, h b]
  | other name unknown => rfl

/-- A choice among the loaded records that ignores their tags is a choice among the fetched
ones. -/
theorem fetchAll_filter {keep : Json → Bool}
    (hload : ∀ b, load store (.builtIn b) scope
      = (load other (.builtIn b) scope').filter keep)
    (hkeep : ∀ source record tagged, Json.tag? source record = some tagged →
      keep tagged = keep record)
    (sources : List Source) :
    fetchAll store sources scope = (fetchAll other sources scope').filter keep := by
  unfold fetchAll
  rw [List.filter_flatMap]
  refine List.flatMap_congr fun source _ => ?_
  cases source with
  | builtIn b =>
      simp only [fetch, hload b]
      exact filterMap_filter_of_agree fun record _ tagged htag => hkeep _ record tagged htag
  | other name unknown => rfl

end RecordStore

end Reporting
