import Reporting.Store.Basic

/-!
# The in-memory store

Records are kept as they are, for each source in the order of insertion.  An agent sees the records
that name the agent as their owner.
-/

namespace Reporting

/-- Records by source. -/
structure MemoryStore where
  entries : List (Source × List Json)

namespace MemoryStore

/-- A store without records. -/
def empty : MemoryStore := ⟨[]⟩

/-- All records of a source. -/
def records (store : MemoryStore) (source : Source) : List Json :=
  (Keyed.find? source store.entries).getD []

/-- Add some records of a source. -/
def extend (store : MemoryStore) (source : Source) (records : List Json) : MemoryStore :=
  ⟨Keyed.insert source (store.records source ++ records) store.entries⟩

/-- Add a record of a source. -/
def insert (store : MemoryStore) (source : Source) (record : Json) : MemoryStore :=
  store.extend source [record]

/-- The number of records of a source. -/
def count (store : MemoryStore) (source : Source) : Nat :=
  (store.records source).length

/-- Remove all records of a source. -/
def clear (store : MemoryStore) (source : Source) : MemoryStore :=
  ⟨Keyed.erase source store.entries⟩

instance : RecordStore MemoryStore where
  load store source scope :=
    (store.records source).filter fun record => scope.canSee record.owner?

end MemoryStore

end Reporting
