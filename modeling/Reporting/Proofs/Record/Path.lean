import Reporting.Record.Path

/-!
# Following paths

A path is followed key by key, so following some keys and then more is going on from where the
first of them led (`Json.follow?_append`).  A dot between two paths does the same to their keys
(`Path.segments_dot`), whatever empty segments it stands next to, and hence to the paths
(`Json.resolve?_dot`).  Both must not be empty: alone the empty path leads nowhere, while beside a
dot it is an empty key.

A key without dots is a path of its own, which leads to the value under the key
(`Json.resolve?_eq_get?`).
-/

namespace Reporting

/-- A dot between two paths puts their keys one after the other. -/
theorem Path.segments_dot (outer inner : String) :
    segments (outer ++ "." ++ inner) = segments outer ++ segments inner := by
  have hchars : (outer ++ "." ++ inner).toList = outer.toList ++ '.' :: inner.toList := by simp
  unfold segments
  rw [hchars, Text.split_append, List.map_append]

namespace Json

@[simp] theorem follow?_nil (json : Json) : json.follow? [] = some json := rfl

@[simp] theorem follow?_cons (json : Json) (key : String) (keys : List String) :
    json.follow? (key :: keys) = (json.get? key).bind fun inner => inner.follow? keys := rfl

/-- Keys lead on from where the keys in front of them led. -/
theorem follow?_append (json : Json) (front back : List String) :
    json.follow? (front ++ back) = (json.follow? front).bind fun inner => inner.follow? back := by
  induction front generalizing json with
  | nil => rfl
  | cons key keys ih =>
      rw [List.cons_append, follow?_cons, follow?_cons]
      cases json.get? key with
      | none => rfl
      | some inner => exact ih inner

/-- Only the empty path is more than its keys. -/
theorem resolve?_eq_follow? {path : String} (hempty : path ≠ "") (record : Json) :
    record.resolve? path = record.follow? (Path.segments path) :=
  if_neg (by simpa using hempty)

/-- **A path after a dot leads on from where the path in front of it led.** -/
theorem resolve?_dot {outer inner : String} (houter : outer ≠ "") (hinner : inner ≠ "")
    (record : Json) :
    record.resolve? (outer ++ "." ++ inner)
      = (record.resolve? outer).bind fun value => value.resolve? inner := by
  have hnested : outer ++ "." ++ inner ≠ "" := by simp [houter]
  rw [resolve?_eq_follow? hnested, resolve?_eq_follow? houter, Path.segments_dot, follow?_append]
  congr 1
  funext value
  exact (resolve?_eq_follow? hinner value).symm

/-- Where `null` counts as missing, every other value at a path is still there. -/
theorem resolvePresent?_eq_some_iff {record value : Json} {path : String} :
    record.resolvePresent? path = some value ↔ record.resolve? path = some value ∧ value ≠ .null := by
  unfold resolvePresent?
  rw [Option.filter_eq_some_iff]
  cases value <;> simp [isNull]

/-- At a path of one segment stands the value under the key. -/
theorem resolve?_eq_get? {path : String} (hempty : path ≠ "") (hdot : '.' ∉ path.toList)
    (record : Json) : record.resolve? path = record.get? path := by
  have hsegments : Path.segments path = [path] := by
    unfold Path.segments
    rw [Text.split_of_not_mem hdot]
    simp
  rw [resolve?_eq_follow? hempty, hsegments]
  cases h : record.get? path <;> simp [h]

end Json

end Reporting
