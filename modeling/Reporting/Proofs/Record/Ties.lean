import Reporting.Proofs.Json.Unambiguous
import Reporting.Proofs.Record.Order

/-!
# Values that tie

Two values tie in the order exactly if they are strictly equal.  Numbers are compared and equated by
value.  Arrays and objects are compared by their text and equated item by item, which is the same
because no two values have one text (`Json.text_injective`).  One number stands in the way: the
negative zero equals zero and has another text, so inside an array or an object it is left out.
-/

namespace Reporting

namespace Binary64

/-- Whether a number is the negative zero. -/
def isNegativeZero (x : Binary64) : Bool :=
  x.negative && x.units == 0

theorem sameValue_self (x : Binary64) : x.sameValue x = true :=
  beq_self_eq_true x.value

/-- Apart from the negative zero, numbers of the same value are the same. -/
theorem eq_of_sameValue {x y : Binary64} (hx : x.isNegativeZero = false)
    (hy : y.isNegativeZero = false) (h : x.sameValue y = true) : x = y := by
  have hvalue : x.value = y.value := eq_of_beq h
  simp only [isNegativeZero, Bool.and_eq_false_iff, beq_eq_false_iff_ne] at hx hy
  simp only [value] at hvalue
  cases hxs : x.negative <;> cases hys : y.negative <;> simp only [hxs, hys] at hvalue hx hy
  case false.false => exact ext (hxs.trans hys.symm) (by grind)
  case true.true => exact ext (hxs.trans hys.symm) (by grind)
  all_goals grind

end Binary64

namespace Json

/-- Whether the negative zero occurs in a value. -/
def hasNegativeZero : Json → Bool
  | .num (.real x) => x.isNegativeZero
  | .arr items => inItems items
  | .obj members => inMembers members
  | _ => false
where
  /-- Whether the negative zero occurs in an array. -/
  inItems : List Json → Bool
    | [] => false
    | x :: rest => x.hasNegativeZero || inItems rest
  /-- Whether the negative zero occurs in an object. -/
  inMembers : Members → Bool
    | [] => false
    | (_, x) :: rest => x.hasNegativeZero || inMembers rest

/-- Whether the negative zero occurs inside an array or an object. -/
def hidesNegativeZero : Json → Bool
  | .num _ => false
  | json => json.hasNegativeZero

/-! ## Identity -/

mutual

theorem same_self : ∀ json : Json, json.same json = true
  | .null => rfl
  | .bool b => beq_self_eq_true b
  | .num (.whole n) => beq_self_eq_true n.val
  | .num (.real x) => x.sameValue_self
  | .str s => beq_self_eq_true s
  | .arr items => sameItems_self items
  | .obj members => sameMembers_self members

theorem sameItems_self : ∀ items : List Json, same.sameItems items items = true
  | [] => rfl
  | x :: rest => by
      rw [same.sameItems, same_self x, sameItems_self rest]
      rfl

theorem sameMembers_self : ∀ members : Members, same.sameMembers members members = true
  | [] => rfl
  | (k, x) :: rest => by
      rw [same.sameMembers, beq_self_eq_true, same_self x, sameMembers_self rest]
      rfl

end

mutual

/-- **Values without a negative zero are identical only to themselves.** -/
theorem eq_of_same : ∀ {a b : Json}, a.hasNegativeZero = false → b.hasNegativeZero = false →
    a.same b = true → a = b
  | .null, b, _, _, h => by cases b <;> simp_all [same]
  | .bool x, b, _, _, h => by cases b <;> simp_all [same]
  | .num (.whole m), b, _, _, h => by
      rcases b with _ | _ | ⟨n | _⟩ | _ | _ | _ <;> simp only [same, Number.same] at h
      -- Any other kind contradicts the hypothesis.
      all_goals first | contradiction | skip
      have hval : m.val = n.val := eq_of_beq h
      obtain ⟨_, _, _⟩ := m
      cases hval
      rfl
  | .num (.real x), b, ha, hb, h => by
      rcases b with _ | _ | ⟨_ | y⟩ | _ | _ | _ <;> simp only [same, Number.same] at h
      all_goals first | contradiction | skip
      rw [Binary64.eq_of_sameValue ha hb h]
  | .str s, b, _, _, h => by cases b <;> simp_all [same]
  | .arr xs, b, ha, hb, h => by
      cases b with
      | arr ys => rw [eq_of_sameItems ha hb h]
      | _ => simp [same] at h
  | .obj xs, b, ha, hb, h => by
      cases b with
      | obj ys => rw [eq_of_sameMembers ha hb h]
      | _ => simp [same] at h

theorem eq_of_sameItems : ∀ {xs ys : List Json}, hasNegativeZero.inItems xs = false →
    hasNegativeZero.inItems ys = false → same.sameItems xs ys = true → xs = ys
  | [], ys, _, _, h => by cases ys <;> simp_all [same.sameItems]
  | x :: xs, ys, hxs, hys, h => by
      cases ys with
      | nil => simp [same.sameItems] at h
      | cons y ys =>
          simp only [hasNegativeZero.inItems, Bool.or_eq_false_iff] at hxs hys
          simp only [same.sameItems, Bool.and_eq_true] at h
          rw [eq_of_same hxs.1 hys.1 h.1, eq_of_sameItems hxs.2 hys.2 h.2]

theorem eq_of_sameMembers : ∀ {xs ys : Members}, hasNegativeZero.inMembers xs = false →
    hasNegativeZero.inMembers ys = false → same.sameMembers xs ys = true → xs = ys
  | [], ys, _, _, h => by cases ys <;> simp_all [same.sameMembers]
  | (k, x) :: xs, ys, hxs, hys, h => by
      cases ys with
      | nil => simp [same.sameMembers] at h
      | cons y ys =>
          obtain ⟨l, y⟩ := y
          simp only [hasNegativeZero.inMembers, Bool.or_eq_false_iff] at hxs hys
          simp only [same.sameMembers, Bool.and_eq_true, beq_iff_eq] at h
          rw [h.1.1, eq_of_same hxs.1 hys.1 h.1.2, eq_of_sameMembers hxs.2 hys.2 h.2]

end

/-- Without a negative zero, identity is sameness of text. -/
theorem same_iff_text_eq {a b : Json} (ha : a.hasNegativeZero = false)
    (hb : b.hasNegativeZero = false) : a.same b = true ↔ a.text = b.text := by
  constructor
  · intro h
    rw [eq_of_same ha hb h]
  · intro h
    rw [text_injective h]
    exact b.same_self

/-! ## Ties -/

/-- Values that tie have the same rank. -/
theorem rank_eq_of_order_eq {a b : Option Json} (h : order a b = .eq) : rank a = rank b := by
  unfold order at h
  rw [Ordering.then_eq_eq] at h
  exact Std.LawfulEqOrd.eq_of_compare h.1

/-- Strictly equal values have the same rank. -/
theorem rank_eq_of_strictEq {a b : Json} (h : a.strictEq b = true) :
    rank (some a) = rank (some b) := by
  cases a <;> cases b <;> simp_all [strictEq, same, rank]

/-- Values of one rank tie if there is no difference within the rank. -/
theorem order_eq_orderWithin {a b : Option Json} (h : rank a = rank b) :
    order a b = orderWithin a b := by
  unfold order
  rw [h, Std.ReflOrd.compare_self]
  rfl

/-- Arrays and objects are compared by text. -/
theorem orderWithin_eq_compare_text {a b : Json} (ha : rank (some a) = 4)
    (hb : rank (some b) = 4) : orderWithin (some a) (some b) = compare a.text b.text := by
  cases a <;> cases b <;> simp_all [orderWithin, rank]

/-- Arrays and objects are strictly equal if they are identical. -/
theorem strictEq_eq_same {a b : Json} (ha : rank (some a) = 4) : a.strictEq b = a.same b := by
  cases a <;> simp_all [strictEq, rank]

/-- Arrays and objects without a negative zero tie exactly if they are strictly equal. -/
theorem orderWithin_containers {a b : Json} (ha : rank (some a) = 4) (hb : rank (some b) = 4)
    (hazero : a.hasNegativeZero = false) (hbzero : b.hasNegativeZero = false) :
    orderWithin (some a) (some b) = .eq ↔ a.strictEq b = true := by
  rw [orderWithin_eq_compare_text ha hb, strictEq_eq_same ha, same_iff_text_eq hazero hbzero,
    Std.LawfulEqOrd.compare_eq_iff_eq]

/-- Values of one rank other than `null` tie exactly if they are strictly equal. -/
theorem orderWithin_eq_iff_strictEq {a b : Json} (hrank : rank (some a) = rank (some b))
    (hnull : a ≠ .null) (ha : a.hidesNegativeZero = false) (hb : b.hidesNegativeZero = false) :
    orderWithin (some a) (some b) = .eq ↔ a.strictEq b = true := by
  cases a with
  | null => exact absurd rfl hnull
  | bool x => cases b <;> simp_all [orderWithin, strictEq, same, rank]
  | num m =>
      cases b <;> simp_all [orderWithin, strictEq, rank, Number.compare, Binary64.compare,
        Binary64.sameValue]
  | str s => cases b <;> simp_all [orderWithin, strictEq, same, rank]
  | arr xs =>
      cases b with
      | arr ys => exact orderWithin_containers rfl rfl ha hb
      | obj ys => exact orderWithin_containers rfl rfl ha hb
      | _ => cases hrank
  | obj xs =>
      cases b with
      | arr ys => exact orderWithin_containers rfl rfl ha hb
      | obj ys => exact orderWithin_containers rfl rfl ha hb
      | _ => cases hrank

/-- **The order of values is a total preorder, and its ties are the equal values**, values with a
negative zero inside an array or an object apart. -/
theorem order_preorder_and_ties :
    (∀ a : Option Json, order a a = .eq) ∧
    (∀ a b : Option Json, order b a = (order a b).swap) ∧
    (∀ a b c : Option Json, order a b ≠ .gt → order b c ≠ .gt → order a c ≠ .gt) ∧
    ∀ a b : Json, a ≠ .null → b ≠ .null → a.hidesNegativeZero = false →
      b.hidesNegativeZero = false → (order (some a) (some b) = .eq ↔ a.strictEq b = true) := by
  refine ⟨fun _ => Std.ReflCmp.compare_self, fun _ _ => Std.OrientedCmp.eq_swap, ?_, ?_⟩
  · intro a b c hab hbc
    have hle := Std.TransCmp.isLE_trans (Ordering.isLE_iff_ne_gt.mpr hab)
      (Ordering.isLE_iff_ne_gt.mpr hbc)
    exact Ordering.isLE_iff_ne_gt.mp hle
  · intro a b hnull _ ha hb
    constructor
    · intro htie
      have hrank := rank_eq_of_order_eq htie
      rw [order_eq_orderWithin hrank] at htie
      exact (orderWithin_eq_iff_strictEq hrank hnull ha hb).mp htie
    · intro hequal
      have hrank := rank_eq_of_strictEq hequal
      rw [order_eq_orderWithin hrank]
      exact (orderWithin_eq_iff_strictEq hrank hnull ha hb).mpr hequal

/-- One as a whole number. -/
def wholeOne : Json := .num (.whole ⟨1, by decide, by decide⟩)

/-- One as a real number. -/
def realOne : Json := .num (.real (Binary64.ofInt 1 (by decide)))

/-- Nothing comes before a string because it comes before a number and the number before the string.
The two forms of one tie, and the arrays of them do not. -/
theorem order_of_ones :
    order none (some (.str "one")) ≠ .gt ∧
    order (some wholeOne) (some realOne) = .eq ∧
    order (some (.arr [wholeOne])) (some (.arr [realOne])) ≠ .eq := by
  obtain ⟨_, _, htrans, hties⟩ := order_preorder_and_ties
  refine ⟨?_, ?_, ?_⟩
  · exact htrans none (some wholeOne) (some (.str "one")) (by decide) (by decide)
  · exact (hties wholeOne realOne nofun nofun rfl rfl).mpr (Binary64.sameValue_self _)
  · intro htie
    have hequal := (hties (.arr [wholeOne]) (.arr [realOne]) nofun nofun rfl rfl).mp htie
    cases hequal

end Json

end Reporting
