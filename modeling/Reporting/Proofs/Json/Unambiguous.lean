import Reporting.Json.Lexeme
import Reporting.Proofs.Json.Numeral

/-!
# Compact text is unambiguous

Values with the same compact text are the same (`Json.text_injective`).  The first character of a
text tells the kind of the value.  A string ends at its first quote that is not escaped, an array and
an object at their bracket, and a number where the characters of numbers end.  So a text in front of
something that does not go on with a number is told apart from what follows it
(`Json.chars_append_inj`), which is what the induction over the value carries.
-/

namespace Reporting

/-- A text up to the first character of another class is told apart from what follows it. -/
theorem Text.append_inj_of_class {p : Char → Bool} {cs ds rest rest' : List Char}
    (hcs : ∀ c ∈ cs, p c = true) (hds : ∀ c ∈ ds, p c = true)
    (hrest : ∀ c ∈ rest.head?, p c = false) (hrest' : ∀ c ∈ rest'.head?, p c = false)
    (h : cs ++ rest = ds ++ rest') : cs = ds ∧ rest = rest' := by
  have hstop : ∀ {xs : List Char}, (∀ c ∈ xs.head?, p c = false) → xs.takeWhile p = [] := by
    intro xs hxs
    cases xs with
    | nil => rfl
    | cons c more => simp [hxs c rfl]
  have htake := congrArg (List.takeWhile p) h
  rw [List.takeWhile_append_of_pos hcs, List.takeWhile_append_of_pos hds, hstop hrest,
    hstop hrest', List.append_nil, List.append_nil] at htake
  subst htake
  exact ⟨rfl, List.append_cancel_left h⟩

namespace Json

/-! ## Strings -/

/-- The character that the inside of a string begins with, unless the string ends there, and what
follows it. -/
def unescape? : List Char → Option (Char × List Char)
  | '\\' :: 'u' :: _ :: _ :: high :: low :: rest => do
    let high ← Text.hexValue? high
    let low ← Text.hexValue? low
    some (Char.ofNat (16 * high + low), rest)
  | '\\' :: c :: rest => (Lexeme.escape? c).map fun c => (c, rest)
  | '"' :: _ => none
  | c :: rest => some (c, rest)
  | [] => none

theorem hexValue?_hexDigit {n : Nat} : Text.hexValue? (Text.hexDigit n) = some (n % 16) := by
  have hall : ∀ k < 16, Text.hexValue? (Nat.digitChar k) = some k := by decide
  exact hall (n % 16) (Nat.mod_lt n (by decide))

/-- **Escaping a character is undone.** -/
theorem unescape?_escaped (c : Char) (rest : List Char) :
    unescape? (escaped c ++ rest) = some (c, rest) := by
  unfold escaped
  -- Seven characters have an escape of one letter.
  iterate 7
    split
    · rename_i h
      subst h
      rfl
  split
  · rename_i hcontrol
    have hcode : 16 * (c.toNat / 16 % 16) + c.toNat % 16 = c.toNat := by omega
    simp only [List.cons_append, List.nil_append, unescape?, hexValue?_hexDigit]
    show some (Char.ofNat (16 * (c.toNat / 16 % 16) + c.toNat % 16), rest) = some (c, rest)
    rw [hcode, Char.ofNat_toNat]
  · rename_i hquote hbackslash _ _ _ _ _ _
    simp only [List.cons_append, List.nil_append]
    rw [unescape?.eq_def]
    split <;> simp_all

/-- The inside of a string is told apart from what follows its closing quote. -/
theorem inside_append_inj {cs ds rest rest' : List Char}
    (h : cs.flatMap escaped ++ '"' :: rest = ds.flatMap escaped ++ '"' :: rest') :
    cs = ds ∧ rest = rest' := by
  have hend : ∀ more, unescape? ('"' :: more) = none := fun _ => rfl
  induction cs generalizing ds with
  | nil =>
      cases ds with
      | nil => exact ⟨rfl, (List.cons.inj h).2⟩
      | cons d ds =>
          have hread := congrArg unescape? h
          rw [List.flatMap_nil, List.nil_append, hend, List.flatMap_cons, List.append_assoc,
            unescape?_escaped] at hread
          cases hread
  | cons c cs ih =>
      cases ds with
      | nil =>
          have hread := congrArg unescape? h
          rw [List.flatMap_nil, List.nil_append, hend, List.flatMap_cons, List.append_assoc,
            unescape?_escaped] at hread
          cases hread
      | cons d ds =>
          have hread := congrArg unescape? h
          rw [List.flatMap_cons, List.flatMap_cons, List.append_assoc, List.append_assoc,
            unescape?_escaped, unescape?_escaped, Option.some.injEq, Prod.mk.injEq] at hread
          obtain ⟨rfl, hmore⟩ := hread
          obtain ⟨rfl, hrest⟩ := ih hmore
          exact ⟨rfl, hrest⟩

/-- A quoted string is told apart from what follows it. -/
theorem quoted_append_inj {s t : String} {rest rest' : List Char}
    (h : quoted s ++ rest = quoted t ++ rest') : s = t ∧ rest = rest' := by
  unfold quoted at h
  rw [List.cons_append, List.cons_append, List.append_assoc, List.append_assoc] at h
  obtain ⟨hinside, hrest⟩ := inside_append_inj (List.cons.inj h).2
  exact ⟨String.toList_inj.mp hinside, hrest⟩

/-! ## Kinds -/

/-- The kind of a value. -/
def kind : Json → Nat
  | .null => 0
  | .bool _ => 1
  | .num _ => 2
  | .str _ => 3
  | .arr _ => 4
  | .obj _ => 5

/-- The kind of the values whose text begins with a character.  No value has the kind of the closing
bracket. -/
def kindOfFirst (c : Char) : Nat :=
  if c = 'n' then 0
  else if c = 't' ∨ c = 'f' then 1
  else if c = '"' then 3
  else if c = '[' then 4
  else if c = '\x7b' then 5
  else if c = ']' then 6
  else 2

theorem kindOfFirst_of_isNumeral {c : Char} (h : Text.isNumeral c = true) : kindOfFirst c = 2 := by
  have hne : ∀ {d : Char}, Text.isNumeral d = false → c ≠ d := by
    rintro d hd rfl
    rw [h] at hd
    cases hd
  simp [kindOfFirst, hne (d := 'n') rfl, hne (d := 't') rfl, hne (d := 'f') rfl,
    hne (d := '"') rfl, hne (d := '[') rfl, hne (d := '\x7b') rfl, hne (d := ']') rfl]

theorem exists_kindOfFirst (json : Json) :
    ∃ first rest, json.chars = first :: rest ∧ kindOfFirst first = json.kind := by
  cases json with
  | null => exact ⟨'n', _, rfl, rfl⟩
  | bool b => cases b with
    | true => exact ⟨'t', _, rfl, rfl⟩
    | false => exact ⟨'f', _, rfl, rfl⟩
  | num n =>
      obtain ⟨first, rest, hchars⟩ := List.exists_cons_of_ne_nil n.chars_ne_nil
      have hfirst : Text.isNumeral first = true :=
        Number.isNumeral_of_mem_chars (hchars ▸ List.mem_cons_self)
      exact ⟨first, rest, hchars, kindOfFirst_of_isNumeral hfirst⟩
  | str s => exact ⟨'"', _, rfl, rfl⟩
  | arr items => exact ⟨'[', _, rfl, rfl⟩
  | obj members => exact ⟨'\x7b', _, rfl, rfl⟩

/-- Values whose texts begin alike are of one kind. -/
theorem kind_eq_of_append {a b : Json} {rest rest' : List Char}
    (h : a.chars ++ rest = b.chars ++ rest') : a.kind = b.kind := by
  obtain ⟨first, more, hchars, hkind⟩ := a.exists_kindOfFirst
  obtain ⟨first', more', hchars', hkind'⟩ := b.exists_kindOfFirst
  rw [hchars, hchars'] at h
  rw [← hkind, ← hkind', (List.cons.inj h).1]

/-- No value begins with the bracket that closes an array. -/
theorem chars_append_ne_bracket (json : Json) (rest rest' : List Char) :
    json.chars ++ rest ≠ ']' :: rest' := by
  intro h
  obtain ⟨first, more, hchars, hkind⟩ := json.exists_kindOfFirst
  rw [hchars] at h
  obtain rfl : first = ']' := (List.cons.inj h).1
  have hsix : json.kind = 6 := hkind.symm
  cases json <;> simp [kind] at hsix

/-! ## Values -/

/-- The items after the first one. -/
def itemsTail : List Json → List Char
  | [] => []
  | x :: rest => ',' :: chars.itemsChars (x :: rest)

/-- The members after the first one. -/
def membersTail : Members → List Char
  | [] => []
  | x :: rest => ',' :: chars.membersChars (x :: rest)

theorem itemsChars_cons (x : Json) (rest : List Json) :
    chars.itemsChars (x :: rest) = x.chars ++ itemsTail rest := by
  cases rest with
  | nil => simp [chars.itemsChars, itemsTail]
  | cons y rest => simp [chars.itemsChars, itemsTail]

theorem membersChars_cons (k : String) (x : Json) (rest : Members) :
    chars.membersChars ((k, x) :: rest) = quoted k ++ ':' :: (x.chars ++ membersTail rest) := by
  cases rest with
  | nil => simp [chars.membersChars, membersTail]
  | cons y rest => simp [chars.membersChars, membersTail]

/-- What follows the first item tells the items after it. -/
theorem itemsChars_eq_of_itemsTail {xs ys : List Json} {rest rest' : List Char}
    (h : itemsTail xs ++ ']' :: rest = itemsTail ys ++ ']' :: rest') :
    chars.itemsChars xs ++ ']' :: rest = chars.itemsChars ys ++ ']' :: rest' := by
  cases xs <;> cases ys <;> simp_all [itemsTail, chars.itemsChars]

/-- What follows the first member tells the members after it. -/
theorem membersChars_eq_of_membersTail {xs ys : Members} {rest rest' : List Char}
    (h : membersTail xs ++ '\x7d' :: rest = membersTail ys ++ '\x7d' :: rest') :
    chars.membersChars xs ++ '\x7d' :: rest = chars.membersChars ys ++ '\x7d' :: rest' := by
  cases xs <;> cases ys <;> simp_all [membersTail, chars.membersChars]

/-- Whether a number ends in front of a text. -/
def EndsNumber (rest : List Char) : Prop :=
  ∀ c ∈ rest.head?, Text.isNumeral c = false

theorem endsNumber_nil : EndsNumber [] := by
  simp [EndsNumber]

theorem endsNumber_itemsTail (items : List Json) (rest : List Char) :
    EndsNumber (itemsTail items ++ ']' :: rest) := by
  intro c hc
  cases items <;> obtain rfl := Option.some.inj hc <;> rfl

theorem endsNumber_membersTail (members : Members) (rest : List Char) :
    EndsNumber (membersTail members ++ '\x7d' :: rest) := by
  intro c hc
  cases members <;> obtain rfl := Option.some.inj hc <;> rfl

mutual

/-- **A text is told apart from what follows it**, unless a number goes on there. -/
theorem chars_append_inj : ∀ {a b : Json} {rest rest' : List Char}, EndsNumber rest →
    EndsNumber rest' → a.chars ++ rest = b.chars ++ rest' → a = b ∧ rest = rest'
  | .null, b, rest, rest', _, _, h => by
      have hkind := kind_eq_of_append h
      cases b with
      | null => exact ⟨rfl, List.append_cancel_left h⟩
      | _ => simp [kind] at hkind
  | .bool x, b, rest, rest', _, _, h => by
      have hkind := kind_eq_of_append h
      cases b with
      | bool y =>
          cases x <;> cases y <;> simp [chars] at h
          · exact ⟨rfl, h⟩
          · exact ⟨rfl, h⟩
      | _ => simp [kind] at hkind
  | .num m, b, rest, rest', hrest, hrest', h => by
      have hkind := kind_eq_of_append h
      cases b with
      | num n =>
          obtain ⟨hchars, hends⟩ := Text.append_inj_of_class
            (fun c => Number.isNumeral_of_mem_chars) (fun c => Number.isNumeral_of_mem_chars)
            hrest hrest' h
          rw [Number.chars_injective hchars]
          exact ⟨rfl, hends⟩
      | _ => simp [kind] at hkind
  | .str s, b, rest, rest', _, _, h => by
      have hkind := kind_eq_of_append h
      cases b with
      | str t =>
          obtain ⟨rfl, hends⟩ := quoted_append_inj h
          exact ⟨rfl, hends⟩
      | _ => simp [kind] at hkind
  | .arr xs, b, rest, rest', _, _, h => by
      have hkind := kind_eq_of_append h
      cases b with
      | arr ys =>
          simp only [chars, List.cons_append, List.append_assoc, List.nil_append] at h
          obtain ⟨rfl, hends⟩ := itemsChars_append_inj (List.cons.inj h).2
          exact ⟨rfl, hends⟩
      | _ => simp [kind] at hkind
  | .obj xs, b, rest, rest', _, _, h => by
      have hkind := kind_eq_of_append h
      cases b with
      | obj ys =>
          simp only [chars, List.cons_append, List.append_assoc, List.nil_append] at h
          obtain ⟨rfl, hends⟩ := membersChars_append_inj (List.cons.inj h).2
          exact ⟨rfl, hends⟩
      | _ => simp [kind] at hkind

/-- Items end at the bracket. -/
theorem itemsChars_append_inj : ∀ {xs ys : List Json} {rest rest' : List Char},
    chars.itemsChars xs ++ ']' :: rest = chars.itemsChars ys ++ ']' :: rest' →
      xs = ys ∧ rest = rest'
  | [], ys, rest, rest', h => by
      cases ys with
      | nil => exact ⟨rfl, (List.cons.inj h).2⟩
      | cons y ys =>
          rw [itemsChars_cons, List.append_assoc] at h
          exact absurd h.symm (chars_append_ne_bracket y _ _)
  | x :: xs, ys, rest, rest', h => by
      cases ys with
      | nil =>
          rw [itemsChars_cons, List.append_assoc] at h
          exact absurd h (chars_append_ne_bracket x _ _)
      | cons y ys =>
          rw [itemsChars_cons, itemsChars_cons, List.append_assoc, List.append_assoc] at h
          obtain ⟨rfl, htail⟩ := chars_append_inj (endsNumber_itemsTail xs rest)
            (endsNumber_itemsTail ys rest') h
          obtain ⟨rfl, hends⟩ := itemsChars_append_inj (itemsChars_eq_of_itemsTail htail)
          exact ⟨rfl, hends⟩

/-- Members end at the brace. -/
theorem membersChars_append_inj : ∀ {xs ys : Members} {rest rest' : List Char},
    chars.membersChars xs ++ '\x7d' :: rest = chars.membersChars ys ++ '\x7d' :: rest' →
      xs = ys ∧ rest = rest'
  | [], ys, rest, rest', h => by
      cases ys with
      | nil => exact ⟨rfl, (List.cons.inj h).2⟩
      | cons y ys =>
          rw [membersChars_cons] at h
          simp [chars.membersChars, quoted] at h
  | (k, x) :: xs, ys, rest, rest', h => by
      cases ys with
      | nil =>
          rw [membersChars_cons] at h
          simp [chars.membersChars, quoted] at h
      | cons y ys =>
          obtain ⟨l, y⟩ := y
          rw [membersChars_cons, membersChars_cons, List.append_assoc, List.append_assoc] at h
          obtain ⟨rfl, hvalue⟩ := quoted_append_inj h
          rw [List.cons_append, List.cons_append, List.append_assoc, List.append_assoc] at hvalue
          obtain ⟨rfl, htail⟩ := chars_append_inj (endsNumber_membersTail xs rest)
            (endsNumber_membersTail ys rest') (List.cons.inj hvalue).2
          obtain ⟨rfl, hends⟩ := membersChars_append_inj (membersChars_eq_of_membersTail htail)
          exact ⟨rfl, hends⟩

end

/-- **Compact text is injective on values.** -/
theorem text_injective {a b : Json} (h : a.text = b.text) : a = b := by
  have hchars : a.chars = b.chars := String.ofList_injective h
  have happend : a.chars ++ [] = b.chars ++ [] := congrArg (· ++ []) hchars
  exact (chars_append_inj endsNumber_nil endsNumber_nil happend).1

end Json

end Reporting
