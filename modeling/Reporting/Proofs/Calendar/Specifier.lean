import Mathlib.Data.List.Basic
import Reporting.Calendar.Pattern

/-!
# Specifiers of a time of day

A pattern is read character by character, and an item ends where the reader leaves a specifier.  An
item that needs a time of day or a zone stands for a stretch of the pattern: a percent sign outside
of any specifier, and behind it one of finitely many texts, such as `H`, `-I`, `:z` or `.3f`
(`Pattern.beyondDate_mem_items_iff`).
-/

namespace Reporting

namespace Pattern

/-- The numbers of a time of day. -/
def clockNumbers : List Char :=
  "HIMSfkls".toList

/-- The texts, from some mode on, that end a specifier of a time of day or a zone. -/
def clockEndings : Mode → List (List Char)
  | .plain => []
  | .percent =>
    (clockNumbers ++ "PRTXZcprz+".toList).map ([·])
      ++ ['-', '0', '_'].flatMap (fun c => clockNumbers.map ([c, ·]))
      ++ [['#', 'z'], [':', 'z'], [':', ':', 'z'], [':', ':', ':', 'z']]
      ++ [['.', 'f'], ['.', '3', 'f'], ['.', '6', 'f'], ['.', '9', 'f']]
      ++ [['3', 'f'], ['6', 'f'], ['9', 'f']]
  | .padded _ => clockNumbers.map ([·])
  | .alternate => [['z']]
  | .colons count => (List.range (3 - count + 1)).map fun k => List.replicate k ':' ++ ['z']
  | .point => [['f'], ['3', 'f'], ['6', 'f'], ['9', 'f']]
  | .fraction => [['f']]

/-! ## Runs of the reader -/

/-- The mode after some characters. -/
def modeAfter (mode : Mode) (cs : List Char) : Mode :=
  cs.foldl (fun mode c => (step mode c).1) mode

theorem itemsFrom_cons (mode : Mode) (c : Char) (rest : List Char) :
    itemsFrom mode (c :: rest) = (step mode c).2 ++ itemsFrom (step mode c).1 rest := by
  cases mode <;> rfl

/-- What is read behind some characters is read of the whole. -/
theorem mem_itemsFrom_append {mode : Mode} {front back : List Char} {item : PatternItem}
    (h : item ∈ itemsFrom (modeAfter mode front) back) : item ∈ itemsFrom mode (front ++ back) := by
  induction front generalizing mode with
  | nil => exact h
  | cons c rest ih =>
      rw [List.cons_append, itemsFrom_cons]
      exact List.mem_append_right _ (ih h)

/-! ## Steps of the reader -/

/-- The characters behind a percent sign that a specifier goes on after. -/
def modifiers : List Char :=
  ['-', '0', '_', '#', ':', '.', '3', '6', '9']

/-- A character behind a percent sign that is no modifier ends its specifier. -/
theorem step_percent {c : Char} (hc : c ∉ modifiers) : step .percent c = (.plain, specifier c) := by
  show afterPercent c = _
  unfold afterPercent
  split
  case h_10 => rfl
  all_goals exact absurd (by decide) hc

/-- No item ends with a modifier. -/
theorem step_percent_modifier : ∀ c ∈ modifiers, (step .percent c).2 = [] := by
  simp [modifiers, step, afterPercent]

theorem singleton_mem_of_mem_specifier {c : Char} (h : .beyondDate ∈ specifier c) :
    [c] ∈ clockEndings .percent := by
  by_cases hclock : (isClockNumber c || isClockText c) = true
  · have hmem : c ∈ clockNumbers ++ "PRTXZcprz+".toList := by
      rw [List.mem_append]
      rw [Bool.or_eq_true] at hclock
      exact hclock.imp List.contains_iff_mem.mp List.contains_iff_mem.mp
    have hsingle := List.mem_map_of_mem (f := ([·])) hmem
    simp only [clockEndings, List.mem_append]
    tauto
  · unfold specifier at h
    rw [if_neg hclock] at h
    split at h
    · exact absurd h (by simp)
    · split at h
      all_goals exact absurd h (by decide)

/-- **A character with which an item of a time of day ends is an ending.** -/
theorem singleton_mem_clockEndings {mode : Mode} {c : Char} (h : .beyondDate ∈ (step mode c).2) :
    [c] ∈ clockEndings mode := by
  cases mode with
  | plain =>
      simp only [step] at h
      split at h <;> simp at h
  | percent =>
      by_cases hc : c ∈ modifiers
      · rw [step_percent_modifier c hc] at h
        cases h
      · rw [step_percent hc] at h
        exact singleton_mem_of_mem_specifier h
  | padded padding =>
      by_cases hclock : isClockNumber c = true
      · exact List.mem_map_of_mem (List.contains_iff_mem.mp hclock)
      · simp only [step, if_neg hclock] at h
        split at h <;> simp at h
  | alternate =>
      by_cases hz : c = 'z'
      · simp [clockEndings, hz]
      · simp [step, hz] at h
  | colons count =>
      by_cases hz : c = 'z'
      · rw [hz]
        exact List.mem_map.mpr ⟨0, by simp, rfl⟩
      · simp only [step, if_neg hz] at h
        split at h <;> simp at h
  | point =>
      by_cases hf : c = 'f'
      · simp [clockEndings, hf]
      · simp only [step, if_neg hf] at h
        split at h <;> simp at h
  | fraction =>
      by_cases hf : c = 'f'
      · simp [clockEndings, hf]
      · simp [step, hf] at h

/-- A modifier in front of an ending from its mode on is an ending. -/
theorem cons_mem_of_modifier : ∀ c ∈ modifiers, ∀ ending ∈ clockEndings (step .percent c).1,
    c :: ending ∈ clockEndings .percent := by
  simp only [modifiers, List.forall_mem_cons]
  refine ⟨?_, ?_, ?_, ?_, ?_, ?_, ?_, ?_, ?_, nofun⟩
  all_goals decide +kernel

/-- **Within a specifier, a character in front of an ending belongs to it.** -/
theorem cons_mem_clockEndings {mode : Mode} {c : Char} {ending : List Char} (hmode : mode ≠ .plain)
    (h : ending ∈ clockEndings (step mode c).1) : c :: ending ∈ clockEndings mode := by
  cases mode with
  | plain => exact absurd rfl hmode
  | percent =>
      by_cases hc : c ∈ modifiers
      · exact cons_mem_of_modifier c hc ending h
      · rw [step_percent hc] at h
        cases h
  | padded padding =>
      simp only [step] at h
      split at h <;> cases h
  | alternate => cases h
  | colons count =>
      simp only [step] at h
      split at h
      · rename_i hcolon
        obtain ⟨k, hk, rfl⟩ := List.mem_map.mp h
        rw [List.mem_range] at hk
        exact List.mem_map.mpr ⟨k + 1, List.mem_range.mpr (by omega), by rw [hcolon.1]; rfl⟩
      · cases h
  | point =>
      simp only [step] at h
      split at h
      · rename_i hdigit
        rw [List.mem_singleton.mp h]
        rcases hdigit with rfl | rfl | rfl <;> decide
      · cases h
  | fraction => cases h

/-- The items that end within some characters. -/
def itemsWithin (mode : Mode) : List Char → List PatternItem
  | [] => []
  | c :: rest => (step mode c).2 ++ itemsWithin (step mode c).1 rest

/-- What ends within some characters is read, whatever follows. -/
theorem mem_itemsFrom_of_mem_itemsWithin {mode : Mode} {front : List Char} {item : PatternItem}
    (h : item ∈ itemsWithin mode front) (back : List Char) :
    item ∈ itemsFrom mode (front ++ back) := by
  induction front generalizing mode with
  | nil => cases h
  | cons c rest ih =>
      rw [List.cons_append, itemsFrom_cons]
      exact (List.mem_append.mp h).elim (List.mem_append_left _)
        fun hrest => List.mem_append_right _ (ih hrest)

/-- The texts behind a percent sign that ask for a time of day or a zone are read so. -/
theorem beyondDate_mem_itemsWithin : ∀ ending ∈ clockEndings .percent,
    .beyondDate ∈ itemsWithin .percent ending := by
  decide +kernel

/-- An item of a time of day ends with an ending, or it is read later on from a percent sign
outside of all specifiers. -/
theorem exists_of_beyondDate_mem_itemsFrom {mode : Mode} {cs : List Char}
    (h : .beyondDate ∈ itemsFrom mode cs) :
    (∃ ending back, cs = ending ++ back ∧ ending ∈ clockEndings mode) ∨
      ∃ front specifier back, cs = front ++ '%' :: (specifier ++ back) ∧
        modeAfter mode front = .plain ∧ specifier ∈ clockEndings .percent := by
  induction cs generalizing mode with
  | nil => cases mode <;> simp [itemsFrom] at h
  | cons c rest ih =>
      rw [itemsFrom_cons, List.mem_append] at h
      rcases h with hstep | hrest
      · exact .inl ⟨[c], rest, rfl, singleton_mem_clockEndings hstep⟩
      · rcases ih hrest with ⟨ending, back, rfl, hending⟩ | ⟨front, specifier, back, rfl, hfront, h⟩
        · by_cases hmode : mode = .plain
          · -- From here only a percent sign leads into a specifier.
            subst hmode
            by_cases hpercent : c = '%'
            · subst hpercent
              exact .inr ⟨[], ending, back, rfl, rfl, hending⟩
            · simp [step, hpercent, clockEndings] at hending
          · exact .inl ⟨c :: ending, back, rfl, cons_mem_clockEndings hmode hending⟩
        · exact .inr ⟨c :: front, specifier, back, rfl, hfront, h⟩

/-- Whether a pattern asks for a time of day or a zone: behind a percent sign outside of all
specifiers stands one of the texts that do. -/
def AsksForClock (pattern : String) : Prop :=
  ∃ front specifier back, pattern.toList = front ++ '%' :: (specifier ++ back) ∧
    modeAfter .plain front = .plain ∧ specifier ∈ clockEndings .percent

/-- **A pattern has an item of a time of day or a zone if, and only if, it asks for it.** -/
theorem beyondDate_mem_items_iff (pattern : String) :
    .beyondDate ∈ items pattern ↔ AsksForClock pattern := by
  constructor
  · intro h
    rcases exists_of_beyondDate_mem_itemsFrom h with ⟨_, _, -, hending⟩ | hspecifier
    · cases hending
    · exact hspecifier
  · rintro ⟨front, specifier, back, htext, hfront, hspecifier⟩
    unfold items
    rw [htext]
    apply mem_itemsFrom_append
    rw [hfront, itemsFrom_cons]
    apply List.mem_append_right
    exact mem_itemsFrom_of_mem_itemsWithin (beyondDate_mem_itemsWithin specifier hspecifier) back

end Pattern

end Reporting
