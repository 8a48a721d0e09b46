/-!
# Cutting and joining texts

A text is cut at every occurrence of one separator character, so `n` separators give `n + 1`
parts, some of them perhaps empty.  Joining undoes cutting (`join_split`), and cutting undoes
joining when no part holds the separator (`split_join`).
-/

namespace Reporting.Text

/-- Put one character in front of the first part. -/
def consFirst (c : Char) : List (List Char) → List (List Char)
  | [] => [[c]]
  | part :: parts => (c :: part) :: parts

/-- Cut a text at every separator. -/
def split (separator : Char) : List Char → List (List Char)
  | [] => [[]]
  | c :: cs => if c = separator then [] :: split separator cs else consFirst c (split separator cs)

/-- Put a separator between neighbouring parts. -/
def join (separator : Char) : List (List Char) → List Char
  | [] => []
  | [part] => part
  | part :: parts => part ++ separator :: join separator parts

/-- Remove every occurrence of one character. -/
def erase (unwanted : Char) (cs : List Char) : List Char :=
  cs.filter fun c => c ≠ unwanted

/-- Whether a text occurs in another one as an unbroken stretch. -/
def occursIn (needle : List Char) : List Char → Bool
  | [] => needle.isEmpty
  | c :: cs => needle.isPrefixOf (c :: cs) || occursIn needle cs

/-- Cut a text around the last occurrence of a separator text, if it has one. -/
def splitLast (separator : List Char) : List Char → Option (List Char × List Char)
  | [] => if separator.isEmpty then some ([], []) else none
  | c :: cs =>
    match splitLast separator cs with
    | some (before, after) => some (c :: before, after)
    | none =>
      if separator.isPrefixOf (c :: cs) then some ([], (c :: cs).drop separator.length) else none

/-- Cutting yields at least one part. -/
theorem split_ne_nil (separator : Char) (cs : List Char) : split separator cs ≠ [] := by
  induction cs with
  | nil => simp [split]
  | cons c cs ih =>
      by_cases h : c = separator
      · simp [split, h]
      · cases hs : split separator cs with
        | nil => exact absurd hs ih
        | cons part parts => simp [split, h, hs, consFirst]

/-- Cutting a text and joining the parts gives the text back. -/
theorem join_split (separator : Char) (cs : List Char) :
    join separator (split separator cs) = cs := by
  induction cs with
  | nil => rfl
  | cons c cs ih =>
      cases hs : split separator cs with
      | nil => exact absurd hs (split_ne_nil separator cs)
      | cons part parts =>
          rw [hs] at ih
          by_cases h : c = separator
          · simp [split, h, hs, join, ih]
          · cases parts with
            | nil => simpa [split, h, hs, consFirst, join] using ih
            | cons next rest => simpa [split, h, hs, consFirst, join] using ih

/-- A text without the separator is one part. -/
theorem split_of_not_mem {separator : Char} {cs : List Char} (h : separator ∉ cs) :
    split separator cs = [cs] := by
  induction cs with
  | nil => rfl
  | cons c cs ih =>
      rw [List.mem_cons, not_or] at h
      simp [split, Ne.symm h.1, ih h.2, consFirst]

/-- Cutting a text of two with a separator between them cuts there and wherever either is cut. -/
theorem split_append (separator : Char) (cs ds : List Char) :
    split separator (cs ++ separator :: ds) = split separator cs ++ split separator ds := by
  induction cs with
  | nil => simp [split]
  | cons c cs ih =>
      by_cases h : c = separator
      · simp [split, h, ih]
      · cases hs : split separator cs with
        | nil => exact absurd hs (split_ne_nil separator cs)
        | cons part parts => simp [split, h, ih, hs, consFirst]

/-- A separator between two texts, the first without separators, cuts exactly there. -/
theorem split_append_cons {separator : Char} {part : List Char} (h : separator ∉ part)
    (rest : List Char) :
    split separator (part ++ separator :: rest) = part :: split separator rest := by
  rw [split_append, split_of_not_mem h, List.singleton_append]

/-- One part more stands behind one separator more. -/
theorem join_concat {separator : Char} (part : List Char) :
    ∀ {parts : List (List Char)}, parts ≠ [] →
      join separator (parts ++ [part]) = join separator parts ++ separator :: part
  | [], h => absurd rfl h
  | [first], _ => rfl
  | first :: next :: rest, _ => by
      have ih : join separator (next :: (rest ++ [part]))
          = join separator (next :: rest) ++ separator :: part :=
        join_concat part (List.cons_ne_nil next rest)
      simp [join, ih]

/-- Joining parts without separators and cutting again gives the parts back. -/
theorem split_join {separator : Char} :
    ∀ {parts : List (List Char)}, parts ≠ [] → (∀ part ∈ parts, separator ∉ part) →
      split separator (join separator parts) = parts
  | [], h, _ => absurd rfl h
  | [part], _, hs => split_of_not_mem (hs part (by simp))
  | part :: next :: rest, _, hs => by
      have ih : split separator (join separator (next :: rest)) = next :: rest :=
        split_join (by simp) fun p hp => hs p (List.mem_cons_of_mem _ hp)
      simpa [join, ih] using split_append_cons (hs part (by simp)) (join separator (next :: rest))

/-- An erased character is gone. -/
theorem not_mem_erase (unwanted : Char) (cs : List Char) : unwanted ∉ erase unwanted cs := by
  simp [erase]

/-- Where a character does not occur there is nothing to erase. -/
theorem erase_of_not_mem {unwanted : Char} {cs : List Char} (h : unwanted ∉ cs) :
    erase unwanted cs = cs := by
  refine List.filter_eq_self.mpr fun c hc => ?_
  have hne : c ≠ unwanted := ne_of_mem_of_not_mem hc h
  exact decide_eq_true hne

end Reporting.Text
