import Reporting.Store.Import
import Reporting.Text.Split

/-!
# The lines of a file

`Text.lines` says what the lines of a text are: the text is cut at its line feeds, and one carriage
return is dropped in front of each.  Reading a file finds these lines in one pass over its
characters (`FileContent.lines_map_some`).  Texts are taken apart line by line, by
`Text.line_induction`.
-/

namespace Reporting

namespace Text

/-- A line without one carriage return at its end. -/
def dropReturn (line : List Char) : List Char :=
  if line.getLast? = some '\r' then line.dropLast else line

/-- The lines of a text.  Each line feed ends one, and what follows the last line feed is one more
unless nothing follows. -/
def lines (cs : List Char) : List (List Char) :=
  (split '\n' cs).dropLast.map dropReturn
    ++ (split '\n' cs).getLast?.toList.filter fun part => !part.isEmpty

/-- Every text is a part without line feeds, perhaps in front of a line feed and another text. -/
theorem line_induction {motive : List Char → Prop}
    (last : ∀ part, '\n' ∉ part → motive part)
    (line : ∀ part rest, '\n' ∉ part → motive rest → motive (part ++ '\n' :: rest))
    (cs : List Char) : motive cs := by
  induction hlen : cs.length using Nat.strongRecOn generalizing cs with
  | ind n ih =>
      by_cases hfeed : '\n' ∈ cs
      · obtain ⟨part, rest, rfl, hpart⟩ := List.eq_append_cons_of_mem hfeed
        have hshorter : rest.length < n := by
          rw [← hlen, List.length_append, List.length_cons]
          omega
        exact line part rest hpart (ih rest.length hshorter rest rfl)
      · exact last cs hfeed

theorem lines_of_not_mem {part : List Char} (h : '\n' ∉ part) :
    lines part = if part = [] then [] else [part] := by
  unfold lines
  rw [split_of_not_mem h]
  cases part <;> rfl

theorem lines_append_feed {part : List Char} (h : '\n' ∉ part) (rest : List Char) :
    lines (part ++ '\n' :: rest) = dropReturn part :: lines rest := by
  have hne := split_ne_nil '\n' rest
  unfold lines
  rw [split_append_cons h, List.dropLast_cons_of_ne_nil hne, List.getLast?_cons,
    List.getLast?_eq_some_getLast hne]
  rfl

theorem dropReturn_cons (c d : Char) (rest : List Char) :
    dropReturn (c :: d :: rest) = c :: dropReturn (d :: rest) := by
  unfold dropReturn
  rw [List.getLast?_cons_cons, List.dropLast_cons_cons]
  split <;> rfl

/-- What has no carriage return at its end is left as it is. -/
theorem dropReturn_of_getLast? {line : List Char} (h : line.getLast? ≠ some '\r') :
    dropReturn line = line :=
  if_neg h

theorem dropReturn_concat (line : List Char) : dropReturn (line ++ ['\r']) = line := by
  simp [dropReturn]

/-- Dropping a carriage return drops nothing that is not blank. -/
theorem all_isBlank_dropReturn {line : List Char} (h : line.all isBlank = true) :
    (dropReturn line).all isBlank = true := by
  unfold dropReturn
  split
  · rw [List.all_eq_true] at h ⊢
    intro c hc
    exact h c (List.dropLast_subset line hc)
  · exact h

end Text

namespace FileContent

theorem lines_cons_feed (rest : FileContent) : lines (some '\n' :: rest) = [] :: lines rest := by
  rw [lines]

theorem lines_return_feed (rest : FileContent) :
    lines (some '\r' :: some '\n' :: rest) = [] :: lines rest := by
  rw [lines]

/-- A character that does not begin a line end belongs to its line. -/
theorem lines_cons {c : Char} {rest : FileContent} (hc : c ≠ '\n')
    (hreturn : ∀ more, rest = some '\n' :: more → c ≠ '\r') :
    lines (some c :: rest) = consFirst (some c) (lines rest) := by
  rw [lines]
  · intro h
    exact hc (Option.some.inj h)
  · intro more h hmore
    exact hreturn more hmore (Option.some.inj h)

/-- The characters in front of a line feed make a line. -/
theorem lines_part_feed {part : List Char} (h : '\n' ∉ part) (rest : FileContent) :
    lines (part.map some ++ some '\n' :: rest)
      = (Text.dropReturn part).map some :: lines rest := by
  induction part with
  | nil => exact lines_cons_feed rest
  | cons c more ih =>
      rw [List.mem_cons, not_or] at h
      cases more with
      | nil =>
          by_cases hreturn : c = '\r'
          · subst hreturn
            exact lines_return_feed rest
          · have hkept : Text.dropReturn [c] = [c] :=
              Text.dropReturn_of_getLast? (by simpa using hreturn)
            rw [hkept]
            show lines (some c :: some '\n' :: rest) = _
            rw [lines_cons (Ne.symm h.1) (fun _ _ => hreturn), lines_cons_feed]
            rfl
      | cons d more =>
          have hd : d ≠ '\n' := fun hd => h.2 (hd ▸ List.mem_cons_self)
          have hnext : ∀ after : FileContent,
              (d :: more).map some ++ some '\n' :: rest = some '\n' :: after → c ≠ '\r' :=
            fun after heq => absurd (Option.some.inj (List.cons.inj heq).1) hd
          rw [List.map_cons, List.cons_append, lines_cons (Ne.symm h.1) hnext, ih h.2,
            Text.dropReturn_cons]
          rfl

/-- Characters without a line feed are one line, if there are any. -/
theorem lines_part {part : List Char} (h : '\n' ∉ part) :
    lines (part.map some) = if part = [] then [] else [part.map some] := by
  induction part with
  | nil => rfl
  | cons c more ih =>
      rw [List.mem_cons, not_or] at h
      have hnext : ∀ after : FileContent, more.map some = some '\n' :: after → c ≠ '\r' := by
        intro after heq
        cases more with
        | nil => cases heq
        | cons d more =>
            obtain rfl : d = '\n' := Option.some.inj (List.cons.inj heq).1
            exact absurd List.mem_cons_self h.2
      rw [List.map_cons, lines_cons (Ne.symm h.1) hnext, ih h.2]
      cases more <;> rfl

/-- **The lines of a file** with a text are the lines of the text. -/
theorem lines_map_some (cs : List Char) :
    lines (cs.map some) = (Text.lines cs).map (List.map some) := by
  induction cs using Text.line_induction with
  | last part h =>
      rw [lines_part h, Text.lines_of_not_mem h]
      split <;> rfl
  | line part rest h ih =>
      rw [Text.lines_append_feed h, List.map_append, List.map_cons, lines_part_feed h, ih]
      rfl

end FileContent

end Reporting
