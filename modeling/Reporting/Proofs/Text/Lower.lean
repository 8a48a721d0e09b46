import Reporting.Text.Lower
import Reporting.Text.Split

/-!
# Lower case in context

A text is brought to lower case character by character, and only a capital sigma asks what stands
around it.  So the form of a longer text is made of the forms that its parts have in their places
(`lowerFrom_append`).  A part has in its place the form that it has alone if, and only if, its sigmas
keep theirs (`lowerWithin_eq_lower_iff`), and then it is found there after both texts have been
brought to lower case.

Some sigmas keep their form wherever the text stands: those whose form the characters of the text
decide (`settlesSigmas_iff`).
-/

namespace Reporting.Text

/-! ## Searching -/

/-- A text occurs in another one if it is an unbroken stretch of it. -/
theorem occursIn_iff_isInfix (needle cs : List Char) : occursIn needle cs = true ↔ needle <:+: cs := by
  induction cs with
  | nil => simp [occursIn]
  | cons c cs ih =>
      rw [occursIn, Bool.or_eq_true, List.isPrefixOf_iff_prefix, ih, List.infix_cons_iff]

/-! ## Forms in their places -/

/-- Whether a sigma between two texts, the first one with its latest character first, is the last
letter of a word. -/
def endsWord (before after : List Char) : Bool :=
  meetsCased before && !meetsCased after

/-- The lower-case form of a character between two texts, the first one with its latest character
first. -/
def lowerAt (before : List Char) (c : Char) (after : List Char) : List Char :=
  if c = 'Σ' then (if endsWord before after then ['ς'] else ['σ']) else lowerChar c

/-- The lower-case form of a text between two others, the first one with its latest character
first. -/
def lowerWithin (before after : List Char) : List Char → List Char
  | [] => []
  | c :: cs => lowerAt before c (cs ++ after) ++ lowerWithin (c :: before) after cs

theorem lowerFrom_cons (before : List Char) (c : Char) (after : List Char) :
    lowerFrom before (c :: after) = lowerAt before c after ++ lowerFrom (c :: before) after :=
  rfl

/-- **A longer text is brought to lower case part by part**, each in its place. -/
theorem lowerFrom_append (before cs after : List Char) :
    lowerFrom before (cs ++ after)
      = lowerWithin before after cs ++ lowerFrom (cs.reverse ++ before) after := by
  induction cs generalizing before with
  | nil => rfl
  | cons c cs ih =>
      rw [List.cons_append, lowerFrom_cons, ih, lowerWithin, List.append_assoc, List.reverse_cons,
        List.append_assoc]
      rfl

/-- A text alone stands between nothing and nothing. -/
theorem lower_eq_lowerWithin (cs : List Char) : lower cs = lowerWithin [] [] cs := by
  have happend := lowerFrom_append [] cs []
  rwa [List.append_nil, lowerFrom, List.append_nil] at happend

/-- The forms of a character in two places are equally long. -/
theorem length_lowerAt (before after before' after' : List Char) (c : Char) :
    (lowerAt before c after).length = (lowerAt before' c after').length := by
  unfold lowerAt
  split
  · split <;> split <;> rfl
  · rfl

/-- The forms of a text in two places are equally long. -/
theorem length_lowerWithin (before after before' after' cs : List Char) :
    (lowerWithin before after cs).length = (lowerWithin before' after' cs).length := by
  induction cs generalizing before before' with
  | nil => rfl
  | cons c cs ih =>
      rw [lowerWithin, lowerWithin, List.length_append, List.length_append,
        length_lowerAt before _ before' (cs ++ after'), ih (c :: before) (c :: before')]

/-- Only a sigma has two forms. -/
theorem lowerAt_eq_iff {before after before' after' : List Char} {c : Char} :
    lowerAt before c after = lowerAt before' c after' ↔
      (c = 'Σ' → endsWord before after = endsWord before' after') := by
  unfold lowerAt
  by_cases hc : c = 'Σ'
  · rw [if_pos hc, if_pos hc]
    cases endsWord before after <;> cases endsWord before' after' <;> simp [hc]
  · rw [if_neg hc, if_neg hc]
    exact iff_of_true rfl fun h => absurd h hc

/-! ## Sigmas -/

/-- Whether the text before and the text after each capital sigma of a text have a property. -/
def AtSigmas (p : List Char → List Char → Prop) (cs : List Char) : Prop :=
  ∀ before after, cs = before ++ 'Σ' :: after → p before after

theorem atSigmas_nil (p : List Char → List Char → Prop) : AtSigmas p [] := by
  intro before after h
  cases before <;> cases h

theorem atSigmas_cons (p : List Char → List Char → Prop) (c : Char) (cs : List Char) :
    AtSigmas p (c :: cs) ↔
      (c = 'Σ' → p [] cs) ∧ AtSigmas (fun before after => p (c :: before) after) cs := by
  constructor
  · intro h
    refine ⟨?_, fun before after hcs => h (c :: before) after (congrArg (c :: ·) hcs)⟩
    rintro rfl
    exact h [] cs rfl
  · rintro ⟨hfirst, hothers⟩ before after hcs
    cases before with
    | nil =>
        cases hcs
        exact hfirst rfl
    | cons d before =>
        cases hcs
        exact hothers before after rfl

instance AtSigmas.decidable : (p : List Char → List Char → Prop) →
    [∀ before after, Decidable (p before after)] → (cs : List Char) → Decidable (AtSigmas p cs)
  | p, _, [] => isTrue (atSigmas_nil p)
  | p, _, c :: cs =>
      have := AtSigmas.decidable (fun before after => p (c :: before) after) cs
      decidable_of_iff _ (atSigmas_cons p c cs).symm

/-- Whether the capital sigmas of a text have the forms between two others that they have if the
text stands alone. -/
def KeepsSigmas (front cs back : List Char) : Prop :=
  AtSigmas (fun before after =>
    endsWord (before.reverse ++ front.reverse) (after ++ back) = endsWord before.reverse after) cs

instance (front cs back : List Char) : Decidable (KeepsSigmas front cs back) :=
  AtSigmas.decidable _ cs

/-- The forms of a text in two places are the same if its sigmas have the same forms. -/
theorem lowerWithin_eq_iff (before after before' after' cs : List Char) :
    lowerWithin before after cs = lowerWithin before' after' cs ↔
      AtSigmas (fun front back =>
        endsWord (front.reverse ++ before) (back ++ after)
          = endsWord (front.reverse ++ before') (back ++ after')) cs := by
  induction cs generalizing before before' with
  | nil => exact iff_of_true rfl (atSigmas_nil _)
  | cons c cs ih =>
      have hparts : lowerWithin before after (c :: cs) = lowerWithin before' after' (c :: cs) ↔
          lowerAt before c (cs ++ after) = lowerAt before' c (cs ++ after') ∧
            lowerWithin (c :: before) after cs = lowerWithin (c :: before') after' cs :=
        ⟨fun h => List.append_inj h (length_lowerAt _ _ _ _ c),
          fun ⟨hfirst, hothers⟩ => by rw [lowerWithin, lowerWithin, hfirst, hothers]⟩
      rw [hparts, lowerAt_eq_iff, ih, atSigmas_cons]
      simp

/-- **A text has in its place the form that it has alone** if, and only if, its sigmas have. -/
theorem lowerWithin_eq_lower_iff (front cs back : List Char) :
    lowerWithin front.reverse back cs = lower cs ↔ KeepsSigmas front cs back := by
  rw [lower_eq_lowerWithin, lowerWithin_eq_iff]
  simp [KeepsSigmas]

/-! ## Searching in lower case -/

section Search

variable {front needle back : List Char}

/-- **A text is found in lower case at the start of another one** if, and only if, its sigmas keep
their forms there. -/
theorem isPrefix_lower_iff : lower needle <+: lower (needle ++ back) ↔ KeepsSigmas [] needle back := by
  have hform := lowerFrom_append [] needle back
  rw [← lowerWithin_eq_lower_iff, lower_eq_lowerWithin needle]
  constructor
  · rintro ⟨rest, hrest⟩
    exact (List.append_inj_left (hrest.trans hform) (length_lowerWithin _ _ _ _ needle)).symm
  · intro h
    exact ⟨lowerFrom (needle.reverse ++ []) back, (congrArg (· ++ _) h.symm).trans hform.symm⟩

/-- **A text is found in lower case at the end of another one** if, and only if, its sigmas keep
their forms there. -/
theorem isSuffix_lower_iff :
    lower needle <:+ lower (front ++ needle) ↔ KeepsSigmas front needle [] := by
  have hform : lower (front ++ needle)
      = lowerWithin [] needle front ++ lowerWithin front.reverse [] needle := by
    have hwhole := lowerFrom_append [] front needle
    have hend := lowerFrom_append front.reverse needle []
    rw [List.append_nil, lowerFrom, List.append_nil] at hend
    rwa [List.append_nil, hend] at hwhole
  rw [← lowerWithin_eq_lower_iff, hform, lower_eq_lowerWithin needle]
  constructor
  · rintro ⟨rest, hrest⟩
    exact (List.append_inj_right' hrest (length_lowerWithin _ _ _ _ needle)).symm
  · intro h
    exact ⟨lowerWithin [] needle front, congrArg (_ ++ ·) h.symm⟩

/-- **A text is found in lower case within another one** if its sigmas keep their forms there. -/
theorem isInfix_lower (h : KeepsSigmas front needle back) :
    lower needle <:+: lower (front ++ needle ++ back) := by
  refine ⟨lowerWithin [] (needle ++ back) front, lowerFrom (needle.reverse ++ front.reverse) back, ?_⟩
  rw [← lowerWithin_eq_lower_iff] at h
  have hfront := lowerFrom_append [] front (needle ++ back)
  have hneedle := lowerFrom_append front.reverse needle back
  rw [List.append_nil, hneedle, h] at hfront
  rw [List.append_assoc, List.append_assoc]
  exact hfront.symm

end Search

/-! ## Sigmas that keep their form everywhere -/

/-- Whether the first character that is not passed over is not a cased one. -/
def meetsUncased (cs : List Char) : Bool :=
  match cs.dropWhile isSkipped with
  | [] => false
  | c :: _ => !isCased c

/-- Whether two texts, the first one with its latest character first, decide the form of a sigma
between them, whatever stands around them. -/
def decidesSigma (before after : List Char) : Bool :=
  meetsCased after || meetsUncased before || (meetsCased before && meetsUncased after)

/-- Whether a text decides the forms of its capital sigmas. -/
def SettlesSigmas (cs : List Char) : Prop :=
  AtSigmas (fun before after => decidesSigma before.reverse after = true) cs

instance (cs : List Char) : Decidable (SettlesSigmas cs) :=
  AtSigmas.decidable _ cs

/-- What a search meets is decided by the text if there is something to meet in it. -/
theorem meets_append (cs more : List Char) :
    (meetsCased cs = true ∧ meetsUncased cs = false ∧ meetsCased (cs ++ more) = true) ∨
      (meetsCased cs = false ∧ meetsUncased cs = true ∧ meetsCased (cs ++ more) = false) ∨
      (meetsCased cs = false ∧ meetsUncased cs = false ∧
        meetsCased (cs ++ more) = meetsCased more) := by
  unfold meetsCased meetsUncased
  rw [List.dropWhile_append]
  cases hdrop : cs.dropWhile isSkipped with
  | nil => simp
  | cons c rest => cases hc : isCased c <;> simp [hc]

/-- A sigma that is decided has the same form in every place. -/
theorem endsWord_of_decidesSigma {before after : List Char}
    (h : decidesSigma before after = true) (front back : List Char) :
    endsWord (before ++ front) (after ++ back) = endsWord before after := by
  unfold decidesSigma at h
  unfold endsWord
  rcases meets_append before front with hb | hb | hb <;>
    rcases meets_append after back with ha | ha | ha <;> simp_all

/-- A sigma that is not decided changes its form behind or in front of a letter. -/
theorem exists_endsWord_ne {before after : List Char} (h : decidesSigma before after = false) :
    endsWord before (after ++ ['a']) ≠ endsWord before after ∨
      endsWord (before ++ ['a']) after ≠ endsWord before after := by
  have hletter : meetsCased ['a'] = true := by decide +kernel
  unfold decidesSigma at h
  unfold endsWord
  rcases meets_append before ['a'] with hb | hb | hb <;>
    rcases meets_append after ['a'] with ha | ha | ha <;> simp_all

/-- **The sigmas of a text keep their forms in every place** if, and only if, the text decides
them. -/
theorem settlesSigmas_iff (cs : List Char) :
    SettlesSigmas cs ↔ ∀ front back, KeepsSigmas front cs back := by
  constructor
  · intro h front back before after hcs
    exact endsWord_of_decidesSigma (h before after hcs) front.reverse back
  · intro h before after hcs
    cases hdecides : decidesSigma before.reverse after with
    | true => rfl
    | false =>
        rcases exists_endsWord_ne hdecides with hchange | hchange
        · have hkeeps : endsWord (before.reverse ++ []) (after ++ ['a'])
              = endsWord before.reverse after := h [] ['a'] before after hcs
          rw [List.append_nil] at hkeeps
          exact absurd hkeeps hchange
        · have hkeeps : endsWord (before.reverse ++ ['a']) (after ++ [])
              = endsWord before.reverse after := h ['a'] [] before after hcs
          rw [List.append_nil] at hkeeps
          exact absurd hkeeps hchange

end Reporting.Text
