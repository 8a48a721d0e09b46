import Reporting.Text.CaseTable

/-!
# Lower case

The lower-case form of a whole text by the Unicode rules that no language tailors.  All letters
but three map on their own.  The dotted capital I becomes two characters, and a capital sigma
becomes a final sigma at the end of a word: after a cased character and not before one, where
characters without influence on case are passed over in both directions.
-/

namespace Reporting.Text

/-- The run of letters that holds a code point, if any.  The runs ascend, so a run that starts
beyond the code point ends the search. -/
def findLowerRun (n : Nat) : List LowerRun → Option LowerRun
  | [] => none
  | run :: runs =>
    if n < run.first then none
    else if n ≤ run.last then (if (n - run.first) % run.stride = 0 then some run else none)
    else findLowerRun n runs

/-- Whether a code point lies in one of the ascending runs. -/
def inRuns (n : Nat) : List (Nat × Nat) → Bool
  | [] => false
  | (first, last) :: runs => if n < first then false else n ≤ last || inRuns n runs

/-- Characters that count as cased around a sigma. -/
def isCased (c : Char) : Bool :=
  inRuns c.toNat casedRuns

/-- Characters that are passed over around a sigma. -/
def isSkipped (c : Char) : Bool :=
  inRuns c.toNat skippedRuns

/-- The lower-case form of a character by itself. -/
def lowerChar (c : Char) : List Char :=
  if c = 'İ' then ['i', '\u0307']
  else
    match findLowerRun c.toNat lowerRuns with
    | some run => [Char.ofNat (c.toNat + run.shift).toNat]
    | none => [c]

/-- Whether the first character that is not passed over is a cased one. -/
def meetsCased (cs : List Char) : Bool :=
  match cs.dropWhile isSkipped with
  | [] => false
  | c :: _ => isCased c

/-- The lower-case form of a text, of which `before` has been read already, latest character
first. -/
def lowerFrom (before : List Char) : List Char → List Char
  | [] => []
  | c :: after =>
    (if c = 'Σ' then (if meetsCased before && !meetsCased after then ['ς'] else ['σ'])
      else lowerChar c) ++ lowerFrom (c :: before) after

/-- The lower-case form of a text. -/
def lower (cs : List Char) : List Char :=
  lowerFrom [] cs

/-- The lower-case form of an ASCII letter; every other character is kept. -/
def lowerAscii (cs : List Char) : List Char :=
  cs.map Char.toLower

end Reporting.Text
