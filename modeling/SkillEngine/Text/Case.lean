import SkillEngine.Text.CaseTable

/-!
# Upper and lower case

The full case mappings of Unicode, which may change the length of a text.  Lower case depends on
the neighbours in one place: a capital sigma that ends a word becomes the final form.
-/

namespace SkillEngine.Text

/-- The code point lies in one of the ranges. -/
def inRanges (ranges : List (Nat × Nat)) (code : Nat) : Bool :=
  ranges.any fun range => range.1 ≤ code && code ≤ range.2

/-- The other case of a character, by the sequences first and the runs second. -/
def recase (sequences : List (Nat × List Nat)) (runs : List CaseRun) (c : Char) : List Char :=
  match sequences.lookup c.toNat with
  | some codes => codes.map Char.ofNat
  | none =>
    match runs.find? (·.covers c.toNat) with
    | some run => [Char.ofNat (Int.toNat (c.toNat + run.shift))]
    | none => [c]

/-- The lower case of a character on its own. -/
def lowerChar (c : Char) : List Char := recase lowerSequences lowerRuns c

/-- The upper case of a character. -/
def upperChar (c : Char) : List Char := recase upperSequences upperRuns c

/-- The first character that case does not ignore has a case. -/
def startsCased (text : List Char) : Bool :=
  match text.dropWhile fun c => inRanges caseIgnorableRanges c.toNat with
  | [] => false
  | c :: _ => inRanges casedRanges c.toNat

/-- The lower case of a capital sigma: the final form after a cased character and not before one.
`before` holds the characters to its left, the nearest first. -/
def lowerSigma (before after : List Char) : Char :=
  if startsCased before && !startsCased after then 'ς' else 'σ'

/-- The lower case of a text that follows the reversed text `before`. -/
def lowerAfter (before : List Char) : List Char → List Char
  | [] => []
  | 'Σ' :: rest => lowerSigma before rest :: lowerAfter ('Σ' :: before) rest
  | c :: rest => lowerChar c ++ lowerAfter (c :: before) rest

/-- The lower case of a text. -/
def lower (text : List Char) : List Char := lowerAfter [] text

/-- The upper case of a text. -/
def upper (text : List Char) : List Char := text.flatMap upperChar

/-- An ASCII capital becomes the small letter; every other character stays. -/
def lowerAscii (c : Char) : Char := if 'A' ≤ c && c ≤ 'Z' then Char.ofNat (c.toNat + 32) else c

/-- The two texts are equal up to the case of ASCII letters. -/
def equalIgnoringAsciiCase (s t : String) : Bool :=
  s.toList.map lowerAscii == t.toList.map lowerAscii

end SkillEngine.Text
