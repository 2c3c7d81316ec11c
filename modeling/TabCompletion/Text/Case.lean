import TabCompletion.Text.Case.Tables
import TabCompletion.Text.Ranges

/-!
# Lower and upper case

The full case mappings of Unicode, which may turn one character into several. A capital sigma
becomes a final sigma at the end of a word and a medial one elsewhere.
-/

namespace TabCompletion.Text

open Case

/-- The code point that the first run covering `n` maps it to. -/
def Case.applyRuns (runs : List Run) (n : Nat) : Option Nat :=
  (runs.find? (·.covers n)).map fun r => (Int.ofNat n + r.offset).toNat

def Case.mapChar (runs : List Run) (special : List (Nat × List Nat)) (c : Char) : List Char :=
  match special.lookup c.toNat with
  | some ns => ns.map Char.ofNat
  | none =>
    match applyRuns runs c.toNat with
    | some n => [Char.ofNat n]
    | none => [c]

/-- The lower case of one character, wherever it stands. -/
def lowerChar (c : Char) : List Char :=
  if c.toNat < 128 then [c.toLower] else mapChar lowerRuns lowerSpecial c

def upperChar (c : Char) : List Char :=
  if c.toNat < 128 then [c.toUpper] else mapChar upperRuns upperSpecial c

/-- Whether a letter with case comes first, once the characters to be looked through are left
out. -/
def startsCased (cs : List Char) : Bool :=
  match cs.dropWhile (inRanges caseIgnorable) with
  | [] => false
  | c :: _ => inRanges cased c

/-- Lower case of what follows `before`, a text given in reverse. -/
def lowerAfter (before : List Char) : List Char → List Char
  | [] => []
  | c :: cs =>
    -- A capital sigma is final if a letter stands before it and none after it.
    let here :=
      if c = 'Σ' then (if startsCased before && !startsCased cs then ['ς'] else ['σ'])
      else lowerChar c
    here ++ lowerAfter (c :: before) cs

def lowercase (s : String) : List Char := lowerAfter [] s.toList

def uppercase (s : String) : String := String.ofList (s.toList.flatMap upperChar)

end TabCompletion.Text
