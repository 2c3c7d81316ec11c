import TabCompletion.Line.Words
import TabCompletion.Text.Blank

/-!
# The word under the cursor

`splitForCompletion` gives the words of the text before the cursor, the last of which is the one
being completed (empty after white space), and where in the line that word begins.
-/

namespace TabCompletion.Line

/-- The words before the cursor, and the byte at which the last of them begins in the line, an
opening quote included. -/
structure SplitLine where
  words : List String
  begidx : Nat
  deriving DecidableEq, Repr

/-- The word under the cursor, without quotes. -/
def SplitLine.text (s : SplitLine) : String := s.words.getLastD ""

/-- How far a line has been searched for the start of its last word: the position, the start of
the word, the quote that is open, and whether a backslash came last. -/
structure Boundary where
  position : Nat := 0
  begidx : Nat := 0
  quote : Option Char := none
  escaped : Bool := false
  deriving DecidableEq, Repr

/-- Take one more character into account. -/
def Boundary.step (b : Boundary) (c : Char) : Boundary :=
  let next := b.position + c.utf8Size
  let b := { b with position := next }
  if b.escaped then { b with escaped := false }
  else
    match b.quote with
    | some q =>
      if q = '\'' then (if c = '\'' then { b with quote := none } else b)
      else if c = '\\' then { b with escaped := true }
      else if c = '"' then { b with quote := none }
      else b
    | none =>
      if c = '\\' then { b with escaped := true }
      else if c = '"' || c = '\'' then { b with quote := some c }
      -- White space of any kind ends a word here, not only what separates words.
      else if Text.isBlank c then { b with begidx := next }
      else b

/-- Where the last word of a text begins, and which quote is open at its end. -/
def boundary (head : List Char) : Boundary := head.foldl Boundary.step {}

/-- The words of the text before the cursor and where the last one begins. -/
def splitForCompletion (head : String) : SplitLine :=
  let cs := head.toList
  let b := boundary cs
  -- An open quote is closed. What cannot be read even so is split at white space.
  let words := ((split (cs ++ b.quote.toList)).getD (Text.words cs)).map String.ofList
  -- Where the last word begins at the cursor, it is empty and was not read.
  { words := if b.begidx = b.position then words ++ [""] else words
    begidx := b.begidx }

end TabCompletion.Line
