import TabCompletion.Shell.Commands

/-!
# Suggestions for a line editor

A suggestion replaces a span of the line, from the start of the word to the cursor. A span that
would end before it starts cannot be made.
-/

namespace TabCompletion

structure Suggestion where
  value : String
  description : Option String
  spanStart : Nat
  spanEnd : Nat
  /-- Whether a space follows the value: it is the only candidate. -/
  appendSpace : Bool
  deriving DecidableEq, Repr

/-- The fault of a word that starts after the cursor. -/
structure ReversedSpan where
  spanStart : Nat
  spanEnd : Nat
  deriving DecidableEq, Repr

/-- The suggestions at the byte `pos` of a line in display order, and the message shown where there
are none. -/
def CommandSet.suggest (set : CommandSet) (host : Host) (line : String) (pos : Nat) :
    Except ReversedSpan (List Suggestion) × Option Message :=
  let (result, message) := set.complete host line pos
  let items := result.completions.displayOrder.items
  let suggestions := items.map fun i =>
    { value := i.value
      description := i.description
      spanStart := result.start
      spanEnd := pos
      appendSpace := items.length == 1 : Suggestion }
  -- Spans are made one for each candidate, so none fails where there are no candidates.
  if pos < result.start && !items.isEmpty then (.error ⟨result.start, pos⟩, message)
  else (.ok suggestions, message)

end TabCompletion
