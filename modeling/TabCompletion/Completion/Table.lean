import TabCompletion.Text.Case
import TabCompletion.Text.Width
import TabCompletion.Text.Blank
import TabCompletion.Sorting

/-!
# Candidates and their table

The result of a completion request: the candidates, whether they are already in display order, and
a two-column table where they carry descriptions.
-/

namespace TabCompletion

structure CompletionItem where
  value : String
  description : Option String := none
  deriving DecidableEq, Repr

/-- A two-column listing: a header line, which starts with a line feed, and a row for each
candidate. -/
structure Table where
  header : String
  entries : List String
  deriving DecidableEq, Repr

structure Completions where
  items : List CompletionItem := []
  /-- Whether the items are in display order and are not to be sorted again. -/
  sorted : Bool := false
  table : Option Table := none
  deriving DecidableEq, Repr

def padDisplay (s : String) (width : Nat) : String :=
  s ++ Text.spaces (width - Text.displayWidth s)

/-- Lay out candidates with their descriptions, which are padded to six tenths of the terminal. -/
def Table.describe (items : List CompletionItem) (dest header : String) (terminalWidth : Nat) :
    Table :=
  -- The destination is measured as it is declared, and shown in upper case.
  let widest := (items.map fun i => Text.displayWidth i.value).foldl max (Text.displayWidth dest)
  let column := widest + 2
  let fill := terminalWidth * 6 / 10 - column
  { header := "\n" ++ padDisplay (Text.uppercase dest) column ++ header
    entries := items.map fun i =>
      padDisplay i.value column ++ padDisplay (i.description.getD "") fill }

namespace Completions

/-- Candidates without descriptions, in no display order. -/
def ofValues (values : List String) : Completions := { items := values.map fun v => { value := v } }

def values (c : Completions) : List String := c.items.map (·.value)

/-- Order candidates by their values in lower case. -/
def sortItems (items : List CompletionItem) : List CompletionItem :=
  Sorting.stableSortByText (fun i => Text.lowercase i.value) items

/-- Put the candidates in display order, unless they are in it. -/
def displayOrder (c : Completions) : Completions :=
  if c.sorted then c else { c with items := sortItems c.items, sorted := true }

end Completions

end TabCompletion
