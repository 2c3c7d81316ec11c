import Mathlib.Order.Bounds.Basic
import TabCompletion.Completion.Table
import TabCompletion.Proofs.Text.Columns

/-!
# Where the second column of a table begins

A line of a table is a first column, spaces, and a second column (`Line`). The rows of a table have
their second column at one place, two columns after the widest of the candidates and the destination.
The header line has it there too unless the destination, which is printed in upper case, is wider in
upper case than that.

Main statement: `describe_columns`.
-/

namespace TabCompletion.Table

open Text

variable {items : List CompletionItem} {dest header first second line : String} {gap column : Nat}

/-- A line with `first`, a gap of spaces, and `second`, which begins at a given column. -/
structure Line (first second line : String) (gap column : Nat) : Prop where
  text : line = first ++ spaces gap ++ second
  start : displayWidth (first ++ spaces gap) = column
  /-- Over a gap, the second column takes no column of the first and loses none to it. -/
  whole : gap ≠ 0 → displayWidth line = column + displayWidth second

theorem padDisplay_line (h : isPrintable first = true) (column : Nat) (second : String) :
    Line first second (padDisplay first column ++ second) (column - displayWidth first)
      (max column (displayWidth first)) := by
  refine ⟨rfl, ?_, ?_⟩
  · rw [displayWidth_append_spaces h]
    omega
  · intro hgap
    rw [padDisplay, displayWidth_append_spaces_append h hgap]
    omega

/-- The first column of a table is at least as wide as the destination and all candidates, and no wider
than the widest of them. -/
theorem isGreatest_widest (items : List CompletionItem) (dest : String) :
    IsGreatest {n | n ∈ displayWidth dest :: items.map fun i => displayWidth i.value}
      ((items.map fun i => displayWidth i.value).foldl max (displayWidth dest)) :=
  List.max?_eq_some_iff.mp List.max?_cons'

/-- **The second column of a table.** Where neither the candidates nor the destination have control
characters, every row has its description two columns after the widest of them, and at least two
spaces before it. The header line begins its second column there exactly if the destination in upper
case does not reach beyond that place, and with two spaces before it exactly if the destination in
upper case is no wider than the widest. -/
theorem describe_columns (items : List CompletionItem) (dest header : String) (terminalWidth : Nat)
    (hvalues : ∀ item ∈ items, isPrintable item.value = true) (hdest : isPrintable dest = true) :
    let t := describe items dest header terminalWidth
    ∃ widest, IsGreatest {n | n ∈ displayWidth dest :: items.map fun i => displayWidth i.value} widest ∧
      t.entries.length = items.length ∧
      (∀ (i : Nat) (item : CompletionItem), items[i]? = some item → ∃ row gap,
        t.entries[i]? = some row ∧ 2 ≤ gap ∧
          Line item.value
            (padDisplay (item.description.getD "") (terminalWidth * 6 / 10 - (widest + 2)))
            row gap (widest + 2)) ∧
      ∃ line gap start, t.header = "\n" ++ line ∧ Line (uppercase dest) header line gap start ∧
        (start = widest + 2 ↔ displayWidth (uppercase dest) ≤ widest + 2) ∧
        (2 ≤ gap ↔ displayWidth (uppercase dest) ≤ widest) := by
  intro t
  have hwidest := isGreatest_widest items dest
  refine ⟨_, hwidest, List.length_map _, ?_, ?_⟩
  · intro i item hitem
    have hmem := List.mem_of_getElem? hitem
    have hwidth := hwidest.2 (List.mem_cons_of_mem _ (List.mem_map_of_mem hmem))
    have hline := padDisplay_line (hvalues item hmem)
      ((items.map fun i => displayWidth i.value).foldl max (displayWidth dest) + 2)
    rw [Nat.max_eq_left (Nat.le_trans hwidth (Nat.le_add_right _ 2))] at hline
    refine ⟨_, _, ?_, ?_, hline _⟩
    · exact (List.getElem?_map ..).trans (by rw [hitem]; rfl)
    · omega
  · refine ⟨_, _, _, String.append_assoc, padDisplay_line (isPrintable_uppercase hdest) _ header, ?_, ?_⟩
    · omega
    · omega

def letters : List CompletionItem := [⟨"a", some "x"⟩, ⟨"b", some "y"⟩]

theorem describe_columns_letters :
    (∀ item ∈ letters, isPrintable item.value = true) ∧ isPrintable "größe" = true ∧
      describe letters "größe" "Meaning" 20 =
        ⟨"\nGRÖSSE Meaning", ["a      x    ", "b      y    "]⟩ ∧
      (∃ row gap, ["a      x    ", "b      y    "][0]? = some row ∧ 2 ≤ gap ∧
        Line "a" "x    " row gap 7) ∧
      ∃ line gap, "\nGRÖSSE Meaning" = "\n" ++ line ∧ gap < 2 ∧ Line "GRÖSSE" "Meaning" line gap 7 := by
  have hvalues : ∀ item ∈ letters, isPrintable item.value = true := by decide +kernel
  have hdest : isPrintable "größe" = true := by decide +kernel
  have htable : describe letters "größe" "Meaning" 20 =
      ⟨"\nGRÖSSE Meaning", ["a      x    ", "b      y    "]⟩ := by
    decide +kernel
  have hupper : uppercase "größe" = "GRÖSSE" ∧ displayWidth "GRÖSSE" = 6 := by decide +kernel
  obtain ⟨widest, hwidest, -, hrows, line, gap, start, hline, hcolumns, hstart, hgap⟩ :=
    describe_columns letters "größe" "Meaning" 20 hvalues hdest
  obtain rfl : widest = 5 :=
    (hwidest.unique (isGreatest_widest letters "größe")).trans (by decide +kernel)
  rw [htable] at hrows hline
  rw [hupper.1, hupper.2] at hstart hgap
  rw [hupper.1, hstart.mpr (by decide)] at hcolumns
  have hrow := hrows 0 ⟨"a", some "x"⟩ rfl
  have hpad : padDisplay "x" (20 * 6 / 10 - (5 + 2)) = "x    " := by decide +kernel
  simp only [Option.getD_some, hpad] at hrow
  exact ⟨hvalues, hdest, htable, hrow, line, gap, hline, by omega, hcolumns⟩

/-- **A destination may be wider in upper case**: the header line then has its second column further to
the right than the rows, and no space before it. -/
theorem describe_header_overflows :
    describe letters "ßßß" "H" 80 =
        ⟨"\nSSSSSSH", ["a    " ++ "x" ++ spaces 42, "b    " ++ "y" ++ spaces 42]⟩ ∧
      displayWidth "a    " = 5 ∧ displayWidth "SSSSSS" = 6 ∧
    ¬∀ (items : List CompletionItem) (dest header : String) (terminalWidth : Nat),
      terminalWidth ≤ 65535 → (∀ item ∈ items, isPrintable item.value = true) →
      isPrintable dest = true → ∃ widest,
        IsGreatest {n | n ∈ displayWidth dest :: items.map fun i => displayWidth i.value} widest ∧
        ∃ line gap, (describe items dest header terminalWidth).header = "\n" ++ line ∧
          Line (uppercase dest) header line gap (widest + 2) := by
  refine ⟨by decide +kernel, by decide +kernel, by decide +kernel, ?_⟩
  intro h
  obtain ⟨widest, hwidest, line, gap, hline, hcolumns⟩ :=
    h letters "ßßß" "H" 80 (by decide) (by decide +kernel) (by decide +kernel)
  obtain rfl : widest = 3 :=
    (hwidest.unique (isGreatest_widest letters "ßßß")).trans (by decide +kernel)
  have hstart := hcolumns.start
  rw [displayWidth_append_spaces (by decide +kernel),
    show displayWidth (uppercase "ßßß") = 6 by decide +kernel] at hstart
  omega

end TabCompletion.Table
