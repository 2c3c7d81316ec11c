import Mathlib.Data.List.TakeWhile
import TabCompletion.Grammar.Builder
import TabCompletion.Proofs.Completion.Tables
import TabCompletion.Proofs.Line.Quoting
import TabCompletion.Proofs.Text.Lines
import TabCompletion.Shell.Reply

/-!
# The lines that candidates are printed as

Candidates are printed one after the other: each as its value or, where there is a table, as its row,
which comes after the title (`PrintedAs`). A line feed follows each. Nothing that is printed is checked for
line feeds of its own, so they make more lines; quoting keeps them (`lineFeed_mem_quoteCandidate`).

Main statement: `completeLine_lines`.
-/

namespace TabCompletion

theorem mem_padDisplay {c : Char} {s : String} {width : Nat} (h : c ∈ (padDisplay s width).toList) :
    c ∈ s.toList ∨ c = ' ' := by
  rw [padDisplay, String.toList_append, List.mem_append] at h
  refine h.imp_right fun hspace => ?_
  rw [Text.spaces, String.toList_ofList] at hspace
  exact List.eq_of_mem_replicate hspace

/-! ## Printed candidates -/

namespace Line

theorem lineFeed_mem_quoteCandidate {v : String} :
    '\n' ∈ (quoteCandidate v).toList ↔ '\n' ∈ v.toList := by
  rw [quoteCandidate_eq]
  split
  · rw [String.toList_ofList, mem_quote (by decide)]
  · exact Iff.rfl

end Line

/-- The header of a table has a title: what stands after the line feeds that it begins with. -/
def Table.HasTitle (t : Table) (title : String) : Prop :=
  ∃ feeds, t.header = String.ofList (List.replicate feeds '\n') ++ title ∧
    title.toList.head? ≠ some '\n'

theorem Table.hasTitle_iff {t : Table} {title : String} :
    t.HasTitle title ↔ title = String.ofList (t.header.toList.dropWhile (· == '\n')) := by
  let isFeed : Char → Bool := (· == '\n')
  constructor
  · rintro ⟨feeds, hheader, hfirst⟩
    have hrest : title.toList.dropWhile isFeed = title.toList := by
      cases hlist : title.toList with
      | nil => rfl
      | cons c cs =>
          rw [hlist] at hfirst
          exact List.dropWhile_cons_of_neg (by simpa [isFeed] using hfirst)
    rw [hheader, String.toList_append, String.toList_ofList, List.dropWhile_append_of_pos (by simp),
      hrest, String.ofList_toList]
  · rintro rfl
    have hrun : t.header.toList.takeWhile isFeed =
        List.replicate (t.header.toList.takeWhile isFeed).length '\n' := by
      refine List.eq_replicate_iff.mpr ⟨rfl, fun c hc => ?_⟩
      exact eq_of_beq (List.mem_takeWhile_imp (p := isFeed) hc)
    refine ⟨(t.header.toList.takeWhile isFeed).length, ?_, ?_⟩
    · rw [← hrun, ← String.ofList_append, List.takeWhile_append_dropWhile, String.ofList_toList]
    · intro h
      have hstop := List.head?_dropWhile_not isFeed t.header.toList
      rw [String.toList_ofList] at h
      rw [h] at hstop
      contradiction

namespace Completions

variable {c : Completions} {host : Host} {printed : List String}

/-- The texts that candidates are printed as: their values; or, where there is a table of them, its title,
and its rows without the white space at their ends. -/
inductive PrintedAs (c : Completions) : List String → Prop where
  | values (h : c.table = none) : PrintedAs c c.values
  | table {t : Table} {title : String} (h : c.table = some t) (htitle : t.HasTitle title) :
      PrintedAs c (title :: t.entries.map Text.trimEnd)

theorem printedAs_printedLines (c : Completions) : c.PrintedAs (CommandSet.printedLines c) := by
  cases htable : c.table with
  | none => simpa only [CommandSet.printedLines, htable] using PrintedAs.values htable
  | some t =>
      simpa only [CommandSet.printedLines, htable] using .table htable (Table.hasTitle_iff.mpr rfl)

/-- Every row of a table is that of a candidate. -/
theorem Lists.row_of_mem {write : String → String} {t : Table} {row : String}
    (h : Lists host write c t) (hrow : row ∈ t.entries) :
    ∃ i ∈ c.items, ∃ value column fill, i.value = write value ∧
      row = padDisplay value column ++ padDisplay (i.description.getD "") fill := by
  obtain ⟨n, hn, rfl⟩ := List.mem_iff_getElem.mp hrow
  have hn' : n < c.items.length := h.length ▸ hn
  obtain ⟨column, fill, hrows⟩ := h.rows
  obtain ⟨value, hvalue, -, hlaid⟩ := hrows n c.items[n] (List.getElem?_eq_getElem hn')
  rw [List.getElem?_eq_getElem hn, Option.some.injEq] at hlaid
  exact ⟨c.items[n], List.getElem_mem hn', value, column, fill, hvalue, hlaid⟩

/-- A text is printed for each candidate, and one for the title of a table. -/
theorem PrintedAs.length_eq (h : c.PrintedAs printed)
    (htabulated : c.Tabulated host Line.quoteCandidate) :
    printed.length = c.items.length + c.table.toList.length := by
  cases h with
  | values htable => simp [Completions.values, htable]
  | table htable => simp [htable, (htabulated _ htable).length]

theorem PrintedAs.eq_nil_iff (h : c.PrintedAs printed)
    (htabulated : c.Tabulated host Line.quoteCandidate) : printed = [] ↔ c.items = [] := by
  cases h with
  | values => exact List.map_eq_nil_iff
  | table htable =>
      have hitems : c.items ≠ [] := by
        intro hnil
        have hseveral := (htabulated _ htable).several
        rw [hnil] at hseveral
        contradiction
      exact iff_of_false (List.cons_ne_nil _ _) hitems

/-- What is printed has no line feed if the candidates, their descriptions and the title have none. -/
theorem PrintedAs.lineFeed_notMem (h : c.PrintedAs printed)
    (htabulated : c.Tabulated host Line.quoteCandidate)
    (hitems : ∀ i ∈ c.items, '\n' ∉ i.value.toList ∧ '\n' ∉ (i.description.getD "").toList)
    (htitles : ∀ t title, c.table = some t → t.HasTitle title → '\n' ∉ title.toList) :
    ∀ p ∈ printed, '\n' ∉ p.toList := by
  cases h with
  | values htable =>
      intro p hp
      obtain ⟨i, hi, rfl⟩ := List.mem_map.mp hp
      exact (hitems i hi).1
  | @table t title htable htitle =>
      refine List.forall_mem_cons.mpr ⟨htitles t title htable htitle, ?_⟩
      intro p hp hfeed
      obtain ⟨row, hrow, rfl⟩ := List.mem_map.mp hp
      obtain ⟨i, hi, value, column, fill, hvalue, rfl⟩ := (htabulated t htable).row_of_mem hrow
      obtain ⟨hfree, hplain⟩ := hitems i hi
      rw [hvalue, Line.lineFeed_mem_quoteCandidate] at hfree
      have hin := Text.mem_of_mem_trimEnd hfeed
      rw [String.toList_append, List.mem_append] at hin
      rcases hin with hin | hin
      · exact (mem_padDisplay hin).elim hfree (by decide)
      · exact (mem_padDisplay hin).elim hplain (by decide)

end Completions

/-! ## Printed lines -/

namespace CommandSet

theorem completeLine_eq_join (set : CommandSet) (host : Host) (line : String) :
    (set.completeLine host line).1 =
      String.join ((printedLines (set.complete host line
        (Text.byteLength line.toList)).1.completions.displayOrder).map (· ++ "\n")) := by
  rw [completeLine]

/-- **What is printed for a line.** One text is printed for each candidate, in display order, after the
title where there is a table of them, and a line feed after each text; so nothing is printed just if there
are no candidates. The texts are the candidates as they are inserted, or the rows of the table, which
list them. Whoever reads the printed text finds as many lines as there are texts and line feeds in them.
So the lines are the texts just if none of these has a line feed, and none has if neither the candidates
nor their descriptions nor the title have any. -/
theorem completeLine_lines (set : CommandSet) (host : Host) (line : String) :
    let c := (set.complete host line (Text.byteLength line.toList)).1.completions.displayOrder
    let text := (set.completeLine host line).1
    c.Tabulated host Line.quoteCandidate ∧ (text = "" ↔ c.items = []) ∧
      ∃ printed, c.PrintedAs printed ∧
        printed.length = c.items.length + c.table.toList.length ∧
        text = String.join (printed.map (· ++ "\n")) ∧
        (Text.endedLines text).length =
          printed.length + (String.join printed).toList.count '\n' ∧
        (Text.endedLines text = printed ↔ ∀ p ∈ printed, '\n' ∉ p.toList) ∧
        ((∀ i ∈ c.items, '\n' ∉ i.value.toList ∧ '\n' ∉ (i.description.getD "").toList) →
          (∀ t title, c.table = some t → t.HasTitle title → '\n' ∉ title.toList) →
          Text.endedLines text = printed) := by
  intro c text
  have htabulated : c.Tabulated host Line.quoteCandidate :=
    (set.complete_tabulated host line _).displayOrder
  have hprinted := c.printedAs_printedLines
  have htext : text = String.join ((printedLines c).map (· ++ "\n")) :=
    completeLine_eq_join set host line
  have hlines : Text.endedLines text = (printedLines c).flatMap Text.segments := by
    rw [htext, Text.endedLines_join]
  have hiff : Text.endedLines text = printedLines c ↔ ∀ p ∈ printedLines c, '\n' ∉ p.toList := by
    rw [hlines, Text.flatMap_segments_eq_iff]
  refine ⟨htabulated, ?_, _, hprinted, hprinted.length_eq htabulated, htext, ?_, hiff, ?_⟩
  · rw [htext, Text.join_eq_empty_iff, hprinted.eq_nil_iff htabulated]
  · rw [hlines, Text.length_flatMap_segments]
  · intro hitems htitles
    exact hiff.mpr (hprinted.lineFeed_notMem htabulated hitems htitles)

/-- A command that marks a note, with a header for what the marks mean. -/
def marking (header : String) (choices : List Choice) : GrammarSpec where
  prog := "mark"
  items :=
    [.arg { name := some "as", choices := some (.fixed choices), descriptiveHeader := some header }]

/-- The candidates of the command, in display order, where nothing follows its name yet. -/
def markings (g : Grammar) : Completions :=
  ((⟨[g]⟩ : CommandSet).complete {} "mark " (Text.byteLength "mark ".toList)).1.completions.displayOrder

theorem marks_are_lines :
    ∃ g, (marking "Meaning" [⟨.text "left open", some "later"⟩, ⟨.text "done", some "over"⟩]).build =
        .ok g ∧
      (∀ i ∈ (markings g).items,
        '\n' ∉ i.value.toList ∧ '\n' ∉ (i.description.getD "").toList) ∧
      (∀ t title, (markings g).table = some t → t.HasTitle title → '\n' ∉ title.toList) ∧
      (markings g).PrintedAs (Text.endedLines ((⟨[g]⟩ : CommandSet).completeLine {} "mark ").1) ∧
      Text.endedLines ((⟨[g]⟩ : CommandSet).completeLine {} "mark ").1 =
        ["AS         Meaning", "done       over", "left open  later"] := by
  obtain ⟨g, hbuild, hitems, htable, hread⟩ :
      ∃ g, (marking "Meaning" [⟨.text "left open", some "later"⟩, ⟨.text "done", some "over"⟩]).build =
          .ok g ∧
        (markings g).items = [⟨"done", some "over"⟩, ⟨"'left open'", some "later"⟩] ∧
        (markings g).table.map (·.header) = some "\nAS         Meaning" ∧
        Text.endedLines ((⟨[g]⟩ : CommandSet).completeLine {} "mark ").1 =
          ["AS         Meaning", "done       over", "left open  later"] :=
    ⟨_, rfl, by decide +kernel, by decide +kernel, by decide +kernel⟩
  have hfree : ∀ i ∈ (markings g).items,
      '\n' ∉ i.value.toList ∧ '\n' ∉ (i.description.getD "").toList := by
    rw [hitems]
    decide
  have htitles : ∀ t title, (markings g).table = some t → t.HasTitle title →
      '\n' ∉ title.toList := by
    intro t title ht htitle
    rw [ht, Option.map_some, Option.some.injEq] at htable
    rw [Table.hasTitle_iff.mp htitle, htable]
    decide
  obtain ⟨-, -, printed, hprinted, -, -, -, -, hlines⟩ := completeLine_lines ⟨[g]⟩ {} "mark "
  obtain rfl := hlines hfree htitles
  exact ⟨g, hbuild, hfree, htitles, hprinted, hread⟩

/-- **A line feed in a value, a description or a header makes one more line.** -/
theorem line_feeds_make_lines :
    (∃ g, (marking "Meaning" [.ofText "left\nopen"]).build = .ok g ∧
      ((⟨[g]⟩ : CommandSet).completeLine {} "mark ").1 = "'left\nopen'\n") ∧
    (∃ g, (marking "Meaning\n" [⟨.text "done", some "over"⟩, ⟨.text "open", some "later"⟩]).build =
        .ok g ∧
      ((⟨[g]⟩ : CommandSet).completeLine {} "mark ").1 =
        "AS    Meaning\n\ndone  over\nopen  later\n") ∧
    (∃ g, (marking "Meaning" [⟨.text "done", some "over\nat last"⟩, ⟨.text "open", some "later"⟩]).build =
        .ok g ∧
      ((⟨[g]⟩ : CommandSet).completeLine {} "mark ").1 =
        "AS    Meaning\ndone  over\nat last\nopen  later\n") ∧
    ¬∀ (set : CommandSet) (host : Host) (line : String),
      (set.complete host line (Text.byteLength line.toList)).1.completions.displayOrder.PrintedAs
        (Text.endedLines (set.completeLine host line).1) := by
  obtain ⟨g, hbuild, hcount, htext⟩ :
      ∃ g, (marking "Meaning" [⟨.text "done", some "over\nat last"⟩, ⟨.text "open", some "later"⟩]).build =
          .ok g ∧
        (markings g).items.length + (markings g).table.toList.length = 3 ∧
        ((⟨[g]⟩ : CommandSet).completeLine {} "mark ").1 =
          "AS    Meaning\ndone  over\nat last\nopen  later\n" :=
    ⟨_, rfl, by decide +kernel, by decide +kernel⟩
  refine ⟨?_, ?_, ⟨g, hbuild, htext⟩, ?_⟩
  · exact ⟨_, rfl, by decide +kernel⟩
  · exact ⟨_, rfl, by decide +kernel⟩
  intro h
  have hprinted := h ⟨[g]⟩ {} "mark "
  have hlength := hprinted.length_eq (complete_tabulated ⟨[g]⟩ {} "mark " _).displayOrder
  rw [htext] at hlength
  exact absurd (hlength.trans hcount) (by decide +kernel)

end CommandSet

end TabCompletion
