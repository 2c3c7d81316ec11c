import TabCompletion.Grammar.Builder
import TabCompletion.Proofs.Replay.Offered
import TabCompletion.Proofs.Resolve.Descent
import TabCompletion.Proofs.Sorting
import TabCompletion.Shell.Commands

/-!
# Tables and the candidates they list

A table is laid out beside the candidates of an argument, once they are in display order; from then on
candidates and rows are separate lists. What is done to the candidates later keeps them in step:
quoting changes each in its place (`Tabulated.written`), and display order leaves them where they are,
because they are marked as sorted (`Tabulated.displayOrder`).

Main statement: `table_lists_candidates`.
-/

namespace TabCompletion

/-! ## Rows -/

namespace Table

variable {items : List CompletionItem} {item : CompletionItem}

theorem displayWidth_le_widest (h : item ∈ items) (least : Nat) :
    Text.displayWidth item.value ≤
      (items.map fun i => Text.displayWidth i.value).foldl max least := by
  have hleast : ∀ (ns : List Nat) (n : Nat), n ≤ ns.foldl max n := by
    intro ns
    induction ns with
    | nil => exact Nat.le_refl
    | cons m ns ih => exact fun n => Nat.le_trans (Nat.le_max_left n m) (ih (max n m))
  induction items generalizing least with
  | nil => simp at h
  | cons first rest ih =>
      rw [List.map_cons, List.foldl_cons]
      rcases List.mem_cons.mp h with rfl | hrest
      · exact Nat.le_trans (Nat.le_max_right _ _) (hleast _ _)
      · exact ih hrest _

/-- A table has a row for each candidate, in which the value has at least two spaces after it. -/
theorem describe_rows (items : List CompletionItem) (dest header : String) (terminalWidth : Nat) :
    ∃ column fill, ∀ (i : Nat) (item : CompletionItem), items[i]? = some item →
      Text.displayWidth item.value + 2 ≤ column ∧
        (describe items dest header terminalWidth).entries[i]? =
          some (padDisplay item.value column ++ padDisplay (item.description.getD "") fill) := by
  let column := (items.map fun i => Text.displayWidth i.value).foldl max (Text.displayWidth dest) + 2
  refine ⟨column, terminalWidth * 6 / 10 - column, ?_⟩
  intro i item hitem
  constructor
  · exact Nat.add_le_add_right (displayWidth_le_widest (List.mem_of_getElem? hitem) _) 2
  · rw [describe, List.getElem?_map, hitem]
    rfl

end Table

namespace Completions

variable {c : Completions} {host : Host} {t : Table} {write : String → String}

/-! ## Display order -/

theorem displayOrder_of_sorted (h : c.sorted = true) : c.displayOrder = c := by
  rw [displayOrder, if_pos h]

theorem displayOrder_sorted (c : Completions) : c.displayOrder.sorted = true := by
  unfold displayOrder
  split
  · assumption
  · rfl

theorem displayOrder_table (c : Completions) : c.displayOrder.table = c.table := by
  unfold displayOrder
  split <;> rfl

/-- **Display order keeps the candidates.** -/
theorem displayOrder_perm (c : Completions) : c.displayOrder.items.Perm c.items := by
  unfold displayOrder
  split
  · exact List.Perm.refl _
  · exact Sorting.stableSortByText_perm _ c.items

theorem displayOrder_displayOrder (c : Completions) :
    c.displayOrder.displayOrder = c.displayOrder :=
  displayOrder_of_sorted (displayOrder_sorted c)

/-! ## Tables -/

/-- A table lists the candidates: they are in display order, several and not too many, and the row of
each is the value that the candidate is written from and the candidate's description, padded to the
width of their columns. -/
structure Lists (host : Host) (write : String → String) (c : Completions) (t : Table) : Prop where
  sorted : c.sorted = true
  several : 2 ≤ c.items.length
  atMost : c.items.length ≤ host.settings.maxItems
  length : t.entries.length = c.items.length
  rows : ∃ column fill, ∀ (i : Nat) (item : CompletionItem), c.items[i]? = some item →
    ∃ value, item.value = write value ∧ Text.displayWidth value + 2 ≤ column ∧
      t.entries[i]? = some (padDisplay value column ++ padDisplay (item.description.getD "") fill)

/-- Where there is a table, it lists the candidates. -/
def Tabulated (host : Host) (write : String → String) (c : Completions) : Prop :=
  ∀ t, c.table = some t → Lists host write c t

theorem tabulated_of_none (h : c.table = none) : c.Tabulated host write := by
  intro t ht
  rw [h] at ht
  contradiction

theorem Tabulated.displayOrder_eq (h : c.Tabulated host write) (ht : c.table.isSome = true) :
    c.displayOrder = c := by
  obtain ⟨t, ht⟩ := Option.isSome_iff_exists.mp ht
  exact displayOrder_of_sorted (h t ht).sorted

theorem Tabulated.displayOrder (h : c.Tabulated host write) :
    c.displayOrder.Tabulated host write := by
  intro t ht
  rw [displayOrder_table] at ht
  rw [h.displayOrder_eq (by rw [ht]; rfl)]
  exact h t ht

/-- The candidates with every value in another form. -/
def written (write : String → String) (c : Completions) : Completions :=
  { c with items := c.items.map fun i => { i with value := write i.value } }

/-- A table goes on listing the candidates when their values are written in another form. -/
theorem Tabulated.written (h : c.Tabulated host id) (write : String → String) :
    (c.written write).Tabulated host write := by
  intro t ht
  obtain ⟨hsorted, hseveral, hmost, hlength, column, fill, hrows⟩ := h t ht
  have hsize : (c.written write).items.length = c.items.length := List.length_map _
  refine ⟨hsorted, hsize ▸ hseveral, hsize ▸ hmost, hsize ▸ hlength, column, fill, ?_⟩
  intro i item hitem
  rw [Completions.written, List.getElem?_map, Option.map_eq_some_iff] at hitem
  obtain ⟨shown, hshown, rfl⟩ := hitem
  obtain ⟨value, hvalue, hwidth, hrow⟩ := hrows i shown hshown
  exact ⟨value, congrArg write hvalue, hwidth, hrow⟩

/-- What a source gives comes without a table, however its values are made candidates. -/
theorem table_of_map {ε α : Type} {offered : Except ε α} {f : α → Completions}
    (hf : ∀ a, (f a).table = none) (h : offered.map f = .ok c) : c.table = none := by
  cases offered with
  | error fault => contradiction
  | ok a =>
      cases h
      exact hf a

/-- **A table that is laid out lists the candidates beside it.** -/
theorem withTable_tabulated (h : c.table = none) (dest : String) (header : Option String) :
    (c.withTable host dest header).Tabulated host id := by
  unfold withTable
  extract_lets described items
  split
  · next hmany =>
      simp only [Bool.and_eq_true, decide_eq_true_eq] at hmany
      have hlength : items.length = c.items.length := (displayOrder_perm c).length_eq
      intro t ht
      cases ht
      obtain ⟨column, fill, hrows⟩ := Table.describe_rows items dest
        (header.getD host.settings.descriptiveHeader) host.width
      refine ⟨rfl, hlength ▸ hmany.1.1, hlength ▸ hmany.1.2, List.length_map _, column, fill, ?_⟩
      intro i item hitem
      exact ⟨item.value, rfl, hrows i item hitem⟩
  · exact tabulated_of_none h

end Completions

/-! ## What a request gives -/

variable {host : Host} {request : CompletionRequest} {parents : ArgTokens} {g : Grammar}
  {d : ArgDef Grammar} {c : Completions} {answer : Answer} {words : List String}

namespace Scope

variable {scope : Scope}

theorem candidates_table (h : scope.candidates d request = .ok c) : c.table = none := by
  unfold candidates at h
  extract_lets used tokens at h
  split at h
  · cases h
    rfl
  · split at h
    · cases h
      rfl
    · cases h
      rfl
    · exact Completions.table_of_map (fun _ => rfl) h
    · exact Completions.table_of_map (fun _ => rfl) h

theorem completeArg_tabulated (h : scope.completeArg d request = .ok c) :
    c.Tabulated scope.host id := by
  unfold completeArg at h
  split at h
  · contradiction
  · next found hfound =>
      cases h
      exact Completions.withTable_tabulated (candidates_table hfound) _ _

end Scope

theorem Replay.complete_tabulated {s : Replay}
    (h : s.complete g host parents request = .ok answer) : answer.completions.Tabulated host id := by
  -- A table is laid out only where an argument is completed.
  rcases Replay.complete_cases g s host parents request with
    hflags | ⟨e, he⟩ | ⟨p, c, -, hc, hcomplete⟩ | ⟨answer', hcomplete, hnone⟩
  · cases h.symm.trans hflags.complete_eq
    exact Completions.tabulated_of_none rfl
  · cases h.symm.trans he
  · cases h.symm.trans hcomplete
    exact Scope.completeArg_tabulated hc
  · cases h.symm.trans hcomplete
    exact Completions.tabulated_of_none (by rw [hnone])

namespace Grammar

theorem tryResolve_tabulated (h : g.tryResolve host parents words request = .ok answer) :
    answer.completions.Tabulated host id := by
  by_cases hwords : words = []
  · subst hwords
    cases h
    exact Completions.tabulated_of_none rfl
  · rw [tryResolve_eq_descend hwords] at h
    cases hdown : g.descend (.start g) (wordsBefore words request.text) with
    | error e =>
        rw [hdown] at h
        contradiction
    | ok down =>
        rw [hdown] at h
        exact Replay.complete_tabulated h

theorem resolve_tabulated : (g.resolve host parents words request).1.Tabulated host id := by
  unfold resolve
  split
  · next hanswer => exact tryResolve_tabulated hanswer
  · exact Completions.tabulated_of_none rfl

end Grammar

namespace CommandSet

variable {set : CommandSet}

theorem completeWords_tabulated : (set.completeWords host words request).1.Tabulated host id := by
  unfold completeWords
  split
  · split
    · exact Completions.tabulated_of_none rfl
    · split
      · exact Grammar.resolve_tabulated
      · exact Completions.tabulated_of_none rfl
  · exact Completions.tabulated_of_none rfl

theorem complete_tabulated (set : CommandSet) (host : Host) (line : String) (pos : Nat) :
    (set.complete host line pos).1.completions.Tabulated host Line.quoteCandidate :=
  completeWords_tabulated.written Line.quoteCandidate

end CommandSet

/-- **Table and candidates stay in step.** Where resolving words or completing a line gives a table, the
candidates are in display order, at least two and at most as many as the host allows, and the table has
one row for each: the value, unquoted, and the description, each padded. Putting such candidates in
display order changes nothing. Display order permutes any candidates, and once more changes nothing. -/
theorem table_lists_candidates (host : Host) :
    (∀ g parents words request,
      let c := (Grammar.resolve g host parents words request).1
      c.Tabulated host id ∧ c.displayOrder.Tabulated host id ∧
        (c.table.isSome = true → c.displayOrder = c)) ∧
    (∀ set line pos,
      let c := (CommandSet.complete set host line pos).1.completions
      c.Tabulated host Line.quoteCandidate ∧ c.displayOrder.Tabulated host Line.quoteCandidate ∧
        (c.table.isSome = true → c.displayOrder = c)) ∧
    ∀ c : Completions, c.displayOrder.items.Perm c.items ∧
      c.displayOrder.displayOrder = c.displayOrder := by
  refine ⟨?_, ?_, ?_⟩
  · intro g parents words request
    have h : (g.resolve host parents words request).1.Tabulated host id := Grammar.resolve_tabulated
    exact ⟨h, h.displayOrder, h.displayOrder_eq⟩
  · intro set line pos
    have h := set.complete_tabulated host line pos
    exact ⟨h, h.displayOrder, h.displayOrder_eq⟩
  · intro c
    exact ⟨c.displayOrder_perm, c.displayOrder_displayOrder⟩

def albums : GrammarSpec :=
  { prog := "play"
    items :=
      [.arg { name := some "album"
              choices := some (.fixed [⟨.text "Help!", some "1965"⟩, ⟨.text "Abbey Road", none⟩]) }] }

example :
    ∃ g, albums.build = .ok g ∧
      ((⟨[g]⟩ : CommandSet).complete { width := 10 } "play " 5).1.completions =
        { items := [⟨"'Abbey Road'", none⟩, ⟨"Help!", some "1965"⟩]
          sorted := true
          table := some ⟨"\nALBUM       Description", ["Abbey Road  ", "Help!       1965"]⟩ } :=
  ⟨_, rfl, by decide +kernel⟩

end TabCompletion
