import TabCompletion.Grammar.Builder
import TabCompletion.Proofs.Completion.Tables
import TabCompletion.Proofs.Line.Boundary
import TabCompletion.Proofs.Text.Bytes
import TabCompletion.Shell.Suggestion

/-!
# The span that a candidate replaces

A candidate replaces the line from the start of its last word to the cursor. The start is found in the
text before the cursor, or in the whole line where there is no such text: beyond the end of the line,
and inside a character. Beyond the end the start still comes before the cursor. Inside a character the
word may start after it, and then there is no span to replace.

Main statement: `complete_start`.
-/

namespace TabCompletion

namespace Line

theorem begidx_isCharBoundary (head : String) :
    Text.IsCharBoundary head.toList (splitForCompletion head).begidx := by
  obtain ⟨before, region, h⟩ := boundary_cut head.toList
  exact ⟨before, region, h.append, h.begidx⟩

end Line

namespace CommandSet

variable {set : CommandSet} {host : Host} {line : String} {pos : Nat}

/-- Inside a character and beyond the end of the line, the whole line is looked at. -/
theorem headOf_eq_line
    (h : Text.byteLength line.toList < pos ∨ Text.IsInsideChar line.toList pos) :
    headOf line pos = line := by
  rw [headOf, Text.takeBytes?_eq_none_iff.mpr h]
  rfl

/-- Elsewhere it is the text before the cursor. -/
theorem headOf_eq_before
    (h : ¬(Text.byteLength line.toList < pos ∨ Text.IsInsideChar line.toList pos)) :
    ∃ rest, line.toList = (headOf line pos).toList ++ rest ∧
      Text.byteLength (headOf line pos).toList = pos := by
  unfold headOf
  cases hcut : Text.takeBytes? pos line.toList with
  | none => exact absurd (Text.takeBytes?_eq_none_iff.mp hcut) h
  | some before =>
      obtain ⟨rest, happend, hlength⟩ := Text.takeBytes?_eq_some hcut
      exact ⟨rest, by simpa using happend, by simpa using hlength⟩

theorem start_isCharBoundary (set : CommandSet) (host : Host) (line : String) (pos : Nat) :
    Text.IsCharBoundary line.toList (set.complete host line pos).1.start := by
  show Text.IsCharBoundary _ (Line.splitForCompletion (headOf line pos)).begidx
  have hhead := Line.begidx_isCharBoundary (headOf line pos)
  by_cases hcut : Text.byteLength line.toList < pos ∨ Text.IsInsideChar line.toList pos
  · rw [headOf_eq_line hcut] at hhead ⊢
    exact hhead
  · obtain ⟨rest, happend, -⟩ := headOf_eq_before hcut
    rw [happend]
    exact hhead.append rest

/-- **The word starts after the cursor only if the cursor is inside a character**, and then just if the
last word of the whole line does. -/
theorem lt_start_iff (set : CommandSet) (host : Host) (line : String) (pos : Nat) :
    pos < (set.complete host line pos).1.start ↔
      Text.IsInsideChar line.toList pos ∧ pos < (Line.splitForCompletion line).begidx := by
  show pos < (Line.splitForCompletion (headOf line pos)).begidx ↔ _
  by_cases hinside : Text.IsInsideChar line.toList pos
  · rw [headOf_eq_line (Or.inr hinside)]
    simp [hinside]
  · have hle := (Line.begidx_isCharBoundary (headOf line pos)).le
    have hstart : (Line.splitForCompletion (headOf line pos)).begidx ≤ pos := by
      by_cases hbeyond : Text.byteLength line.toList < pos
      · rw [headOf_eq_line (Or.inl hbeyond)] at hle ⊢
        omega
      · obtain ⟨-, -, hlength⟩ := headOf_eq_before (not_or.mpr ⟨hbeyond, hinside⟩)
        rwa [hlength] at hle
    simp [hinside, hstart]

/-- **Suggestions fail just where there are candidates for a word that starts after the cursor.** -/
theorem suggest_error_iff (set : CommandSet) (host : Host) (line : String) (pos : Nat) :
    (∃ fault, (set.suggest host line pos).1 = .error fault) ↔
      pos < (set.complete host line pos).1.start ∧
        (set.complete host line pos).1.completions.items ≠ [] := by
  have hnone : (set.complete host line pos).1.completions.displayOrder.items = [] ↔
      (set.complete host line pos).1.completions.items = [] := by
    rw [← List.length_eq_zero_iff, (Completions.displayOrder_perm _).length_eq,
      List.length_eq_zero_iff]
  unfold suggest
  dsimp only
  split
  · next hfault => simpa [hnone] using hfault
  · next hfault => simpa [hnone] using hfault

theorem span_of_suggest {suggestions : List Suggestion} {s : Suggestion}
    (h : (set.suggest host line pos).1 = .ok suggestions) (hs : s ∈ suggestions) :
    s.spanStart = (set.complete host line pos).1.start ∧ s.spanEnd = pos ∧
      s.spanStart ≤ s.spanEnd := by
  unfold suggest at h
  dsimp only at h
  split at h
  · contradiction
  · next hfault =>
      cases h
      obtain ⟨item, hitem, rfl⟩ := List.mem_map.mp hs
      refine ⟨rfl, rfl, ?_⟩
      have hsome : (set.complete host line pos).1.completions.displayOrder.items ≠ [] :=
        List.ne_nil_of_mem hitem
      simpa [hsome] using hfault

/-- **Where the word under the cursor starts.** The word starts at a character of the line or at its
end. It starts at or before the cursor, unless the cursor is inside a character and the last word of the
whole line starts after it. Then, and only then, is there no span for the candidates, if there are any;
otherwise each is suggested for the span from the start of the word to the cursor. -/
theorem complete_start (set : CommandSet) (host : Host) (line : String) (pos : Nat) :
    let result := (set.complete host line pos).1
    Text.IsCharBoundary line.toList result.start ∧
      (pos < result.start ↔
        Text.IsInsideChar line.toList pos ∧ pos < (Line.splitForCompletion line).begidx) ∧
      ((∃ fault, (set.suggest host line pos).1 = .error fault) ↔
        pos < result.start ∧ result.completions.items ≠ []) ∧
      ∀ suggestions, (set.suggest host line pos).1 = .ok suggestions → ∀ s ∈ suggestions,
        s.spanStart = result.start ∧ s.spanEnd = pos ∧ s.spanStart ≤ s.spanEnd :=
  ⟨start_isCharBoundary set host line pos, lt_start_iff set host line pos,
    suggest_error_iff set host line pos, fun _ h _ hs => span_of_suggest h hs⟩

/-- A command whose name is a character of two bytes. -/
def accented : GrammarSpec :=
  { prog := "é"
    items := [.arg { name := some "size", choices := some (.fixed [.ofText "one", .ofText "two"]) }] }

/-- Inside the first character, the candidate for the last word has no span. -/
theorem word_after_cursor :
    ∃ g, accented.build = .ok g ∧
      ((⟨[g]⟩ : CommandSet).complete {} "é o" 1).1 = ⟨3, { items := [⟨"one", none⟩] }⟩ ∧
      ((⟨[g]⟩ : CommandSet).suggest {} "é o" 1).1 = .error ⟨3, 1⟩ :=
  ⟨_, rfl, rfl, rfl⟩

end CommandSet

end TabCompletion
