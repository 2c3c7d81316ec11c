import TabCompletion.Proofs.Line.Boundary

/-!
# Reader and scanner agree on ordinary lines

On a line without comments whose white space outside quotes is made of separators (`Ordinary`), the
scanner cuts where the reader begins the last word: the text before the cut is read for itself, and
the rest, with its open quote closed, is one word.

`InStep` says where both machines stand after a part of such a line, by induction on the characters
read (`InStep.step`, `Ordinary.inStep`). What the end of the line makes of it is `InStep.split_eq`.

Main statement: `splitForCompletion_eq_split`.
-/

namespace TabCompletion.Line

variable {cs ds before region : List Char} {c : Char}

/-! ## Ordinary lines -/

instance (b : Boundary) : Decidable b.AtRest :=
  inferInstanceAs (Decidable (b.quote = none ∧ b.escaped = false))

/-- Outside quotes and not after a backslash, all white space separates words, and no word begins
with a number sign. -/
def Ordinary (cs : List Char) : Prop :=
  ∀ i (h : i < cs.length), (boundary (cs.take i)).AtRest →
    (Text.isBlank cs[i] = true → isSeparator cs[i] = true) ∧
    ((boundary (cs.take i)).begidx = (boundary (cs.take i)).position → cs[i] ≠ '#')

instance (cs : List Char) : Decidable (Ordinary cs) :=
  inferInstanceAs (Decidable (∀ i (h : i < cs.length), (boundary (cs.take i)).AtRest →
    (Text.isBlank cs[i] = true → isSeparator cs[i] = true) ∧
    ((boundary (cs.take i)).begidx = (boundary (cs.take i)).position → cs[i] ≠ '#')))

theorem Ordinary.of_append (h : Ordinary (cs ++ ds)) : Ordinary cs := by
  intro i hi
  have hlt : i < (cs ++ ds).length := by
    rw [List.length_append]
    omega
  have hi' := h i hlt
  rwa [List.take_append_of_le_length (Nat.le_of_lt hi), List.getElem_append_left hi] at hi'

theorem Ordinary.last (h : Ordinary (cs ++ [c])) (hrest : (boundary cs).AtRest) :
    (Text.isBlank c = true → isSeparator c = true) ∧
      ((boundary cs).begidx = (boundary cs).position → c ≠ '#') := by
  have hc := h cs.length (by simp)
  simp only [List.take_left', List.getElem_concat_length] at hc
  exact hc hrest

/-! ## Both machines on an ordinary line -/

/-- A line cut before its last word, and both machines after it: the reader stands between words at
the cut, ends no word from there on, and stands in the scanner's quotes. -/
structure InStep (cs before region : List Char) : Prop where
  append : cs = before ++ region
  begidx : Text.byteLength before = (boundary cs).begidx
  start : (Place.between.run before).1 = .between
  unbroken : (Place.between.run region).2 = []
  agrees : (boundary cs).Agrees (Place.between.run region).1
  between : (Place.between.run region).1 = .between → region = []

theorem InStep.region_eq_nil_iff (h : InStep cs before region) :
    (boundary cs).begidx = (boundary cs).position ↔ region = [] :=
  begidx_eq_position_iff h.append h.begidx

namespace Boundary.Agrees

variable {b : Boundary} {p : Place}

theorem of_atRest (h : b.Agrees p) (hb : b.AtRest) : p = .between ∨ ∃ read, p = .word read := by
  obtain ⟨hq, he⟩ := hb
  cases p <;> simp_all [Agrees]

/-- Where the scanner takes a character into the region, the reader takes it into the word: it ends
no word and, unless it is a number sign between words, begins no comment. -/
theorem step_within (h : b.Agrees p) (hc : ¬(b.AtRest ∧ Text.isBlank c = true))
    (hsharp : p = .between → c ≠ '#') :
    (p.step c).2 = none ∧ (p.step c).1 ≠ .between ∧ (p.step c).1 ≠ .comment := by
  by_cases hrest : b.AtRest
  · have hsep : isSeparator c = false := isSeparator_eq_false (by simpa [hrest] using hc)
    rcases h.of_atRest hrest with rfl | ⟨read, rfl⟩
    · simpa [Place.step, hsep, hsharp rfl] using enter_within [] c
    · simpa [Place.step, hsep] using enter_within read c
  · -- In quotes or after a backslash the reader takes every character into the word.
    cases p with
    | between | word read => exact absurd h hrest
    | comment => exact absurd h id
    | escaped read | single read | double read | doubleEscaped read =>
        simp only [Place.step]
        grind

end Boundary.Agrees

/-- White space outside quotes begins a new region after it. -/
theorem InStep.step_blank (h : InStep cs before region) (hrest : (boundary cs).AtRest)
    (hc : isSeparator c = true) : InStep (cs ++ [c]) (cs ++ [c]) [] := by
  obtain ⟨hrest', hidx⟩ := Boundary.step_of_blank hrest (isBlank_of_isSeparator hc)
  have hplace : ((Place.between.run region).1.step c).1 = .between := by
    rcases h.agrees.of_atRest hrest with hp | ⟨read, hp⟩
    · simp [hp, Place.step, hc]
    · simp [hp, Place.step, hc]
  refine ⟨by simp, ?_, ?_, rfl, ?_, fun _ => rfl⟩
  · rw [boundary_append_singleton, hidx, ← boundary_append_singleton, boundary_position]
  · rw [Place.run_append, h.append, Place.run_append, h.start]
    exact hplace
  · rw [boundary_append_singleton]
    exact hrest'

/-- Any other character goes into the region: it ends no word, and begins no comment. -/
theorem InStep.step_within (h : InStep cs before region) (hord : Ordinary (cs ++ [c]))
    (hc : ¬((boundary cs).AtRest ∧ Text.isBlank c = true)) :
    InStep (cs ++ [c]) before (region ++ [c]) := by
  have hsharp : (Place.between.run region).1 = .between → c ≠ '#' := by
    intro hb
    -- Between words the scanner stands where a word begins.
    have hrest : (boundary cs).AtRest := by simpa [hb, Boundary.Agrees] using h.agrees
    exact (hord.last hrest).2 (h.region_eq_nil_iff.mpr (h.between hb))
  have hin := h.agrees.step_within hc hsharp
  have hrun : Place.between.run (region ++ [c]) =
      (((Place.between.run region).1.step c).1, []) := by
    rw [Place.run_append, h.unbroken, Place.run_cons, hin.1]
    rfl
  refine ⟨by rw [h.append, List.append_assoc], ?_, h.start, by rw [hrun], ?_, ?_⟩
  · rw [boundary_append_singleton, Boundary.step_begidx hc, h.begidx]
  · rw [boundary_append_singleton, hrun]
    exact h.agrees.step hin.2.2
  · rw [hrun]
    exact fun hb => absurd hb hin.2.1

/-- **On an ordinary line the machines stay in step.** -/
theorem Ordinary.inStep (h : Ordinary cs) : ∃ before region, InStep cs before region := by
  induction cs using List.reverseRecOn with
  | nil => exact ⟨[], [], rfl, rfl, rfl, rfl, ⟨rfl, rfl⟩, fun _ => rfl⟩
  | append_singleton cs c ih =>
      obtain ⟨before, region, hstep⟩ := ih h.of_append
      by_cases hc : (boundary cs).AtRest ∧ Text.isBlank c = true
      · exact ⟨_, _, hstep.step_blank hc.1 ((h.last hc.1).1 hc.2)⟩
      · exact ⟨_, _, hstep.step_within h hc⟩

/-! ## The end of the line -/

/-- The text before the cut is read for itself. -/
theorem InStep.split_before (h : InStep cs before region) :
    split before = some (Place.between.run before).2 := by
  have hsplit := splitFrom_append .between before []
  rw [List.append_nil, h.start] at hsplit
  simpa [split, splitFrom, Place.finish] using hsplit

/-- A region that does not end after a backslash is one word, once its open quote is closed. -/
theorem InStep.split_region (h : InStep cs before region) (hne : region ≠ [])
    (hescaped : (boundary cs).escaped = false) :
    ∃ word, split (region ++ (boundary cs).quote.toList) = some [word] := by
  have hagrees := h.agrees
  have hplace := fun hb => hne (h.between hb)
  rw [split, splitFrom_append, h.unbroken]
  generalize (Place.between.run region).1 = p at hagrees hplace ⊢
  cases p with
  | between => exact absurd rfl hplace
  | comment => exact absurd hagrees id
  | word read => exact ⟨read.reverse, by simp [hagrees.1, splitFrom, Place.finish]⟩
  | single read | double read =>
      exact ⟨read.reverse, by simp [hagrees.1, splitFrom, Place.step, Place.finish]⟩
  | escaped read | doubleEscaped read =>
      rw [hagrees.2] at hescaped
      contradiction

/-- The words of the closed line are those before the cut and those of the closed region. -/
theorem InStep.split_closed (h : InStep cs before region) :
    split (closed cs) = (split (region ++ (boundary cs).quote.toList)).map
      ((Place.between.run before).2 ++ ·) := by
  obtain rfl := h.append
  rw [closed, List.append_assoc, split, splitFrom_append, h.start, split]

/-- **The two lexers agree.** An ordinary line that does not end after a backslash is cut at `begidx`.
Its words are those that the text before the cut is split into, and one more: the empty word if the
cut is at the end, and otherwise the only word that the rest is split into, once the quote that is
open at the end of the line is closed. -/
theorem splitForCompletion_eq_split (head : String) (hord : Ordinary head.toList)
    (hescaped : (boundary head.toList).escaped = false) :
    ∃ before region words word,
      head.toList = before ++ region ∧
      Text.byteLength before = (splitForCompletion head).begidx ∧
      split before = some words ∧
      (splitForCompletion head).words = (words ++ [word]).map String.ofList ∧
      ((splitForCompletion head).begidx = Text.byteLength head.toList → word = []) ∧
      ((splitForCompletion head).begidx ≠ Text.byteLength head.toList →
        split (region ++ (boundary head.toList).quote.toList) = some [word]) := by
  obtain ⟨before, region, h⟩ := hord.inStep
  have hend : (splitForCompletion head).begidx = Text.byteLength head.toList ↔ region = [] := by
    rw [← h.region_eq_nil_iff, boundary_position]
    rfl
  have hwords := splitForCompletion_words head
  rw [h.split_closed] at hwords
  by_cases hregion : region = []
  · subst hregion
    -- At the cut the scanner is at rest, so there is no quote to close.
    have hquote : (boundary head.toList).quote = none := h.agrees.1
    refine ⟨before, [], _, [], h.append, h.begidx, h.split_before, ?_, fun _ => rfl, ?_⟩
    · rw [hwords, if_pos (h.region_eq_nil_iff.mpr rfl), hquote]
      simp [split, splitFrom, Place.finish]
    · exact fun hne => absurd (hend.mpr rfl) hne
  · obtain ⟨word, hword⟩ := h.split_region hregion hescaped
    refine ⟨before, region, _, word, h.append, h.begidx, h.split_before, ?_, ?_, fun _ => hword⟩
    · rw [hwords, if_neg fun heq => hregion (h.region_eq_nil_iff.mp heq), hword]
      simp
    · exact fun heq => absurd (hend.mp heq) hregion

/-- Quotes within words, an escaped quote within quotes, an escaped line feed, a number sign within
a word, and a word in an open quote. -/
theorem open_word_after_quoted_words :
    Ordinary "x\ty\"a \\\" b\"\\\n c#d 'two wo".toList ∧
      (boundary "x\ty\"a \\\" b\"\\\n c#d 'two wo".toList).escaped = false ∧
      ∃ before region words word,
        "x\ty\"a \\\" b\"\\\n c#d 'two wo".toList = before ++ region ∧
        Text.byteLength before = 18 ∧
        split before = some words ∧
        ["x", "ya \" b", "c#d", "two wo"] = (words ++ [word]).map String.ofList ∧
        split (region ++ ['\'']) = some [word] := by
  have hord : Ordinary "x\ty\"a \\\" b\"\\\n c#d 'two wo".toList := by decide +kernel
  have hescaped : (boundary "x\ty\"a \\\" b\"\\\n c#d 'two wo".toList).escaped = false := by
    decide +kernel
  refine ⟨hord, hescaped, ?_⟩
  obtain ⟨before, region, words, word, happend, hidx, hbefore, hwords, -, hword⟩ :=
    splitForCompletion_eq_split _ hord hescaped
  have hsplit : splitForCompletion "x\ty\"a \\\" b\"\\\n c#d 'two wo" =
      ⟨["x", "ya \" b", "c#d", "two wo"], 18⟩ := by decide +kernel
  rw [hsplit] at hidx hwords hword
  exact ⟨before, region, words, word, happend, hidx, hbefore, hwords, hword (by decide +kernel)⟩

end TabCompletion.Line
