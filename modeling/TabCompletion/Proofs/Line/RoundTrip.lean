import TabCompletion.Line.Quoted
import TabCompletion.Proofs.Line.Boundary

/-!
# Reading an inserted candidate back

`quote` writes a text as one shell word, whatever characters it holds (`run_quote`). A candidate is
quoted only where white space would split it, and stays as it is otherwise. So it is read back
exactly if it holds white space, or nothing that a reader takes for itself: no quotes, no backslash
and no number sign at its start.
-/

namespace TabCompletion.Line

/-! ## Texts that open a word -/

/-- A text that opens a word between words: it begins neither with a separator nor with a comment. -/
def OpensWord (cs : List Char) : Prop :=
  ∃ c ds, cs = c :: ds ∧ isSeparator c = false ∧ c ≠ '#'

/-- A text that opens a word is read between words as within an empty one. -/
theorem OpensWord.run {cs : List Char} (h : OpensWord cs) :
    Place.between.run cs = (Place.word []).run cs := by
  obtain ⟨c, ds, rfl, hs, hc⟩ := h
  rw [Place.run_cons, Place.run_cons, Place.step_between hs hc]

/-- A text that opens a word and is one word by itself, followed by a space: the words are that one
and the empty one. -/
theorem splitForCompletion_word {cs read : List Char} (ho : OpensWord cs)
    (hrun : (Place.word []).run cs = (.word read, [])) :
    (splitForCompletion (String.ofList (cs ++ [' ']))).words =
      [String.ofList read.reverse, ""] := by
  -- The scanner stands outside quotes after the word, so the space begins the empty one.
  have hag : (boundary cs).Agrees ((Place.word []).run cs).1 ∧ _ :=
    Boundary.Agrees.run ⟨rfl, rfl⟩ (by simp) (by rw [hrun])
  rw [hrun] at hag
  have hrest : (boundary cs).AtRest := hag.1
  obtain ⟨⟨hq, -⟩, hidx⟩ := Boundary.step_of_blank (c := ' ') hrest (by decide)
  have hsplit : split (closed (cs ++ [' '])) = some [read.reverse] := by
    rw [closed, boundary_append_singleton, hq, Option.toList_none, List.append_nil, split,
      splitFrom_append, ho.run, hrun]
    rfl
  rw [splitForCompletion_words, String.toList_ofList, hsplit, boundary_append_singleton,
    if_pos hidx]
  rfl

/-! ## Quoting -/

namespace Styles

/-- The styles left are styles that the characters of a chunk can be written in. -/
structure Allows (s : Styles) (chunk : List Char) : Prop where
  bare : s.bare = true → ∀ c ∈ chunk, bareOk c = true
  single : s.single = true → ∀ c ∈ chunk, c ≠ '\''

theorem singleOk_ne {c : Char} (h : singleOk c = true) : c ≠ '\'' := by
  rintro rfl
  exact absurd h (by decide)

theorem allows_opening (c : Char) : (opening c).Allows [c] := by
  unfold opening
  split
  · next h => exact ⟨by simp, by simp [h]⟩
  · exact ⟨by simp [restrict], by simpa [restrict] using singleOk_ne⟩

theorem Allows.restrict {s : Styles} {chunk : List Char} (h : s.Allows chunk) (c : Char) :
    (s.restrict c).Allows (c :: chunk) := by
  constructor
  · intro hb
    simp only [Styles.restrict, Bool.and_eq_true] at hb
    simpa [hb.2] using h.bare hb.1
  · intro hs
    simp only [Styles.restrict, Bool.and_eq_true] at hs
    simpa [singleOk_ne hs.2] using h.single hs.1

theorem Allows.reverse {s : Styles} {chunk : List Char} (h : s.Allows chunk) :
    s.Allows chunk.reverse :=
  ⟨by simpa using h.bare, by simpa using h.single⟩

/-- What may stand outside quotes is taken as it is, also at the start of a word. -/
theorem plain_of_bareOk {c : Char} (h : bareOk c = true) :
    isSeparator c = false ∧ isMark c = false ∧ c ≠ '#' := by
  refine ⟨?_, isMark_eq_false.mpr ⟨?_, ?_, ?_⟩, ?_⟩
  · cases hs : isSeparator c with
    | false => rfl
    | true =>
        simp only [isSeparator, Bool.or_eq_true, beq_iff_eq] at hs
        rcases hs with (rfl | rfl) | rfl <;> exact absurd h (by decide)
  all_goals
    rintro rfl
    exact absurd h (by decide)

end Styles

/-- An escaped character within double quotes is read as the character. -/
theorem run_escapeDouble (read : List Char) (c : Char) :
    (Place.double read).run (escapeDouble c) = (.double (c :: read), []) := by
  unfold escapeDouble
  split
  · next h =>
      simp only [Bool.or_eq_true, beq_iff_eq] at h
      rcases h with ((rfl | rfl) | rfl) | rfl <;> rfl
  · next h =>
      simp only [Bool.or_eq_true, beq_iff_eq, not_or] at h
      simp [Place.run_cons, Place.step, h]

theorem run_flatMap_escapeDouble (read cs : List Char) :
    (Place.double read).run (cs.flatMap escapeDouble) = (.double (cs.reverse ++ read), []) := by
  induction cs generalizing read with
  | nil => rfl
  | cons c cs ih =>
      rw [List.flatMap_cons, Place.run_append, run_escapeDouble, ih]
      simp

/-- A chunk is read back in whichever style it is written. -/
theorem run_writeChunk {s : Styles} {chunk : List Char} (h : s.Allows chunk) (read : List Char) :
    (Place.word read).run (writeChunk s chunk) = (.word (chunk.reverse ++ read), []) := by
  unfold writeChunk
  split
  · next hb =>
      have hok := fun c hc => Styles.plain_of_bareOk (h.bare hb c hc)
      exact Place.run_word_of_plain (fun c hc => (hok c hc).1) (fun c hc => (hok c hc).2.1) read
  · split
    · next hs =>
        have hopen : (Place.word read).step '\'' = (.single read, none) := rfl
        rw [List.cons_append, Place.run_cons, hopen, Place.run_append,
          Place.run_single (h.single hs)]
        rfl
    · have hopen : (Place.word read).step '"' = (.double read, none) := rfl
      rw [List.cons_append, Place.run_cons, hopen, Place.run_append, run_flatMap_escapeDouble]
      rfl

theorem opensWord_writeChunk {s : Styles} {chunk : List Char} (h : s.Allows chunk)
    (hne : chunk ≠ []) (ds : List Char) : OpensWord (writeChunk s chunk ++ ds) := by
  unfold writeChunk
  split
  · next hb =>
      obtain ⟨c, cs, rfl⟩ := List.exists_cons_of_ne_nil hne
      have hok := Styles.plain_of_bareOk (h.bare hb c (by simp))
      exact ⟨c, cs ++ ds, rfl, hok.1, hok.2.2⟩
  · split
    · exact ⟨'\'', _, rfl, by decide, by decide⟩
    · exact ⟨'"', _, rfl, by decide, by decide⟩

theorem run_quoteFrom {s : Styles} {chunk : List Char} (h : s.Allows chunk)
    (cs read : List Char) :
    (Place.word read).run (quoteFrom chunk s cs) = (.word (cs.reverse ++ chunk ++ read), []) := by
  induction cs generalizing chunk s read with
  | nil => simpa [quoteFrom] using run_writeChunk h.reverse read
  | cons c cs ih =>
      rw [quoteFrom]
      split
      · rw [Place.run_append, run_writeChunk h.reverse, ih (Styles.allows_opening c)]
        simp
      · rw [ih (h.restrict c)]
        simp

theorem opensWord_quoteFrom {s : Styles} {chunk : List Char} (h : s.Allows chunk)
    (hne : chunk ≠ []) (cs : List Char) : OpensWord (quoteFrom chunk s cs) := by
  induction cs generalizing chunk s with
  | nil => simpa [quoteFrom] using opensWord_writeChunk h.reverse (by simpa using hne) []
  | cons c cs ih =>
      rw [quoteFrom]
      split
      · exact opensWord_writeChunk h.reverse (by simpa using hne) _
      · exact ih (h.restrict c) (by simp)

/-- **A quoted text is read as one word, the text itself.** -/
theorem run_quote {cs : List Char} (hne : cs ≠ []) :
    OpensWord (quote cs) ∧ (Place.word []).run (quote cs) = (.word cs.reverse, []) := by
  obtain ⟨c, cs, rfl⟩ := List.exists_cons_of_ne_nil hne
  refine ⟨opensWord_quoteFrom (Styles.allows_opening c) (by simp) cs, ?_⟩
  simpa [quote] using run_quoteFrom (Styles.allows_opening c) cs []

/-! ## Candidates that stay as they are

A candidate without white space is written bare. With a quote or a backslash in it, it is read as
something shorter, or the reader is still within the word when the space comes. -/

namespace Place

variable {p : Place} {c : Char} {cs : List Char}

/-- How many characters the word being read has at least. -/
def weight : Place → Nat
  | between => 0
  | comment => 0
  | word read => read.length
  | escaped read => read.length
  | single read => read.length
  | double read => read.length
  | doubleEscaped read => read.length + 1

theorem weight_step (p : Place) (c : Char) : (p.step c).1.weight ≤ p.weight + 1 := by
  cases p <;> simp only [step, enter] <;> grind [weight]

/-- A quote or a backslash adds nothing to a word. -/
theorem weight_step_mark (h : isMark c = true) (read : List Char) :
    ((word read).step c).1.weight ≤ read.length := by
  simp only [isMark, Bool.or_eq_true, beq_iff_eq] at h
  rcases h with (rfl | rfl) | rfl <;> exact Nat.le_refl _

theorem weight_run (p : Place) (cs : List Char) : (p.run cs).1.weight ≤ p.weight + cs.length := by
  induction cs generalizing p with
  | nil => exact Nat.le_refl _
  | cons c cs ih =>
      have h₁ := weight_step p c
      have h₂ := ih (p.step c).1
      rw [run_cons, List.length_cons]
      simp only
      omega

/-- A text with a quote or a backslash in it is read as a shorter word. -/
theorem weight_run_lt (hs : ∀ c ∈ cs, isSeparator c = false) (hm : ∃ c ∈ cs, isMark c = true)
    (read : List Char) : ((word read).run cs).1.weight < read.length + cs.length := by
  induction cs generalizing read with
  | nil => simp at hm
  | cons c cs ih =>
      rw [run_cons, List.length_cons]
      cases hc : isMark c with
      | true =>
          have h₁ := weight_step_mark hc read
          have h₂ := weight_run ((word read).step c).1 cs
          simp only
          omega
      | false =>
          have hstep : (word read).step c = (word (c :: read), none) := by
            simp [step, hs c (by simp), enter_of_not_isMark hc]
          have hm' : ∃ d ∈ cs, isMark d = true := by
            obtain ⟨d, hd, hdm⟩ := hm
            rcases List.mem_cons.mp hd with rfl | hd
            · rw [hc] at hdm; exact absurd hdm (by simp)
            · exact ⟨d, hd, hdm⟩
          have h := ih (fun d hd => hs d (by simp [hd])) hm' (c :: read)
          rw [hstep]
          simp only [List.length_cons] at h ⊢
          omega

/-- Only separators end words. -/
theorem run_of_no_separator (hb : p ≠ between) (hs : ∀ c ∈ cs, isSeparator c = false) :
    (p.run cs).2 = [] := by
  induction cs generalizing p with
  | nil => rfl
  | cons c cs ih =>
      have hc := hs c (by simp)
      have hn : c ≠ '\n' := by
        rintro rfl
        exact absurd hc (by decide)
      have hstep : (p.step c).1 ≠ between ∧ (p.step c).2 = none := by
        cases p <;> simp only [step, enter] <;> grind
      rw [run_cons, hstep.2, ih hstep.1 fun d hd => hs d (by simp [hd])]
      rfl

end Place

/-- The quote that the scanner stands in is a single or a double one. -/
theorem boundary_quote (cs : List Char) : ∀ q ∈ (boundary cs).quote, q = '\'' ∨ q = '"' := by
  induction cs using List.reverseRecOn with
  | nil => simp [boundary]
  | append_singleton cs c ih =>
      rw [boundary_append_singleton]
      unfold Boundary.step
      grind

/-- A bare candidate that begins with a number sign is read as a comment. -/
theorem split_comment {cs : List Char} (hs : ∀ c ∈ cs, isSeparator c = false) :
    split (closed ('#' :: cs ++ [' '])) = some [] := by
  have hline : ∀ c ∈ cs ++ [' '] ++ (boundary ('#' :: cs ++ [' '])).quote.toList, c ≠ '\n' := by
    rintro c hc rfl
    simp only [List.mem_append, List.mem_singleton, Option.mem_toList] at hc
    rcases hc with (hc | hc) | hc
    · exact absurd (hs _ hc) (by decide)
    · exact absurd hc (by decide)
    · exact absurd (boundary_quote _ _ hc) (by decide)
  have hstep : Place.between.step '#' = (.comment, none) := rfl
  show split ('#' :: (cs ++ [' '] ++ (boundary ('#' :: cs ++ [' '])).quote.toList)) = some []
  rw [split, splitFrom_cons, hstep, splitFrom_of_run (Place.run_comment hline)]
  rfl

/-- A bare candidate with a quote or a backslash in it is read as a shorter word, or as one with the
space in it. -/
theorem split_marked {c : Char} {cs : List Char} (hs : ∀ d ∈ c :: cs, isSeparator d = false)
    (hc : c ≠ '#') (hm : ∃ d ∈ c :: cs, isMark d = true) :
    ∃ w, split (closed (c :: cs ++ [' '])) = some [w] ∧
      (w.length < (c :: cs).length ∨ ' ' ∈ w) := by
  have ho : OpensWord (c :: cs) := ⟨c, cs, rfl, hs c (by simp), hc⟩
  have hended := Place.run_of_no_separator (p := .word []) (by simp) hs
  have hlt : ((Place.word []).run (c :: cs)).1.weight < (c :: cs).length := by
    simpa using Place.weight_run_lt hs hm []
  have hag : (boundary (c :: cs)).Agrees ((Place.word []).run (c :: cs)).1 ∧ _ :=
    Boundary.Agrees.run ⟨rfl, rfl⟩ (by simp) hended
  rw [closed, List.append_assoc, split, splitFrom_append, ho.run, hended,
    boundary_append_singleton]
  generalize ((Place.word []).run (c :: cs)).1 = p at hlt hag ⊢
  generalize boundary (c :: cs) = b at hag ⊢
  obtain ⟨hag, hb⟩ := hag
  cases p with
  | between => exact absurd rfl hb
  | comment => exact absurd hag id
  | word read =>
      refine ⟨read.reverse, ?_, Or.inl (by simpa [Place.weight] using hlt)⟩
      obtain ⟨hq, he⟩ := hag
      simp [Boundary.step, hq, he, splitFrom, Place.step, Place.finish, isSeparator, Text.isBlank]
  | escaped read | single read | double read | doubleEscaped read =>
      -- The space is taken into the word.
      obtain ⟨hq, he⟩ := hag
      simp [Boundary.step, hq, he, splitFrom, Place.step, Place.finish, isEscapable]

/-! ## The round trip -/

/-- The line that a candidate and a space make. -/
theorem ofList_append_space (cs : List Char) :
    String.ofList cs ++ " " = String.ofList (cs ++ [' ']) := by
  rw [String.ofList_append]

theorem quoteCandidate_of_blank {v : String} (hnull : '\x00' ∉ v.toList)
    (hb : ∃ c ∈ v.toList, Text.isBlank c = true) :
    quoteCandidate v = String.ofList (quote v.toList) := by
  simp [quoteCandidate, List.any_eq_true.mpr hb, hnull]

theorem quoteCandidate_of_not_blank {v : String} (hb : ∀ c ∈ v.toList, Text.isBlank c = false) :
    quoteCandidate v = v := by
  have hany : v.toList.any Text.isBlank = false := by simpa using hb
  simp only [quoteCandidate, hany, Bool.false_and, Bool.false_eq_true, if_false]

/-- A bare candidate is read back exactly if it is plain. -/
theorem splitForCompletion_bare {c : Char} {cs : List Char}
    (hb : ∀ d ∈ c :: cs, Text.isBlank d = false) :
    (splitForCompletion (String.ofList (c :: cs ++ [' ']))).words = [String.ofList (c :: cs), ""] ↔
      (∀ d ∈ c :: cs, isMark d = false) ∧ c ≠ '#' := by
  have hs : ∀ d ∈ c :: cs, isSeparator d = false := fun d hd => isSeparator_eq_false (hb d hd)
  constructor
  · intro h
    rw [splitForCompletion_words, String.toList_ofList] at h
    have hc : c ≠ '#' := by
      rintro rfl
      rw [split_comment fun d hd => hs d (by simp [hd])] at h
      revert h
      split <;> simp
    refine ⟨fun d hd => ?_, hc⟩
    by_contra hm
    obtain ⟨w, hw, hlt⟩ := split_marked hs hc ⟨d, hd, by simpa using hm⟩
    rw [hw] at h
    obtain rfl : w = c :: cs := by
      simp only [Option.getD_some, List.map_cons, List.cons_append, List.cons.injEq,
        String.ofList_inj] at h
      exact h.1
    rcases hlt with hlt | hsp
    · exact absurd hlt (Nat.lt_irrefl _)
    · exact absurd (hb _ hsp) (by decide)
  · rintro ⟨hm, hc⟩
    have hrun := Place.run_word_of_plain hs hm []
    rw [List.append_nil] at hrun
    rw [splitForCompletion_word ⟨c, cs, rfl, hs c (by simp), hc⟩ hrun, List.reverse_reverse]

/-- **A candidate is read back exactly if it is quoted or plain.** After an inserted candidate and a
space, the words are the candidate and the empty word under the cursor, if the candidate holds white
space or else neither a quote nor a backslash nor a number sign at its start; and only then. -/
theorem splitForCompletion_quoteCandidate {v : String} (hne : v ≠ "")
    (hnull : '\x00' ∉ v.toList) :
    (splitForCompletion (quoteCandidate v ++ " ")).words = [v, ""] ↔
      (∃ c ∈ v.toList, Text.isBlank c = true) ∨
        ((∀ c ∈ v.toList, isMark c = false) ∧ v.toList.head? ≠ some '#') := by
  obtain ⟨c, cs, hv⟩ := List.exists_cons_of_ne_nil (fun h => hne (String.toList_eq_nil_iff.mp h))
  obtain rfl : v = String.ofList (c :: cs) := by rw [← hv, String.ofList_toList]
  rw [String.toList_ofList] at hnull ⊢
  by_cases hb : ∃ d ∈ c :: cs, Text.isBlank d = true
  · -- With white space the candidate is quoted.
    obtain ⟨ho, hrun⟩ := run_quote (List.cons_ne_nil c cs)
    rw [quoteCandidate_of_blank (by simpa using hnull) (by simpa using hb), String.toList_ofList,
      ofList_append_space, splitForCompletion_word ho hrun, List.reverse_reverse]
    exact ⟨fun _ => Or.inl hb, fun _ => rfl⟩
  · -- Without, it stays as it is.
    have hb' : ∀ d ∈ c :: cs, Text.isBlank d = false := by
      intro d hd
      exact Bool.eq_false_iff.mpr fun h => hb ⟨d, hd, h⟩
    rw [quoteCandidate_of_not_blank (by simpa using hb'), ofList_append_space,
      splitForCompletion_bare hb']
    have hhead : (c :: cs).head? ≠ some '#' ↔ c ≠ '#' := by simp
    rw [hhead]
    exact ⟨Or.inr, fun h => h.resolve_left hb⟩

/-- A candidate with a space, quotes of both kinds, a backslash and a number sign is read back. -/
theorem quoted_candidate_reads_back :
    "#1 'a' \"b\\" ≠ "" ∧ '\x00' ∉ "#1 'a' \"b\\".toList ∧
      (splitForCompletion (quoteCandidate "#1 'a' \"b\\" ++ " ")).words =
        ["#1 'a' \"b\\", ""] :=
  ⟨by decide, by decide,
    (splitForCompletion_quoteCandidate (by decide) (by decide)).mpr (Or.inl ⟨' ', by decide⟩)⟩

/-- A candidate with an apostrophe and no white space is not read back. -/
theorem bare_apostrophe_not_read_back :
    ¬∀ v : String, v ≠ "" → '\x00' ∉ v.toList →
      (splitForCompletion (quoteCandidate v ++ " ")).words = [v, ""] :=
  fun h => absurd (h "it's" (by decide) (by decide)) (by decide)

end TabCompletion.Line
