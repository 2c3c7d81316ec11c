import TabCompletion.Line.Words
import TabCompletion.Text.Blank

/-!
# Where a reader stands after a part of the line

`Place.run` reads a part of a line: it gives the place after it and the words ended on the way, so
that splitting goes on from there:

    splitFrom p (cs ++ ds) = (splitFrom (p.run cs).1 ds).map ((p.run cs).2 ++ ·).

Beside it stand the texts that a reader takes as they are (`run_word_of_plain`), what a comment does
to the rest of a line, and the lines that hold no word at all (`split_eq_nil_iff`).
-/

namespace TabCompletion.Line

/-- The characters that a reader does not take as they are outside quotes and between words:
quotes and the backslash. -/
def isMark (c : Char) : Bool := c == '\'' || c == '"' || c == '\\'

/-- The place reached by reading a part of a line, and the words ended on the way. -/
def Place.run (p : Place) : List Char → Place × List (List Char)
  | [] => (p, [])
  | c :: cs =>
    let (q, ended) := p.step c
    let (r, words) := q.run cs
    (r, ended.toList ++ words)

namespace Place

variable {p q : Place} {c : Char} {cs ds read : List Char}

@[simp] theorem run_nil (p : Place) : p.run [] = (p, []) := rfl

theorem run_cons (p : Place) (c : Char) (cs : List Char) :
    p.run (c :: cs) =
      (((p.step c).1.run cs).1, (p.step c).2.toList ++ ((p.step c).1.run cs).2) := rfl

theorem run_append (p : Place) (cs ds : List Char) :
    p.run (cs ++ ds) =
      (((p.run cs).1.run ds).1, (p.run cs).2 ++ ((p.run cs).1.run ds).2) := by
  induction cs generalizing p with
  | nil => simp
  | cons c cs ih =>
      rw [List.cons_append, run_cons, run_cons, ih]
      simp

end Place

/-- A step either ends a word, which comes before the words of the rest, or does not. -/
theorem splitFrom_cons (p : Place) (c : Char) (cs : List Char) :
    splitFrom p (c :: cs) =
      (splitFrom (p.step c).1 cs).map ((p.step c).2.toList ++ ·) := by
  rw [splitFrom]
  split
  · next q w h => rw [h]; rfl
  · next q h => rw [h]; simp

/-- **Splitting goes on from the place that a part of the line leads to.** -/
theorem splitFrom_append (p : Place) (cs ds : List Char) :
    splitFrom p (cs ++ ds) =
      (splitFrom (p.run cs).1 ds).map ((p.run cs).2 ++ ·) := by
  induction cs generalizing p with
  | nil => simp
  | cons c cs ih =>
      rw [List.cons_append, splitFrom_cons, ih, Place.run_cons, Option.map_map]
      congr 1
      funext words
      simp

/-- A text that ends no word is split as the end of the line splits the place after it. -/
theorem splitFrom_of_run {p q : Place} {cs : List Char} (h : p.run cs = (q, [])) :
    splitFrom p cs = q.finish := by
  have hsplit := splitFrom_append p cs []
  rw [List.append_nil, h] at hsplit
  simpa [splitFrom] using hsplit

/-! ## Characters that are taken as they are -/

theorem isBlank_of_isSeparator {c : Char} (h : isSeparator c = true) : Text.isBlank c = true := by
  simp only [isSeparator, Bool.or_eq_true, beq_iff_eq] at h
  rcases h with (rfl | rfl) | rfl <;> decide

theorem isSeparator_eq_false {c : Char} (h : Text.isBlank c = false) : isSeparator c = false := by
  cases hs : isSeparator c with
  | false => rfl
  | true => rw [isBlank_of_isSeparator hs] at h; exact h

theorem isMark_eq_false {c : Char} : isMark c = false ↔ c ≠ '\'' ∧ c ≠ '"' ∧ c ≠ '\\' := by
  simp [isMark, and_assoc]

/-- White space is never a quote or a backslash. -/
theorem isMark_of_isBlank {c : Char} (h : Text.isBlank c = true) : isMark c = false := by
  refine isMark_eq_false.mpr ⟨?_, ?_, ?_⟩ <;> rintro rfl <;> revert h <;> decide

theorem enter_of_not_isMark {c : Char} (h : isMark c = false) (read : List Char) :
    enter read c = .word (c :: read) := by
  obtain ⟨h₁, h₂, h₃⟩ := isMark_eq_false.mp h
  simp [enter, h₁, h₂, h₃]

/-- A character that enters a word leaves the reader within it. -/
theorem enter_within (read : List Char) (c : Char) :
    enter read c ≠ .between ∧ enter read c ≠ .comment := by
  unfold enter
  split
  · simp
  · split
    · simp
    · split <;> simp

namespace Place

/-- Within a word, a plain text is taken as it is. -/
theorem run_word_of_plain {cs : List Char} (hb : ∀ c ∈ cs, isSeparator c = false)
    (hm : ∀ c ∈ cs, isMark c = false) (read : List Char) :
    (word read).run cs = (word (cs.reverse ++ read), []) := by
  induction cs generalizing read with
  | nil => rfl
  | cons c cs ih =>
      have hstep : (word read).step c = (word (c :: read), none) := by
        simp [step, hb c (by simp), enter_of_not_isMark (hm c (by simp))]
      rw [run_cons, hstep, ih (fun d hd => hb d (by simp [hd])) (fun d hd => hm d (by simp [hd]))]
      simp

/-- A word that does not begin like a comment is entered as if it had been entered before. -/
theorem step_between {c : Char} (hs : isSeparator c = false) (hc : c ≠ '#') :
    between.step c = (word []).step c := by
  simp [step, hs, hc]

/-- Within single quotes everything but the closing quote is taken as it is. -/
theorem run_single {cs : List Char} (h : ∀ c ∈ cs, c ≠ '\'') (read : List Char) :
    (single read).run cs = (single (cs.reverse ++ read), []) := by
  induction cs generalizing read with
  | nil => rfl
  | cons c cs ih =>
      have hstep : (single read).step c = (single (c :: read), none) := by
        simp [step, h c (by simp)]
      rw [run_cons, hstep, ih (fun d hd => h d (by simp [hd]))]
      simp

/-- Within double quotes a text without marks is taken as it is. -/
theorem run_double {cs : List Char} (h : ∀ c ∈ cs, isMark c = false) (read : List Char) :
    (double read).run cs = (double (cs.reverse ++ read), []) := by
  induction cs generalizing read with
  | nil => rfl
  | cons c cs ih =>
      obtain ⟨-, h₂, h₃⟩ := isMark_eq_false.mp (h c (by simp))
      have hstep : (double read).step c = (double (c :: read), none) := by
        simp [step, h₂, h₃]
      rw [run_cons, hstep, ih (fun d hd => h d (by simp [hd]))]
      simp

/-- A comment takes everything up to the end of its line. -/
theorem run_comment {cs : List Char} (h : ∀ c ∈ cs, c ≠ '\n') :
    comment.run cs = (comment, []) := by
  induction cs with
  | nil => rfl
  | cons c cs ih =>
      have hstep : comment.step c = (comment, none) := by simp [step, h c (by simp)]
      rw [run_cons, hstep, ih (fun d hd => h d (by simp [hd]))]
      rfl

end Place

/-! ## Lines without words -/

/-- A line that holds nothing but separators, and a comment if any. -/
def isIdle (line : List Char) : Bool := (line.dropWhile isSeparator).head?.all (· == '#')

@[simp] theorem isIdle_nil : isIdle [] = true := rfl

theorem isIdle_cons (c : Char) (cs : List Char) :
    isIdle (c :: cs) = if isSeparator c then isIdle cs else c == '#' := by
  unfold isIdle
  rw [List.dropWhile_cons]
  split <;> rfl

/-- Within a word, a line yields a word or cannot be read. -/
theorem splitFrom_ne_nil (p : Place) (hb : p ≠ .between) (hc : p ≠ .comment) (cs : List Char) :
    splitFrom p cs ≠ some [] := by
  induction cs generalizing p with
  | nil => cases p <;> simp_all [splitFrom, Place.finish]
  | cons c cs ih =>
      rw [splitFrom_cons]
      cases h : (p.step c).2 with
      | some w => simp
      | none =>
          -- A step that ends no word stays within the word.
          have hin : (p.step c).1 ≠ .between ∧ (p.step c).1 ≠ .comment := by
            cases p <;> simp only [Place.step, enter] at h ⊢ <;> grind
          simpa using ih _ hin.1 hin.2

/-- Reading `cs` yields no word exactly if all its lines are idle; in a comment, the first line does
not matter. -/
theorem splitFrom_eq_nil_iff (cs : List Char) :
    (splitFrom .between cs = some [] ↔ ∀ l ∈ cs.splitOn '\n', isIdle l = true) ∧
    (splitFrom .comment cs = some [] ↔ ∀ l ∈ (cs.splitOn '\n').tail, isIdle l = true) := by
  induction cs with
  | nil => simp [splitFrom, Place.finish]
  | cons c cs ih =>
      rw [splitFrom_cons, splitFrom_cons, List.splitOn_cons_eq_if_modifyHead]
      obtain ⟨l, ls, hl⟩ := List.exists_cons_of_ne_nil (List.splitOn_ne_nil '\n' cs)
      rw [hl] at ih ⊢
      by_cases hn : c = '\n'
      · subst hn
        simpa [Place.step, isSeparator] using ih.1
      · refine ⟨?_, by simpa [Place.step, hn] using ih.2⟩
        by_cases hs : isSeparator c = true
        · simpa [Place.step, hs, hn, isIdle_cons] using ih.1
        · by_cases hc : c = '#'
          · subst hc
            simpa [Place.step, hs, hn, isIdle_cons] using ih.2
          · have hin := enter_within [] c
            have hne : splitFrom (enter [] c) cs ≠ some [] := splitFrom_ne_nil _ hin.1 hin.2 cs
            simpa [Place.step, hs, hc, hn, isIdle_cons] using hne

/-- **A text has no words exactly if each of its lines is idle.** -/
theorem split_eq_nil_iff (cs : List Char) :
    split cs = some [] ↔ ∀ l ∈ cs.splitOn '\n', isIdle l = true :=
  (splitFrom_eq_nil_iff cs).1

end TabCompletion.Line
