import Mathlib.Data.List.TakeWhile
import TabCompletion.Proofs.Line.RoundTrip

/-!
# The white space around a line

Trimming leaves out all white space at the ends of a line. A reader may take some of it into a word:
white space other than spaces, tabs and line feeds, and white space after a backslash. Where it takes
none (`OuterBlankPassed`), trimming changes no word of the line (`OuterBlankPassed.split_trim`).

Completion reads the line untrimmed and with its open quote closed. It finds the words of the line
where there is no quote to close, and where the line ends in a comment
(`splitForCompletion_words_of_split`).
-/

namespace TabCompletion

/-! ## What trimming leaves -/

namespace Text

def leading (s : String) : List Char := s.toList.takeWhile isBlank

/-- The white space that a text ends with, unless it is nothing else. -/
def trailing (s : String) : List Char := ((s.toList.dropWhile isBlank).reverse.takeWhile isBlank).reverse

theorem leading_append_trim (s : String) :
    s.toList = leading s ++ (trim s).toList ++ trailing s := by
  have hrest : (trim s).toList ++ trailing s = s.toList.dropWhile isBlank := by
    rw [trim, String.toList_ofList, dropEndWhile, trailing, ← List.reverse_append,
      List.takeWhile_append_dropWhile, List.reverse_reverse]
  rw [List.append_assoc, hrest, leading, List.takeWhile_append_dropWhile]

theorem isBlank_of_mem_leading {s : String} {c : Char} (h : c ∈ leading s) : isBlank c = true :=
  List.mem_takeWhile_imp h

end Text

namespace Line

variable {cs : List Char} {words : List (List Char)} {p : Place}

/-! ## Characters that are taken into no word -/

namespace Place

/-- Whether the reader stands in no word. -/
def isIdle : Place → Bool
  | between => true
  | comment => true
  | _ => false

/-- Whether a text is taken into no word: after each of its characters the reader stands in none. -/
def passesOver (p : Place) : List Char → Bool
  | [] => true
  | c :: cs => (p.step c).1.isIdle && (p.step c).1.passesOver cs

/-- A character that is taken into no word ends the word before it, as the end of the line does. -/
theorem finish_of_isIdle_step {c : Char} (h : (p.step c).1.isIdle = true) :
    p.finish = some (p.step c).2.toList := by
  cases p with
  | between =>
      simp only [step] at h ⊢
      split
      · rfl
      · split <;> rfl
  | comment => rfl
  | word read =>
      simp only [step] at h ⊢
      split
      · rfl
      · next hsep =>
          rw [if_neg hsep] at h
          have hin := enter_within read c
          cases henter : enter read c <;> simp_all [isIdle]
  | escaped read => contradiction
  | single read | double read =>
      simp only [step] at h
      grind [isIdle]
  | doubleEscaped read => contradiction

theorem finish_of_isIdle (h : p.isIdle = true) : p.finish = some [] := by
  cases p with
  | between | comment => rfl
  | word read | escaped read | single read | double read | doubleEscaped read => contradiction

end Place

/-- **What is taken into no word may be left out at the end of a line.** -/
theorem splitFrom_of_passesOver (h : p.passesOver cs = true) : splitFrom p cs = p.finish := by
  induction cs generalizing p with
  | nil => rfl
  | cons c cs ih =>
      obtain ⟨hidle, hrest⟩ := Bool.and_eq_true_iff.mp h
      rw [splitFrom_cons, ih hrest, Place.finish_of_isIdle hidle, Place.finish_of_isIdle_step hidle]
      simp

/-- Between words, white space that is taken into no word leaves the reader there. -/
theorem run_between_of_passesOver (hblank : ∀ c ∈ cs, Text.isBlank c = true)
    (h : Place.between.passesOver cs = true) : Place.between.run cs = (.between, []) := by
  induction cs with
  | nil => rfl
  | cons c cs ih =>
      obtain ⟨hidle, hrest⟩ := Bool.and_eq_true_iff.mp h
      obtain ⟨hc, hcs⟩ := List.forall_mem_cons.mp hblank
      have hstep : Place.between.step c = (.between, none) := by
        have hsharp : c ≠ '#' := by
          rintro rfl
          exact absurd hc (by decide)
        cases hs : isSeparator c with
        | true => simp [Place.step, hs]
        | false =>
            -- Other white space begins a word.
            simp [Place.step, hs, hsharp, enter_of_not_isMark (isMark_of_isBlank hc), Place.isIdle]
              at hidle
      rw [hstep] at hrest
      rw [Place.run_cons, hstep, ih hcs hrest]
      rfl

/-! ## Trimming -/

/-- The white space around a line is taken into no word. -/
structure OuterBlankPassed (line : String) : Prop where
  leading : Place.between.passesOver (Text.leading line) = true
  trailing : (Place.between.run (Text.leading line ++ (Text.trim line).toList)).1.passesOver
    (Text.trailing line) = true

/-- **Trimming a line changes no word** where the white space around it is taken into none. -/
theorem OuterBlankPassed.split_trim {line : String} (h : OuterBlankPassed line) :
    split (Text.trim line).toList = split line.toList := by
  have hrun := run_between_of_passesOver (fun c => Text.isBlank_of_mem_leading) h.leading
  have htrailing := h.trailing
  rw [Place.run_append, hrun] at htrailing
  have htext : split (Text.trim line).toList =
      ((Place.between.run (Text.trim line).toList).1.finish).map
        ((Place.between.run (Text.trim line).toList).2 ++ ·) := by
    have hsplit := splitFrom_append .between (Text.trim line).toList []
    rwa [List.append_nil] at hsplit
  calc split (Text.trim line).toList
      = (splitFrom (Place.between.run (Text.trim line).toList).1 (Text.trailing line)).map
          ((Place.between.run (Text.trim line).toList).2 ++ ·) := by
        rw [htext, splitFrom_of_passesOver htrailing]
    _ = splitFrom .between ((Text.trim line).toList ++ Text.trailing line) :=
        (splitFrom_append _ _ _).symm
    _ = split line.toList := by
        rw [split, Text.leading_append_trim line, List.append_assoc, splitFrom_append .between
          (Text.leading line), hrun]
        simp

/-! ## Completion -/

/-- In a comment, a quote that closes the line is one more character of the comment. -/
theorem split_closed_of_comment (h : (Place.between.run cs).1 = .comment) :
    split (closed cs) = split cs := by
  have hquote : splitFrom .comment (boundary cs).quote.toList = some [] := by
    refine splitFrom_of_run (Place.run_comment ?_)
    rintro c hc rfl
    exact absurd (boundary_quote cs _ (Option.mem_toList.mp hc)) (by decide)
  have hsplit := splitFrom_append .between cs []
  rw [List.append_nil, h] at hsplit
  rw [split, split, closed, splitFrom_append, h, hquote, hsplit]
  rfl

/-- **Completion sees the words of a line** where no quote is open at its end, as it takes quotes, and
where the line ends in a comment. The empty word under the cursor may come after them. -/
theorem splitForCompletion_words_of_split {line : String} (hwords : split line.toList = some words)
    (h : (boundary line.toList).quote = none ∨ (Place.between.run line.toList).1 = .comment) :
    (splitForCompletion line).words = words.map String.ofList ++
      if (boundary line.toList).begidx = (boundary line.toList).position then [""] else [] := by
  have hclosed : split (closed line.toList) = some words := by
    rcases h with hquote | hcomment
    · rw [closed, hquote, Option.toList_none, List.append_nil, hwords]
    · rw [split_closed_of_comment hcomment, hwords]
  rw [splitForCompletion_words, hclosed, Option.getD_some]

end Line

end TabCompletion
