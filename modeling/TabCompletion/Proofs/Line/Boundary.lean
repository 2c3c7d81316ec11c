import Mathlib.Data.List.Induction
import TabCompletion.Line.Fragment
import TabCompletion.Proofs.Line.Reader
import TabCompletion.Proofs.Text.Words

/-!
# The boundary scanner beside the reader

The words of a line and the place of its last word come from two machines: the reader (`Place`) and
the boundary scanner (`Boundary`). Within a word both stand in the same quotes (`Agrees`). A comment
is known to the reader only, and from there on they go apart; what stays true then is that neither
takes a character as escaped that the other one takes as white space (`Compatible`).

Main statement: `boundary_cut`, where the scanner cuts a line.
-/

namespace TabCompletion.Line

namespace Boundary

variable {b : Boundary} {p : Place} {c : Char} {cs ds : List Char}

/-- Whether the scanner stands outside quotes and not after a backslash. -/
def AtRest (b : Boundary) : Prop := b.quote = none ∧ b.escaped = false

@[simp] theorem step_position (b : Boundary) (c : Char) :
    (b.step c).position = b.position + c.utf8Size := by
  unfold step
  grind

/-- Outside quotes, white space begins a new word after it. -/
theorem step_of_blank (h : b.AtRest) (hc : Text.isBlank c = true) :
    (b.step c).AtRest ∧ (b.step c).begidx = (b.step c).position := by
  obtain ⟨h₁, h₂, h₃⟩ := isMark_eq_false.mp (isMark_of_isBlank hc)
  simp [step, AtRest, h.1, h.2, h₁, h₂, h₃, hc]

/-- Outside quotes, a plain character changes nothing. -/
theorem step_of_plain (h : b.AtRest) (hm : isMark c = false) (hc : Text.isBlank c = false) :
    (b.step c).AtRest ∧ (b.step c).begidx = b.begidx := by
  obtain ⟨h₁, h₂, h₃⟩ := isMark_eq_false.mp hm
  simp [step, AtRest, h.1, h.2, h₁, h₂, h₃, hc]

/-- The start of the last word moves only at white space outside quotes. -/
theorem step_begidx (h : ¬(b.AtRest ∧ Text.isBlank c = true)) : (b.step c).begidx = b.begidx := by
  unfold AtRest at h
  unfold step
  grind

/-- A backslash begins an escape outside single quotes. -/
theorem step_backslash (h : b.escaped = false) :
    (b.step '\\').escaped = true ∨ (b.step '\\').quote = some '\'' := by
  unfold step
  grind

/-- An escape takes one character. -/
theorem step_of_escaped (h : b.escaped = true) : (b.step c).escaped = false := by
  simp [step, h]

theorem step_of_ne_backslash (hc : c ≠ '\\') : (b.step c).escaped = false := by
  unfold step
  grind

/-- There are no escapes in single quotes. -/
theorem step_of_single (h : b.quote = some '\'') : (b.step c).escaped = false := by
  simp only [step, h]
  grind

/-! ## Within a word -/

/-- The scanner stands in the quotes that the reader stands in. -/
def Agrees (b : Boundary) : Place → Prop
  | .between => b.AtRest
  | .word _ => b.AtRest
  | .escaped _ => b.quote = none ∧ b.escaped = true
  | .single _ => b.quote = some '\'' ∧ b.escaped = false
  | .double _ => b.quote = some '"' ∧ b.escaped = false
  | .doubleEscaped _ => b.quote = some '"' ∧ b.escaped = true
  | .comment => False

theorem Agrees.step (h : b.Agrees p) (hp : (p.step c).1 ≠ .comment) :
    (b.step c).Agrees (p.step c).1 := by
  cases p with
  | comment => exact absurd h id
  | between =>
      simp only [Agrees, AtRest] at h
      cases hs : isSeparator c with
      | true => simpa [Place.step, hs, Agrees] using (step_of_blank h (isBlank_of_isSeparator hs)).1
      | false =>
          have hc : c ≠ '#' := by
            rintro rfl
            simp [Place.step, hs] at hp
          simp only [Place.step, hs, hc, enter, Boundary.step]
          grind [Agrees, AtRest]
  | word read =>
      simp only [Agrees, AtRest] at h
      cases hs : isSeparator c with
      | true => simpa [Place.step, hs, Agrees] using (step_of_blank h (isBlank_of_isSeparator hs)).1
      | false =>
          simp only [Place.step, hs, enter, Boundary.step]
          grind [Agrees, AtRest]
  | escaped read | single read | double read | doubleEscaped read =>
      simp only [Agrees] at h
      simp only [Place.step, Boundary.step]
      grind [Agrees, AtRest]

/-- Inside a word and as long as it does not end, scanner and reader stay in the same quotes. -/
theorem Agrees.run (h : b.Agrees p) (hb : p ≠ .between) (hrun : (p.run cs).2 = []) :
    (cs.foldl Boundary.step b).Agrees (p.run cs).1 ∧ (p.run cs).1 ≠ .between := by
  induction cs generalizing b p with
  | nil => exact ⟨h, hb⟩
  | cons c cs ih =>
      rw [Place.run_cons] at hrun ⊢
      obtain ⟨hc, hcs⟩ := List.append_eq_nil_iff.mp hrun
      -- No word ends at `c`, so the reader stays within it.
      have hin : (p.step c).1 ≠ .between ∧ (p.step c).1 ≠ .comment := by
        have hcom : p ≠ .comment := by
          rintro rfl
          exact h
        cases p <;> simp only [Place.step, enter] at hc ⊢ <;> grind
      exact ih (h.step hin.2) hin.1 hcs

/-! ## Past a comment -/

/-- What is left of the agreement once a comment was read: where the reader takes the next character
as escaped, the scanner does so too or stands in single quotes, and the scanner does so only where
the reader does or takes characters as they are. -/
def Compatible (b : Boundary) : Place → Prop
  | .between => b.escaped = false
  | .word _ => b.escaped = false
  | .double _ => b.escaped = false
  | .escaped _ => b.escaped = true ∨ b.quote = some '\''
  | .doubleEscaped _ => b.escaped = true ∨ b.quote = some '\''
  | .comment => True
  | .single _ => True

/-- After an escape of the reader the scanner takes the next character as it comes. -/
theorem step_of_escaped_or_single (h : b.escaped = true ∨ b.quote = some '\'') :
    (b.step c).escaped = false :=
  h.elim step_of_escaped step_of_single

theorem Compatible.step (h : b.Compatible p) : (b.step c).Compatible (p.step c).1 := by
  by_cases hc : c = '\\'
  · subst hc
    cases p with
    | between | word read | double read =>
        simpa [Place.step, enter, isSeparator, Compatible] using step_backslash h
    | escaped read | doubleEscaped read =>
        simpa [Place.step, isEscapable, Compatible] using step_of_escaped_or_single h
    | comment | single read => simp [Place.step, Compatible]
  · -- Any other character ends escapes, and no reader begins one at it.
    have hb : (b.step c).escaped = false := step_of_ne_backslash hc
    cases hp : (p.step c).1 with
    | between | word read | double read => exact hb
    | comment | single read => trivial
    | escaped read | doubleEscaped read =>
        cases p <;> simp only [Place.step, enter] at hp <;> grind

theorem Compatible.run (h : b.Compatible p) :
    (cs.foldl Boundary.step b).Compatible (p.run cs).1 := by
  induction cs generalizing b p with
  | nil => exact h
  | cons c cs ih => exact ih h.step

end Boundary

theorem boundary_append_singleton (cs : List Char) (c : Char) :
    boundary (cs ++ [c]) = (boundary cs).step c := by
  simp [boundary]

/-- The scanner's position is the number of bytes it has read. -/
theorem boundary_position (cs : List Char) : (boundary cs).position = Text.byteLength cs := by
  induction cs using List.reverseRecOn with
  | nil => rfl
  | append_singleton cs c ih =>
      rw [boundary_append_singleton, Boundary.step_position, ih]
      simp [Text.byteLength]

/-- Reader and scanner stay compatible from the start of a line. -/
theorem boundary_compatible (cs : List Char) :
    (boundary cs).Compatible (Place.between.run cs).1 :=
  Boundary.Compatible.run (b := {}) rfl

/-- A text with the quote that is open at its end closed. -/
def closed (cs : List Char) : List Char := cs ++ (boundary cs).quote.toList

/-- The words of a line: those of the closed line, or those between white space if it cannot be
read; and an empty one where the last word would begin at the end. -/
theorem splitForCompletion_words (head : String) :
    (splitForCompletion head).words =
      ((split (closed head.toList)).getD (Text.words head.toList)).map String.ofList ++
        if (boundary head.toList).begidx = (boundary head.toList).position then [""] else [] := by
  simp only [splitForCompletion, closed]
  split <;> simp

/-! ## The cut -/

/-- Nothing comes after a cut at `begidx` exactly where the scanner stands at `begidx`. -/
theorem begidx_eq_position_iff {cs before region : List Char} (happend : cs = before ++ region)
    (hidx : Text.byteLength before = (boundary cs).begidx) :
    (boundary cs).begidx = (boundary cs).position ↔ region = [] := by
  rw [boundary_position, ← hidx, happend, Text.byteLength_append]
  constructor
  · intro heq
    by_contra hne
    have := Text.byteLength_pos hne
    omega
  · rintro rfl
    rfl

/-- A cut of a line before its last word: `before` is empty or ends in white space that the scanner
found outside quotes, and a region without quotes and backslashes holds no white space. -/
structure IsCut (cs before region : List Char) : Prop where
  append : cs = before ++ region
  begidx : Text.byteLength before = (boundary cs).begidx
  ends_blank : before = [] ∨ ∃ ds c, before = ds ++ [c] ∧ Text.isBlank c = true ∧
    (boundary ds).AtRest
  region_plain : (∀ c ∈ region, isMark c = false) →
    (boundary cs).AtRest ∧ ∀ c ∈ region, Text.isBlank c = false

/-- **The scanner cuts every line before its last word.** -/
theorem boundary_cut (cs : List Char) : ∃ before region, IsCut cs before region := by
  induction cs using List.reverseRecOn with
  | nil => exact ⟨[], [], rfl, rfl, Or.inl rfl, fun _ => ⟨⟨rfl, rfl⟩, by simp⟩⟩
  | append_singleton cs c ih =>
      obtain ⟨before, region, h⟩ := ih
      have hstep := boundary_append_singleton cs c
      by_cases hc : (boundary cs).AtRest ∧ Text.isBlank c = true
      · -- White space outside quotes: the last word begins after it.
        obtain ⟨hrest, hidx⟩ := Boundary.step_of_blank hc.1 hc.2
        refine ⟨cs ++ [c], [], by simp, ?_, Or.inr ⟨cs, c, rfl, hc.2, hc.1⟩, ?_⟩
        · rw [hstep, hidx, ← hstep, boundary_position]
        · intro _
          exact ⟨hstep ▸ hrest, by simp⟩
      · refine ⟨before, region ++ [c], by rw [h.append, List.append_assoc], ?_, h.ends_blank, ?_⟩
        · rw [hstep, Boundary.step_begidx hc, h.begidx]
        · intro hm
          obtain ⟨hrest, hregion⟩ := h.region_plain fun d hd => hm d (by simp [hd])
          have hb : Text.isBlank c = false := by simpa [hrest] using hc
          refine ⟨hstep ▸ (Boundary.step_of_plain hrest (hm c (by simp)) hb).1, ?_⟩
          intro d hd
          rcases List.mem_append.mp hd with hd | hd
          · exact hregion d hd
          · rw [List.mem_singleton.mp hd]; exact hb

end TabCompletion.Line
