import TabCompletion.Text.Blank

/-!
# Words and lengths of a joined text

What `Text.words` and `Text.byteLength` make of a text that is put together from two parts.
-/

namespace TabCompletion.Text

/-! ## Lengths -/

@[simp] theorem byteLength_append (cs ds : List Char) :
    byteLength (cs ++ ds) = byteLength cs + byteLength ds := by
  induction cs with
  | nil => simp [byteLength]
  | cons c cs ih => simp [byteLength, ih, Nat.add_assoc]

theorem byteLength_pos {cs : List Char} (h : cs ≠ []) : 0 < byteLength cs := by
  cases cs with
  | nil => exact absurd rfl h
  | cons c cs =>
      have := c.utf8Size_pos
      simp only [byteLength]
      omega

/-! ## Words -/

theorem words_cons_blank {c : Char} (h : isBlank c = true) (cs : List Char) :
    words (c :: cs) = words cs := by
  rw [words.eq_def]
  simp [h]

theorem words_singleton {c : Char} (h : isBlank c = false) : words [c] = [[c]] := by
  rw [words.eq_def]
  simp [h]

theorem words_cons_cons_blank {c d : Char} (hc : isBlank c = false) (hd : isBlank d = true)
    (cs : List Char) : words (c :: d :: cs) = [c] :: words cs := by
  rw [words.eq_def]
  simp [hc, hd, words_cons_blank hd]

theorem words_cons_cons {c d : Char} {cs w : List Char} {ws : List (List Char)}
    (hc : isBlank c = false) (hd : isBlank d = false) (h : words (d :: cs) = w :: ws) :
    words (c :: d :: cs) = (c :: w) :: ws := by
  rw [words.eq_def]
  simp [hc, hd, h]

/-- A text that begins with no white space has a word. -/
theorem words_cons_ne_nil {c : Char} (h : isBlank c = false) (cs : List Char) :
    words (c :: cs) ≠ [] := by
  induction cs generalizing c with
  | nil => simp [words_singleton h]
  | cons d cs ih =>
      cases hd : isBlank d with
      | true => simp [words_cons_cons_blank h hd]
      | false =>
          obtain ⟨w, ws, hw⟩ := List.exists_cons_of_ne_nil (ih hd)
          simp [words_cons_cons h hd hw]

/-- A text has no words exactly if it is white space. -/
theorem words_eq_nil_iff {cs : List Char} : words cs = [] ↔ ∀ c ∈ cs, isBlank c = true := by
  induction cs with
  | nil => simp [words.eq_def]
  | cons c cs ih =>
      cases hc : isBlank c with
      | true => simp [words_cons_blank hc, ih, hc]
      | false => simp [words_cons_ne_nil hc, hc]

/-- White space ends a word, so that what follows it is split for itself. -/
theorem words_append_blank {c : Char} (h : isBlank c = true) (cs ds : List Char) :
    words (cs ++ c :: ds) = words cs ++ words ds := by
  induction cs with
  | nil => exact words_cons_blank h ds
  | cons a cs ih =>
      cases ha : isBlank a with
      | true => rw [List.cons_append, words_cons_blank ha, words_cons_blank ha, ih]
      | false =>
          cases cs with
          | nil => simp [words_cons_cons_blank ha h, words_singleton ha]
          | cons d cs =>
              rw [List.cons_append] at ih ⊢
              cases hd : isBlank d with
              | true =>
                  rw [words_cons_blank hd, words_cons_blank hd] at ih
                  rw [List.cons_append, words_cons_cons_blank ha hd, words_cons_cons_blank ha hd, ih,
                    List.cons_append]
              | false =>
                  obtain ⟨w, ws, hw⟩ := List.exists_cons_of_ne_nil (words_cons_ne_nil hd cs)
                  rw [hw, List.cons_append] at ih
                  rw [List.cons_append, words_cons_cons ha hd ih, words_cons_cons ha hd hw,
                    List.cons_append]

/-- A text without white space is one word. -/
theorem words_of_not_blank {c : Char} {cs : List Char} (h : ∀ d ∈ c :: cs, isBlank d = false) :
    words (c :: cs) = [c :: cs] := by
  induction cs generalizing c with
  | nil => exact words_singleton (h c (by simp))
  | cons d cs ih =>
      have hd : words (d :: cs) = [d :: cs] := ih fun e he => h e (List.mem_cons_of_mem c he)
      exact words_cons_cons (h c (by simp)) (h d (by simp)) hd

end TabCompletion.Text
