import TabCompletion.Proofs.Line.RoundTrip

/-!
# Different candidates are written differently

Quoting adds nothing to a text but marks, and leaves nothing out (`mem_quote`). So a candidate that was
quoted is not written as one that was not, and two that were quoted are read back as themselves
(`quoteCandidate_injective`).
-/

namespace TabCompletion.Line

variable {c d : Char} {cs chunk : List Char} {s : Styles}

/-! ## The characters of a quoted text -/

theorem mem_escapeDouble (hc : isMark c = false) : c ∈ escapeDouble d ↔ c = d := by
  obtain ⟨-, -, hescape⟩ := isMark_eq_false.mp hc
  unfold escapeDouble
  split <;> simp [hescape]

theorem mem_writeChunk (hc : isMark c = false) : c ∈ writeChunk s chunk ↔ c ∈ chunk := by
  obtain ⟨hsingle, hdouble, -⟩ := isMark_eq_false.mp hc
  unfold writeChunk
  split
  · exact Iff.rfl
  split
  · simp [hsingle]
  · simp [hdouble, mem_escapeDouble hc]

theorem mem_quoteFrom (hc : isMark c = false) :
    c ∈ quoteFrom chunk s cs ↔ c ∈ chunk ∨ c ∈ cs := by
  induction cs generalizing chunk s with
  | nil => simp [quoteFrom, mem_writeChunk hc]
  | cons d cs ih =>
      rw [quoteFrom]
      split
      · simp [mem_writeChunk hc, ih]
      · rw [ih, List.mem_cons, List.mem_cons, or_assoc, or_left_comm]

/-- **A quoted text has the characters of the text**, apart from marks. -/
theorem mem_quote (hc : isMark c = false) : c ∈ quote cs ↔ c ∈ cs := by
  cases cs with
  | nil =>
      obtain ⟨hsingle, -, -⟩ := isMark_eq_false.mp hc
      simp [quote, hsingle]
  | cons d cs => rw [quote, mem_quoteFrom hc, List.mem_singleton, List.mem_cons]

/-! ## Candidates -/

def isQuoted (v : String) : Bool := v.toList.any Text.isBlank && !v.toList.contains '\x00'

theorem quoteCandidate_eq (v : String) :
    quoteCandidate v = if isQuoted v then String.ofList (quote v.toList) else v := rfl

/-- A candidate that has been quoted has white space and no null character still. -/
theorem isQuoted_quoteCandidate (v : String) : isQuoted (quoteCandidate v) = isQuoted v := by
  rw [quoteCandidate_eq]
  split
  · have hnull : '\x00' ∈ quote v.toList ↔ '\x00' ∈ v.toList := mem_quote (by decide)
    have hblank : (∃ c ∈ quote v.toList, Text.isBlank c = true) ↔
        ∃ c ∈ v.toList, Text.isBlank c = true := by
      refine exists_congr fun c => and_congr_left fun hc => ?_
      exact mem_quote (isMark_of_isBlank hc)
    rw [Bool.eq_iff_iff]
    simp [isQuoted, hnull, hblank]
  · rfl

/-- **Different candidates are written differently.** -/
theorem quoteCandidate_injective {v w : String} (h : quoteCandidate v = quoteCandidate w) : v = w := by
  have hquoted : isQuoted v = isQuoted w := by
    rw [← isQuoted_quoteCandidate v, h, isQuoted_quoteCandidate]
  rw [quoteCandidate_eq, quoteCandidate_eq, hquoted] at h
  split at h
  · next hw =>
      have hne (u : String) (hu : isQuoted u = true) : u.toList ≠ [] := by
        intro hnil
        simp [isQuoted, hnil] at hu
      have hv := (run_quote (hne v (hquoted.trans hw))).2
      rw [String.ofList_injective h, (run_quote (hne w hw)).2] at hv
      exact String.toList_injective (by simpa using hv.symm)
  · exact h

end TabCompletion.Line
