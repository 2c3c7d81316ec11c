import TabCompletion.Text.Blank
import TabCompletion.Text.Case
import TabCompletion.Text.Width

/-!
# The columns of a padded text

A character takes back at most the column that what follows it has in `Next.credit`, so no text is
narrower than nothing (`measure_nonneg`). A space takes its column beside anything and is plain to what
stands before it; therefore a text, spaces and a rest take the sum of their columns, where the text has
no control characters (`displayWidth_append_spaces_append`).

Upper case brings no control characters in (`isPrintable_uppercase`).
-/

namespace TabCompletion.Text

/-! ## Measuring -/

namespace Width

/-- The columns that what follows a character may lose to it. -/
def Next.credit : Next → Int
  | .tifinaghJoiner => 1
  | .coengLetter => 1
  | _ => 0

theorem Next.credit_nonneg (n : Next) : 0 ≤ n.credit := by
  unfold Next.credit
  split <;> decide

/-- Whether the columns that a character adds, and those that it may lose in its turn, are covered by
what it may take back. -/
def Next.covers (n : Next) (r : Int × Following) : Bool := r.2.next.credit ≤ n.credit + r.1

/-- A character that pays for itself may stand before anything. -/
theorem Next.covers_of_plain {r : Int × Following} (h : plain.covers r = true) (n : Next) :
    n.covers r = true := by
  simp only [covers, decide_eq_true_eq] at h ⊢
  exact Int.le_trans h (Int.add_le_add_right n.credit_nonneg r.1)

theorem Next.covers_same {n m : Next} (h : m.credit ≤ n.credit) (s : Option Selector) :
    n.covers (0, { next := m, selector := s }) = true := by
  simpa [covers] using h

/-- A selector hands on what follows it, or makes it plain. -/
theorem Next.covers_kept (n : Next) (kept : Prop) [Decidable kept] (s : Option Selector) :
    n.covers (0, { next := if kept then n else .plain, selector := s }) = true := by
  refine covers_same ?_ s
  split
  · exact Int.le_refl _
  · exact n.credit_nonneg

theorem Next.covers_ite {n : Next} {r s : Int × Following} (hr : n.covers r = true)
    (hs : n.covers s = true) (p : Prop) [Decidable p] : n.covers (if p then r else s) = true := by
  split
  · exact hr
  · exact hs

theorem covers_alone (c : Char) : Next.plain.covers (alone c) = true := by
  unfold alone
  repeat' apply Next.covers_ite
  all_goals rfl

theorem covers_merged? {c : Char} {next : Next} {r : Int × Following}
    (h : merged? c next = some r) : next.covers r = true := by
  unfold merged? at h
  extract_lets n at h
  repeat' split at h
  all_goals cases h
  all_goals rfl

theorem joined_credit (n : Next) : n.joined.credit = n.credit := by
  cases n <;> rfl

theorem covers_beside (c : Char) (next : Next) : next.covers (beside c next) = true := by
  unfold beside
  -- A character is measured alone, or hands on what follows it at no column.
  split
  · exact Next.covers_of_plain (covers_alone c) next
  split
  · exact next.covers_kept _ _
  split
  · exact next.covers_kept _ _
  split
  · exact Next.covers_same (Int.le_of_eq (joined_credit next)) _
  split
  · next hmerged => exact covers_merged? hmerged
  split
  · exact Next.covers_same (Int.le_refl _) _
  · exact Next.covers_of_plain (covers_alone c) next

theorem covers_unselected (c : Char) (next : Next) : next.covers (unselected c next) = true := by
  unfold unselected
  repeat' split
  · exact Next.covers_of_plain rfl next
  · exact Next.covers_of_plain rfl next
  · exact Next.covers_of_plain rfl next
  · exact covers_beside c next

/-- What a character loses to the one before it, it has been paid or takes back from what follows. -/
theorem covers_step (c : Char) (f : Following) : f.next.covers (step c f) = true := by
  unfold step
  extract_lets afterSelector
  have hafter : f.next.covers (unselected c afterSelector) = true := by
    by_cases hkept : (f.next.isLigature || f.next == .alef) = true
    · rw [show afterSelector = f.next from if_pos hkept]
      exact covers_unselected c f.next
    · rw [show afterSelector = .plain from if_neg hkept]
      exact Next.covers_of_plain (covers_unselected c .plain) f.next
  split
  · split
    · refine Next.covers_of_plain ?_ f.next
      split <;> rfl
    · exact hafter
  · split
    · exact Next.covers_of_plain rfl f.next
    · exact hafter
  · exact covers_unselected c f.next

theorem measure_cons (c : Char) (cs : List Char) :
    measure (c :: cs) =
      ((measure cs).1 + (step c (measure cs).2).1, (step c (measure cs).2).2) := rfl

/-- The columns of a text cover what a character before it may take back. -/
theorem credit_le_measure (cs : List Char) : (measure cs).2.next.credit ≤ (measure cs).1 := by
  induction cs with
  | nil => exact Int.le_refl 0
  | cons c cs ih =>
      -- The step covers what may be taken back by what it finds, and the rest covers that.
      have hstep := covers_step c (measure cs).2
      rw [Next.covers, decide_eq_true_eq] at hstep
      exact Int.le_trans hstep (Int.add_le_add_right ih _)

theorem measure_nonneg (cs : List Char) : 0 ≤ (measure cs).1 :=
  Int.le_trans (Next.credit_nonneg _) (credit_le_measure cs)

/-- A space takes one column whatever follows it, and is plain to what stands before it. -/
theorem step_space (f : Following) : step ' ' f = (1, {}) := by
  have hspace (next : Next) : unselected ' ' next = (1, {}) := by
    cases next <;> rfl
  unfold step
  dsimp only
  split
  · rw [hspace, if_neg (by decide +kernel)]
  · rw [hspace, if_neg (by decide +kernel)]
  · exact hspace _

/-- What is plain at its beginning is measured apart from what stands before it. -/
theorem measure_append {ds : List Char} (h : (measure ds).2 = {}) (cs : List Char) :
    measure (cs ++ ds) = ((measure cs).1 + (measure ds).1, (measure cs).2) := by
  induction cs with
  | nil => simp [measure, ← h]
  | cons c cs ih =>
      rw [List.cons_append, measure_cons, measure_cons, ih]
      simp only [Prod.mk.injEq, and_true]
      omega

theorem measure_spaces_append (k : Nat) (cs : List Char) :
    measure (List.replicate (k + 1) ' ' ++ cs) = (k + 1 + (measure cs).1, {}) := by
  induction k with
  | zero =>
      rw [List.replicate_one, List.singleton_append, measure_cons, step_space, Int.add_comm]
      rfl
  | succ k ih =>
      rw [List.replicate_succ, List.cons_append, measure_cons, ih, step_space]
      simp only [Prod.mk.injEq, and_true]
      omega

end Width

/-! ## Characters that are printed -/

/-- The control characters of Unicode. -/
def isControl (c : Char) : Bool := c.toNat < 0x20 || (0x7F ≤ c.toNat && c.toNat ≤ 0x9F)

def isPrintable (s : String) : Bool := s.toList.all fun c => !isControl c

/-- A terminal prints a text without control characters as it stands. -/
theorem strip_append {cs : List Char} (h : (cs.all fun c => !isControl c) = true) (ds : List Char) :
    Escape.strip (cs ++ ds) = cs ++ Escape.strip ds := by
  induction cs with
  | nil => rfl
  | cons c cs ih =>
      obtain ⟨hc, hcs⟩ := Bool.and_eq_true_iff.mp h
      have hcode : 0x20 ≤ c.toNat ∧ (c.toNat < 0x7F ∨ 0x9F < c.toNat) := by
        simp only [isControl, Bool.not_or, Bool.and_eq_true, Bool.not_eq_true',
          decide_eq_false_iff_not, Bool.and_eq_false_iff] at hc
        omega
      have hground : Escape.step .ground c.toNat = .ground := by
        simp only [Escape.step, beq_iff_eq]
        rw [if_neg (by omega)]
      -- Only control characters leave the ground state of the terminal or are left out in it.
      have hprinted : Escape.isPrinted .ground c.toNat = true := by
        have : ¬(0x80 ≤ c.toNat ∧ c.toNat ≤ 0x9F) := by omega
        have hlf : (c.toNat == 0x0A) = false := by
          rw [beq_eq_false_iff_ne]
          omega
        simp only [Escape.isPrinted, hlf, Bool.false_eq_true, if_false]
        simp only [beq_self_eq_true, Bool.true_and, hcode.1, decide_true]
        simpa using by omega
      rw [Escape.strip, List.cons_append, Escape.stripFrom, hground, if_pos hprinted]
      exact congrArg (c :: ·) (ih hcs)

theorem isControl_of_mem_spaces {k : Nat} :
    ((List.replicate k ' ').all fun c => !isControl c) = true := by
  rw [List.all_replicate]
  split
  · rfl
  · decide

/-- **A text, spaces and a rest take the sum of their columns**, if the text has no control
characters. -/
theorem displayWidth_append_spaces_append {s : String} (h : isPrintable s = true) {k : Nat}
    (hk : k ≠ 0) (rest : String) :
    displayWidth (s ++ spaces k ++ rest) = displayWidth s + k + displayWidth rest := by
  obtain ⟨k, rfl⟩ := Nat.exists_eq_succ_of_ne_zero hk
  have hs : Escape.strip s.toList = s.toList := by
    have := strip_append h []
    rwa [List.append_nil, show Escape.strip [] = [] from rfl, List.append_nil] at this
  have hspaces := Width.measure_spaces_append k (Escape.strip rest.toList)
  have happend := Width.measure_append (by rw [hspaces]) s.toList
  have hleft := Width.measure_nonneg s.toList
  have hright := Width.measure_nonneg (Escape.strip rest.toList)
  rw [displayWidth, displayWidth, displayWidth, hs, spaces]
  simp only [String.toList_append, String.toList_ofList, List.append_assoc]
  rw [strip_append h, strip_append isControl_of_mem_spaces, happend, hspaces]
  simp only
  omega

theorem displayWidth_append_spaces {s : String} (h : isPrintable s = true) (k : Nat) :
    displayWidth (s ++ spaces k) = displayWidth s + k := by
  cases k with
  | zero => simp [spaces]
  | succ k =>
      have := displayWidth_append_spaces_append h (Nat.succ_ne_zero k) ""
      simpa [displayWidth, Escape.strip, Escape.stripFrom, Width.measure] using this

/-! ## Upper case -/

namespace Case

/-- Whether all code points from `first` to `last` are characters, none of them a control
character. -/
def printed (first last : Int) : Bool :=
  (0x20 ≤ first && last ≤ 0x7E) || (0xA0 ≤ first && last ≤ 0xD7FF) ||
    (0xE000 ≤ first && last ≤ 0x10FFFF)

theorem isControl_ofNat {first last : Int} {n : Nat} (h : printed first last = true)
    (hfirst : first ≤ n) (hlast : n ≤ last) : isControl (Char.ofNat n) = false := by
  simp only [printed, Bool.or_eq_true, Bool.and_eq_true, decide_eq_true_eq] at h
  have hvalid : n.isValidChar := by
    rw [Nat.isValidChar]
    omega
  have hcode : (Char.ofNat n).toNat = n := by
    rw [Char.ofNat, dif_pos hvalid]
    rfl
  simp only [isControl, hcode, Bool.or_eq_false_iff, decide_eq_false_iff_not,
    Bool.and_eq_false_iff]
  omega

theorem applyRuns_isControl {runs : List Run} {n m : Nat}
    (hruns : ∀ r ∈ runs, printed (r.first + r.offset) (r.last + r.offset) = true)
    (h : applyRuns runs n = some m) : isControl (Char.ofNat m) = false := by
  obtain ⟨r, hfound, rfl⟩ := Option.map_eq_some_iff.mp h
  have hprinted := hruns r (List.mem_of_find?_eq_some hfound)
  have hcovers := List.find?_some hfound
  simp only [Run.covers, Bool.and_eq_true, decide_eq_true_eq] at hcovers
  have hpos : 0 ≤ r.first + r.offset := by
    simp only [printed, Bool.or_eq_true, Bool.and_eq_true, decide_eq_true_eq] at hprinted
    omega
  refine isControl_ofNat hprinted ?_ ?_
  · simp only [Int.ofNat_eq_natCast]
    omega
  · simp only [Int.ofNat_eq_natCast]
    omega

end Case

theorem isControl_toUpper {c : Char} (hascii : c.toNat < 128) (h : isControl c = false) :
    isControl c.toUpper = false := by
  have hall : ∀ n < 128, isControl (Char.ofNat n) = false →
      isControl (Char.ofNat n).toUpper = false := by
    decide
  have := hall c.toNat hascii
  rw [Char.ofNat_toNat] at this
  exact this h

theorem isControl_upperChar {c : Char} (h : isControl c = false) :
    ∀ u ∈ upperChar c, isControl u = false := by
  have hruns : ∀ r ∈ Case.upperRuns,
      Case.printed (r.first + r.offset) (r.last + r.offset) = true := by
    decide +kernel
  have hspecial : ∀ p ∈ Case.upperSpecial, ∀ n ∈ p.2, Case.printed n n = true := by
    decide +kernel
  intro u hu
  unfold upperChar at hu
  split at hu
  · next hascii =>
      rw [List.mem_singleton.mp hu]
      exact isControl_toUpper hascii h
  · unfold Case.mapChar at hu
    split at hu
    · next ns hns =>
        obtain ⟨n, hn, rfl⟩ := List.mem_map.mp hu
        obtain ⟨before, after, hsplit, -⟩ := List.lookup_eq_some_iff.mp hns
        have hmem : (c.toNat, ns) ∈ Case.upperSpecial := by
          rw [hsplit]
          exact List.mem_append_right _ List.mem_cons_self
        exact Case.isControl_ofNat (hspecial _ hmem n hn) (Int.le_refl _) (Int.le_refl _)
    · split at hu
      · next m hm =>
          rw [List.mem_singleton.mp hu]
          exact Case.applyRuns_isControl hruns hm
      · rwa [List.mem_singleton.mp hu]

/-- **A text without control characters has none in upper case.** -/
theorem isPrintable_uppercase {s : String} (h : isPrintable s = true) :
    isPrintable (uppercase s) = true := by
  rw [isPrintable, uppercase, String.toList_ofList, List.all_eq_true]
  intro u hu
  obtain ⟨c, hc, huc⟩ := List.mem_flatMap.mp hu
  have hplain := List.all_eq_true.mp h c hc
  rw [Bool.not_eq_true'] at hplain ⊢
  exact isControl_upperChar hplain u huc

end TabCompletion.Text
