import TabCompletion.Proofs.Text.Words

/-!
# Cutting a text at a byte

A text can be cut at a byte where a character begins or the text ends (`IsCharBoundary`). Any other
byte lies inside a character (`IsInsideChar`) or beyond the end of the text.
-/

namespace TabCompletion.Text

variable {cs ds es : List Char} {n : Nat}

/-- A character of the text begins at the byte `n`, or the text ends there. -/
def IsCharBoundary (cs : List Char) (n : Nat) : Prop :=
  ∃ ds es, cs = ds ++ es ∧ byteLength ds = n

/-- The byte `n` belongs to a character of the text that begins before it. -/
def IsInsideChar (cs : List Char) (n : Nat) : Prop :=
  ∃ ds c es, cs = ds ++ c :: es ∧ byteLength ds < n ∧ n < byteLength ds + c.utf8Size

theorem IsCharBoundary.le (h : IsCharBoundary cs n) : n ≤ byteLength cs := by
  obtain ⟨ds, es, rfl, rfl⟩ := h
  rw [byteLength_append]
  exact Nat.le_add_right _ _

theorem IsCharBoundary.append (h : IsCharBoundary cs n) (es : List Char) :
    IsCharBoundary (cs ++ es) n := by
  obtain ⟨ds, fs, rfl, hn⟩ := h
  exact ⟨ds, fs ++ es, List.append_assoc _ _ _, hn⟩

theorem takeBytes?_eq_some (h : takeBytes? n cs = some ds) :
    ∃ es, cs = ds ++ es ∧ byteLength ds = n := by
  induction cs generalizing n ds with
  | nil =>
      cases n with
      | zero =>
          cases h
          exact ⟨[], rfl, rfl⟩
      | succ n => contradiction
  | cons c cs ih =>
      cases n with
      | zero =>
          cases h
          exact ⟨c :: cs, rfl, rfl⟩
      | succ n =>
          rw [takeBytes?] at h
          split at h
          · next hfits =>
              obtain ⟨fs, hfs, rfl⟩ := Option.map_eq_some_iff.mp h
              obtain ⟨es, rfl, hlength⟩ := ih hfs
              refine ⟨es, rfl, ?_⟩
              rw [byteLength, hlength]
              omega
          · contradiction

/-- A byte past the first character lies inside a later one as it does without the first. -/
theorem isInsideChar_cons {c : Char} (h : c.utf8Size ≤ n) :
    IsInsideChar (c :: cs) n ↔ IsInsideChar cs (n - c.utf8Size) := by
  constructor
  · rintro ⟨ds, d, es, happend, hlt, hgt⟩
    cases ds with
    | nil =>
        cases happend
        simp only [byteLength] at hgt
        omega
    | cons e ds =>
        cases happend
        simp only [byteLength] at hlt hgt
        exact ⟨ds, d, es, rfl, by omega, by omega⟩
  · rintro ⟨ds, d, es, rfl, hlt, hgt⟩
    refine ⟨c :: ds, d, es, rfl, ?_, ?_⟩ <;> simp only [byteLength] <;> omega

/-- **A text is cut everywhere but inside its characters and beyond its end.** -/
theorem takeBytes?_eq_none_iff :
    takeBytes? n cs = none ↔ byteLength cs < n ∨ IsInsideChar cs n := by
  induction cs generalizing n with
  | nil =>
      cases n with
      | zero => simp [takeBytes?, byteLength, IsInsideChar]
      | succ n => simp [takeBytes?, byteLength]
  | cons c cs ih =>
      cases n with
      | zero => simp [takeBytes?, IsInsideChar]
      | succ n =>
          rw [takeBytes?]
          split
          · next hfits =>
              rw [Option.map_eq_none_iff, ih, byteLength, isInsideChar_cons hfits]
              exact or_congr (by omega) Iff.rfl
          · next hfits =>
              have hinside : IsInsideChar (c :: cs) (n + 1) :=
                ⟨[], c, cs, rfl, Nat.succ_pos n, by simpa [byteLength] using hfits⟩
              simp [hinside]

end TabCompletion.Text
