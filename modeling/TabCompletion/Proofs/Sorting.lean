import Mathlib.Data.Char
import Mathlib.Data.List.Lex
import Mathlib.Data.List.Pairwise
import Mathlib.Order.Lattice
import TabCompletion.Sorting

/-!
# Sorting keeps what it sorts

Whatever the order, a sorted list holds the elements it was given, each as often. Where the order is
that of a key, the keys do not decrease, and the elements with one key stand in the order that they
were given in (`StablyOrdered`, `stableSort_stablyOrdered`).
-/

namespace TabCompletion.Sorting

variable {α β : Type}

theorem place_perm (before : α → α → Bool) (x : α) (xs : List α) :
    (place before x xs).Perm (x :: xs) := by
  induction xs with
  | nil => exact List.Perm.refl _
  | cons y ys ih =>
      rw [place]
      split
      · exact (ih.cons y).trans (List.Perm.swap x y ys)
      · exact List.Perm.refl _

theorem stableSort_perm (before : α → α → Bool) (xs : List α) :
    (stableSort before xs).Perm xs := by
  induction xs with
  | nil => exact List.Perm.refl _
  | cons x xs ih => exact (place_perm before x _).trans (ih.cons x)

/-! ## Sorting what stands for the elements -/

theorem map_place (f : β → α) (before : α → α → Bool) (x : β) (xs : List β) :
    (place (fun a b => before (f a) (f b)) x xs).map f = place before (f x) (xs.map f) := by
  induction xs with
  | nil => rfl
  | cons y ys ih =>
      rw [place, List.map_cons, place]
      split
      · rw [List.map_cons, ih]
      · rfl

theorem map_stableSort (f : β → α) (before : α → α → Bool) (xs : List β) :
    (stableSort (fun a b => before (f a) (f b)) xs).map f = stableSort before (xs.map f) := by
  induction xs with
  | nil => rfl
  | cons x xs ih => rw [stableSort, map_place, ih, List.map_cons, stableSort]

/-- The keys that are computed once are those of the elements. -/
theorem stableSortByText_eq (key : α → List Char) (xs : List α) :
    stableSortByText key xs = stableSort (fun a b => textBefore (key a) (key b)) xs := by
  rw [stableSortByText, ← map_stableSort (fun x => (key x, x)), List.map_map]
  exact List.map_id _

/-- **Ordering a list by a text key permutes it.** -/
theorem stableSortByText_perm (key : α → List Char) (xs : List α) :
    (stableSortByText key xs).Perm xs := by
  rw [stableSortByText_eq]
  exact stableSort_perm _ xs

theorem map_stableSortByText (f : β → α) (key : α → List Char) (xs : List β) :
    (stableSortByText (fun x => key (f x)) xs).map f = stableSortByText key (xs.map f) := by
  rw [stableSortByText_eq, stableSortByText_eq, ← map_stableSort]

/-! ## The order of a key -/

theorem textBefore_iff {a b : List Char} : textBefore a b = true ↔ a < b := by
  induction a generalizing b with
  | nil => cases b <;> simp [textBefore]
  | cons x xs ih =>
      cases b with
      | nil => simp [textBefore]
      | cons y ys =>
          have hlt : x.toNat < y.toNat ↔ x < y := Iff.rfl
          simp [textBefore, List.cons_lt_cons_iff, ih, hlt]

variable {κ : Type} [LinearOrder κ] {key : α → κ} {before : α → α → Bool} {x : α} {xs ys : List α}

/-- `ys` holds the elements of `xs` in the order of their keys, and those with one key in the order of
`xs`. -/
structure StablyOrdered (key : α → κ) (xs ys : List α) : Prop where
  perm : ys.Perm xs
  ordered : ys.Pairwise fun a b => key a ≤ key b
  ties : ∀ k, ys.filter (fun a => decide (key a = k)) = xs.filter fun a => decide (key a = k)

/-- Leaving elements out keeps the order. -/
theorem StablyOrdered.filter (h : StablyOrdered key xs ys) (p : α → Bool) :
    StablyOrdered key (xs.filter p) (ys.filter p) where
  perm := h.perm.filter p
  ordered := h.ordered.filter p
  ties k := by
    rw [List.filter_filter, List.filter_filter]
    simp only [Bool.and_comm, ← List.filter_filter, h.ties]

/-- A relation that follows from the order of the keys orders `ys` just if it relates all elements of
`xs` that stand in their order and are not put in another one by their keys. -/
theorem StablyOrdered.pairwise_iff (h : StablyOrdered key xs ys) {R : α → α → Prop}
    (hR : ∀ a ∈ xs, ∀ b ∈ xs, key a < key b → R a b) :
    ys.Pairwise R ↔ xs.Pairwise fun a b => R a b ∨ key b < key a := by
  have hmem : ∀ {a b}, [a, b].Sublist ys → a ∈ xs ∧ b ∈ xs := by
    intro a b hab
    exact ⟨h.perm.mem_iff.mp (hab.subset (by simp)), h.perm.mem_iff.mp (hab.subset (by simp))⟩
  -- Elements with one key stand in one order in both lists.
  have htie : ∀ {a b}, key a = key b → ([a, b].Sublist xs ↔ [a, b].Sublist ys) := by
    intro a b hkey
    have hfilter (l : List α) :
        [a, b].Sublist (l.filter fun c => decide (key c = key a)) ↔ [a, b].Sublist l := by
      constructor
      · exact fun hab => hab.trans List.filter_sublist
      · intro hab
        simpa [hkey] using hab.filter fun c => decide (key c = key a)
    rw [← hfilter xs, ← hfilter ys, h.ties]
  rw [List.pairwise_iff_forall_sublist, List.pairwise_iff_forall_sublist]
  constructor
  · intro hys a b hab
    rcases lt_trichotomy (key a) (key b) with hlt | heq | hgt
    · exact Or.inl (hR a (hab.subset (by simp)) b (hab.subset (by simp)) hlt)
    · exact Or.inl (hys ((htie heq).mp hab))
    · exact Or.inr hgt
  · intro hxs a b hab
    rcases lt_or_eq_of_le (List.pairwise_iff_forall_sublist.mp h.ordered hab) with hlt | heq
    · exact hR a (hmem hab).1 b (hmem hab).2 hlt
    · exact (hxs ((htie heq).mpr hab)).resolve_right (not_lt_of_ge heq.le)

/-- An element passes only those of a smaller key, so it passes none of its own. -/
theorem filter_place (hbefore : ∀ y ∈ xs, before y x = true → key y < key x) (k : κ) :
    (place before x xs).filter (fun a => decide (key a = k)) =
      (x :: xs).filter fun a => decide (key a = k) := by
  induction xs with
  | nil => rfl
  | cons y ys ih =>
      obtain ⟨hy, hys⟩ := List.forall_mem_cons.mp hbefore
      rw [place]
      split
      · next hpass =>
          have hlt := hy hpass
          rw [List.filter_cons, ih hys]
          grind
      · rfl

theorem place_ordered (hbefore : ∀ y ∈ xs, before y x = true ↔ key y < key x)
    (h : xs.Pairwise fun a b => key a ≤ key b) :
    (place before x xs).Pairwise fun a b => key a ≤ key b := by
  induction xs with
  | nil => exact List.pairwise_singleton _ _
  | cons y ys ih =>
      obtain ⟨hy, hys⟩ := List.forall_mem_cons.mp hbefore
      obtain ⟨hleast, hrest⟩ := List.pairwise_cons.mp h
      rw [place]
      split
      · next hpass =>
          refine List.pairwise_cons.mpr ⟨?_, ih hys hrest⟩
          intro a ha
          rcases List.mem_cons.mp ((place_perm before x ys).mem_iff.mp ha) with rfl | ha
          · exact le_of_lt (hy.mp hpass)
          · exact hleast a ha
      · next hstay =>
          have hle : key x ≤ key y := not_lt.mp (mt hy.mpr hstay)
          refine List.pairwise_cons.mpr ⟨?_, h⟩
          intro a ha
          rcases List.mem_cons.mp ha with rfl | ha
          · exact hle
          · exact le_trans hle (hleast a ha)

/-- **Sorting by the order of a key orders the elements by it and keeps ties as they were.** -/
theorem stableSort_stablyOrdered
    (hbefore : ∀ a ∈ xs, ∀ b ∈ xs, before a b = true ↔ key a < key b) :
    StablyOrdered key xs (stableSort before xs) := by
  induction xs with
  | nil => exact ⟨List.Perm.refl _, List.Pairwise.nil, fun _ => rfl⟩
  | cons x xs ih =>
      have hsorted := ih fun a ha b hb =>
        hbefore a (List.mem_cons_of_mem x ha) b (List.mem_cons_of_mem x hb)
      have hpass : ∀ y ∈ stableSort before xs, before y x = true ↔ key y < key x := fun y hy =>
        hbefore y (List.mem_cons_of_mem x (hsorted.perm.mem_iff.mp hy)) x List.mem_cons_self
      refine ⟨stableSort_perm before (x :: xs), place_ordered hpass hsorted.ordered, ?_⟩
      intro k
      rw [stableSort, filter_place (fun y hy => (hpass y hy).mp), List.filter_cons, hsorted.ties,
        List.filter_cons]

/-- **Sorting by a text key is sorting by the order of texts.** -/
theorem stableSortByText_stablyOrdered (key : α → List Char) (xs : List α) :
    StablyOrdered key xs (stableSortByText key xs) := by
  rw [stableSortByText_eq]
  exact stableSort_stablyOrdered fun _ _ _ _ => textBefore_iff

/-! ## Two orders of one list -/

theorem place_congr {before' : α → α → Bool} (h : ∀ y ∈ xs, before y x = before' y x) :
    place before x xs = place before' x xs := by
  induction xs with
  | nil => rfl
  | cons y ys ih =>
      obtain ⟨hy, hys⟩ := List.forall_mem_cons.mp h
      rw [place, place, hy, ih hys]

/-- Sorting asks only whether an element is before one that is listed earlier. -/
theorem stableSort_congr {before' : α → α → Bool}
    (h : xs.Pairwise fun a b => before b a = before' b a) :
    stableSort before xs = stableSort before' xs := by
  induction xs with
  | nil => rfl
  | cons x xs ih =>
      obtain ⟨hx, hxs⟩ := List.pairwise_cons.mp h
      rw [stableSort, stableSort, ← ih hxs]
      exact place_congr fun y hy => hx y ((stableSort_perm before xs).mem_iff.mp hy)

/-- One list is ordered by two keys only if both put all its elements in that order. -/
theorem StablyOrdered.le_of_lt {key' : α → κ} (h : StablyOrdered key xs ys)
    (h' : StablyOrdered key' xs ys) : ∀ a ∈ xs, ∀ b ∈ xs, key a < key b → key' a ≤ key' b := by
  let R (a b : α) : Prop := key a < key b → key' a ≤ key' b
  have hself : ∀ a ∈ ys, R a a := fun a _ hlt => absurd hlt (lt_irrefl (key a))
  have hforth : ys.Pairwise R := by
    refine h'.ordered.imp ?_
    intro a b hle _
    exact hle
  have hback : ys.Pairwise (flip R) := h.ordered.imp fun hle hlt => absurd hlt (not_lt_of_ge hle)
  intro a ha b hb
  exact List.Pairwise.forall_of_forall_of_flip hself hforth hback (h.perm.mem_iff.mpr ha)
    (h.perm.mem_iff.mpr hb)

/-- **Two text keys order a list alike** just if they agree on which elements to put before one that is
listed earlier. -/
theorem stableSortByText_eq_iff {key key' : α → List Char} :
    stableSortByText key xs = stableSortByText key' xs ↔
      xs.Pairwise fun a b => key b < key a ↔ key' b < key' a := by
  constructor
  · intro h
    have hkey := stableSortByText_stablyOrdered key xs
    have hkey' := stableSortByText_stablyOrdered key' xs
    rw [← h] at hkey'
    have hpair := (hkey.pairwise_iff (R := fun a b => key' a ≤ key' b)
      (hkey.le_of_lt hkey')).mp hkey'.ordered
    have hpair' := (hkey'.pairwise_iff (R := fun a b => key a ≤ key b)
      (hkey'.le_of_lt hkey)).mp hkey.ordered
    refine hpair.imp₂ ?_ hpair'
    intro a b hab hab'
    exact ⟨fun hlt => hab'.resolve_left (not_le_of_gt hlt),
      fun hlt => hab.resolve_left (not_le_of_gt hlt)⟩
  · intro h
    rw [stableSortByText_eq, stableSortByText_eq]
    refine stableSort_congr (h.imp ?_)
    intro a b hab
    rw [Bool.eq_iff_iff, textBefore_iff, textBefore_iff]
    exact hab

end TabCompletion.Sorting
