import TabCompletion.Grammar.Basic
import TabCompletion.Proofs.ArgTokens

/-!
# Dealing words to arguments

Words are dealt to arguments in turn: the first takes as many as it may, the next takes of the rest, and
so on. `deal` says so in one equation per argument. The share of each argument is a slice of the words,
which begins where the greatest numbers of those before it add up to (`deal_getElem?`).
-/

namespace TabCompletion

/-! ## Dealing words -/

/-- The words that an argument takes of those that are left: as many as it may. -/
def Arity.share (a : Arity) (words : List String) : List String :=
  match a.max with
  | some most => words.take most
  | none => words

/-- The words that are left then. -/
def Arity.leave (a : Arity) (words : List String) : List String :=
  match a.max with
  | some most => words.drop most
  | none => []

/-- Deal words to arguments in turn, to each as many as it may take. -/
def deal : List Slot → List String → List (Slot × List String)
  | [], _ => []
  | p :: ps, words => (p, p.arg.arity.share words) :: deal ps (p.arg.arity.leave words)

/-- The greatest number of values that arguments take together, unless there is no bound. -/
def mostTogether : List Slot → Option Nat
  | [] => some 0
  | p :: ps => p.arg.arity.max.bind fun most => (mostTogether ps).map (most + ·)

/-- How many of `n` words the arguments take together. -/
def takenBy (ps : List Slot) (n : Nat) : Nat := (mostTogether ps).elim n (min n)

/-- The words from where the arguments before the one at a place have theirs to where it has its own. -/
def sliceAt (ps : List Slot) (words : List String) (i : Nat) : List String :=
  words.extract (takenBy (ps.take i) words.length) (takenBy (ps.take (i + 1)) words.length)

/-- Whether the argument at a place has as many words as it may. -/
def isFilledAt (ps : List Slot) (words : List String) (i : Nat) : Bool :=
  ps[i]?.any fun p => p.arg.arity.isFull (sliceAt ps words i).length

namespace Arity

variable {a : Arity} {words : List String}

theorem share_append_leave (a : Arity) (words : List String) :
    a.share words ++ a.leave words = words := by
  unfold share leave
  cases a.max <;> simp

@[simp] theorem share_nil (a : Arity) : a.share [] = [] := by
  unfold share
  cases a.max <;> simp

@[simp] theorem leave_nil (a : Arity) : a.leave [] = [] := by
  unfold leave
  cases a.max <;> simp

theorem share_ne_nil (hroom : a.max ≠ some 0) (hwords : words ≠ []) : a.share words ≠ [] := by
  unfold share
  cases hmax : a.max with
  | none => exact hwords
  | some most =>
      have hmost : most ≠ 0 := fun h => hroom (h ▸ hmax)
      simp [hmost, hwords]

/-- An argument that takes values is not full without any. -/
theorem isFull_zero (hroom : a.max ≠ some 0) : a.isFull 0 = false := by
  unfold isFull
  cases hmax : a.max with
  | none => rfl
  | some most =>
      have hmost : most ≠ 0 := fun h => hroom (h ▸ hmax)
      simpa using hmost

theorem length_share_le {most : Nat} (h : a.max = some most) : (a.share words).length ≤ most := by
  simp only [share, h, List.length_take]
  exact Nat.min_le_left most words.length

/-- An argument that could take more leaves nothing. -/
theorem leave_eq_nil (h : a.isFull (a.share words).length = false) : a.leave words = [] := by
  unfold isFull share at h
  unfold leave
  cases hmax : a.max with
  | none => rfl
  | some most =>
      simp only [hmax, List.length_take, decide_eq_false_iff_not] at h
      exact List.drop_of_length_le (by omega)

end Arity

variable {p : Slot} {ps : List Slot} {words : List String} {i n : Nat}

theorem takenBy_cons :
    takenBy (p :: ps) n =
      match p.arg.arity.max with
      | some most => min n most + takenBy ps (n - most)
      | none => n := by
  unfold takenBy
  rw [mostTogether]
  cases p.arg.arity.max with
  | none => rfl
  | some most =>
      cases mostTogether ps with
      | none =>
          show n = min n most + (n - most)
          omega
      | some rest =>
          show min n (most + rest) = min n most + min (n - most) rest
          omega

theorem takenBy_nil : takenBy [] n = 0 := Nat.min_zero n

/-- Beyond the end of the words nothing is left, however far. -/
theorem drop_min_length_add (words : List String) (most k : Nat) :
    words.drop (min words.length most + k) = words.drop (most + k) := by
  rcases Nat.le_total most words.length with h | h
  · rw [Nat.min_eq_right h]
  · rw [Nat.min_eq_left h, List.drop_of_length_le (by omega), List.drop_of_length_le (by omega)]

/-- **The share of each argument is a slice of the words.** -/
theorem deal_getElem? :
    (deal ps words)[i]? = ps[i]?.map fun p => (p, sliceAt ps words i) := by
  induction ps generalizing words i with
  | nil => simp [deal]
  | cons p ps ih =>
      rw [deal]
      cases i with
      | zero =>
          simp only [List.getElem?_cons_zero, Option.map_some, sliceAt, List.take_zero, Nat.zero_add,
            List.take_succ_cons, takenBy_nil, takenBy_cons, Arity.share]
          cases p.arg.arity.max with
          | none => simp
          | some most => simp [Nat.min_comm]
      | succ i =>
          rw [List.getElem?_cons_succ, ih, List.getElem?_cons_succ]
          congr 2
          funext q
          rw [sliceAt, sliceAt, List.take_succ_cons, List.take_succ_cons, takenBy_cons, takenBy_cons,
            Arity.leave]
          cases p.arg.arity.max with
          | none => simp
          | some most =>
              simp only [List.length_drop, List.extract_eq_take_drop, List.drop_drop,
                Nat.add_sub_add_left, drop_min_length_add]

theorem map_fst_deal (ps : List Slot) (words : List String) : (deal ps words).map (·.1) = ps := by
  induction ps generalizing words with
  | nil => rfl
  | cons p ps ih => rw [deal, List.map_cons, ih]

theorem deal_length (ps : List Slot) (words : List String) : (deal ps words).length = ps.length := by
  rw [← List.length_map (·.1), map_fst_deal]

theorem isFull_deal_getElem (hi : i < (deal ps words).length) :
    ((deal ps words)[i].1.arg.arity.isFull (deal ps words)[i].2.length) = isFilledAt ps words i := by
  have hget : (deal ps words)[i]? = some (deal ps words)[i] := List.getElem?_eq_getElem hi
  rw [deal_getElem?, Option.map_eq_some_iff] at hget
  obtain ⟨p, hp, hslice⟩ := hget
  rw [← hslice, isFilledAt, hp]
  rfl

/-- What the arguments take together is what the first takes and, of the rest, what the others take. -/
theorem take_takenBy_cons :
    words.take (takenBy (p :: ps) words.length) =
      p.arg.arity.share words ++
        (p.arg.arity.leave words).take (takenBy ps (p.arg.arity.leave words).length) := by
  rw [takenBy_cons, Arity.share, Arity.leave]
  cases p.arg.arity.max with
  | none => simp
  | some most =>
      have hdrop : words.drop (min words.length most) = words.drop most :=
        drop_min_length_add words most 0
      have htake : words.take (min words.length most) = words.take most := by
        rw [Nat.min_comm, ← List.take_eq_take_min]
      simp only [List.length_drop, List.take_add, hdrop, htake]

/-! ## Recording what was dealt -/

/-- Add the share of each argument to the values of its destination. -/
def ArgTokens.pushShares (values : ArgTokens) (shares : List (Slot × List String)) : ArgTokens :=
  shares.foldl (fun v e => v.pushAll e.1.arg.dest e.2) values

namespace ArgTokens

variable {values : ArgTokens} {shares : List (Slot × List String)} {dest : String}
  {vs : List String}

/-- Where no words are dealt nothing is added. -/
theorem pushShares_deal_nil : values.pushShares (deal ps []) = values := by
  induction ps with
  | nil => rfl
  | cons p ps ih =>
      show (values.pushAll p.arg.dest (p.arg.arity.share [])).pushShares
        (deal ps (p.arg.arity.leave [])) = values
      rw [Arity.share_nil, Arity.leave_nil, pushAll_nil]
      exact ih

theorem get?_pushShares_of_ne (h : ∀ e ∈ shares, e.1.arg.dest ≠ dest) :
    (values.pushShares shares).get? dest = values.get? dest := by
  induction shares generalizing values with
  | nil => rfl
  | cons e rest ih =>
      obtain ⟨he, hrest⟩ := List.forall_mem_cons.mp h
      show ((values.pushAll e.1.arg.dest e.2).pushShares rest).get? dest = _
      rw [ih hrest, get?_pushAll, if_neg fun hd => he hd.1.symm]

/-- Where no two arguments have one destination, each has its share there. -/
theorem get?_pushShares (hdistinct : (shares.map (·.1.arg.dest)).Nodup) (h : (p, vs) ∈ shares) :
    (values.pushShares shares).get? p.arg.dest =
      if vs = [] then values.get? p.arg.dest
      else some ((values.get? p.arg.dest).getD [] ++ vs) := by
  induction shares generalizing values with
  | nil => simp at h
  | cons e rest ih =>
      obtain ⟨hfresh, hrest⟩ := List.nodup_cons.mp hdistinct
      have hothers : ∀ e' ∈ rest, e'.1.arg.dest ≠ e.1.arg.dest := fun e' he' hd =>
        hfresh (List.mem_map.mpr ⟨e', he', hd⟩)
      show ((values.pushAll e.1.arg.dest e.2).pushShares rest).get? p.arg.dest = _
      rcases List.mem_cons.mp h with rfl | h
      · rw [get?_pushShares_of_ne hothers, get?_pushAll]
        by_cases hvs : vs = [] <;> simp [hvs]
      · have hne : p.arg.dest ≠ e.1.arg.dest := hothers (p, vs) h
        have hkept : (values.pushAll e.1.arg.dest e.2).get? p.arg.dest = values.get? p.arg.dest := by
          rw [get?_pushAll, if_neg fun hd => hne hd.1]
        rw [ih hrest h, hkept]

end ArgTokens

end TabCompletion
