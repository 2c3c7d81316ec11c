import TabCompletion.Proofs.Replay.Conservation
import TabCompletion.Proofs.Resolve.Delegation

/-!
# Where the words of a line lead

`Grammar.descend` reads the words before the last one through all grammars that they hand over to.
Completing a line is completing its last word where those lead, with the values that were passed
down on the way (`tryResolve_eq_descend`). In what is passed down the nearest level wins
(`get?_inherit`).
-/

namespace TabCompletion

/-- A grammar that handed over: the values consumed in it, and the word that named the next one. -/
structure Level where
  grammar : Grammar
  values : ArgTokens
  name : String

/-- The levels that handed over, outermost first, and the grammar and the state that the words left
after the last of them lead to. -/
structure Descent where
  levels : List Level
  grammar : Grammar
  state : Replay

variable {g c : Grammar} {s t : Replay} {host : Host} {parents values : ArgTokens} {line : List String}
  {request : CompletionRequest} {words : List String} {name word dest : String} {down : Descent}

namespace Level

/-- Whether the name is recorded under a destination. -/
def recordsUnder (l : Level) (dest : String) : Bool :=
  l.grammar.dispatch?.any fun slot => slot.arg.recordsDest && slot.arg.dest == dest

/-- What a level has under a destination: the name, if it is recorded there, else the values. -/
def get? (l : Level) (dest : String) : Option (List String) :=
  if l.recordsUnder dest then some [l.name] else l.values.get? dest

theorem get?_eq_none {l : Level} :
    l.get? dest = none ↔ l.recordsUnder dest = false ∧ l.values.get? dest = none := by
  unfold get?
  cases l.recordsUnder dest <;> simp

end Level

namespace Grammar

open Replay (feedAll start)

/-- Read words, going on in the nested grammar where one hands over. -/
def descend (g : Grammar) (s : Replay) : List String → Except Interruption Descent
  | [] => .ok { levels := [], grammar := g, state := s }
  | word :: words =>
    match s.feed g word with
    | .error e => .error e
    | .ok (.next s) => descend g s words
    | .ok (.delegate child) =>
      (descend child (start child) words).map fun down =>
        { down with levels := ⟨g, s.values, word⟩ :: down.levels }

/-- What the last grammar is passed down where `parents` was passed to the first. -/
def inherit (parents : ArgTokens) (levels : List Level) : ArgTokens :=
  levels.foldl (fun outer l => l.grammar.passedDown outer l.values l.name) parents

/-- The words that are read before the last one is completed: all but the command's name and the
last. -/
def wordsBefore (line : List String) (text : String) : List String :=
  ((normalizeWords line text).drop 1).dropLast

/-! ## Runs through nested grammars -/

theorem descend_of_next (h : s.feed g word = .ok (.next t)) :
    g.descend s (word :: words) = g.descend t words := by
  rw [descend, h]

/-- Words that hand over to no grammar lead to none. -/
theorem descend_of_feedAll (h : feedAll g s words = .ok (.next t)) :
    g.descend s words = .ok { levels := [], grammar := g, state := t } := by
  induction words generalizing s with
  | nil =>
      cases h
      rfl
  | cons word words ih =>
      obtain ⟨s₁, r, hstep, hrest⟩ := Replay.feedAll_cons_next.mp h
      rw [descend_of_next hstep.feed_eq]
      exact ih hrest

/-- **What holds where reading begins, in every grammar, and is kept by every step holds wherever the
words lead**, and where each level on the way was left. -/
theorem descend_invariant {I : Grammar → Replay → Prop} (hstart : ∀ g, I g (start g))
    (hstep : ∀ {g s word r s'}, I g s → Replay.Step g s word r s' → I g s') (hs : I g s)
    (h : g.descend s words = .ok down) :
    I down.grammar down.state ∧ ∀ l ∈ down.levels, ∃ t, I l.grammar t ∧ l.values = t.values := by
  induction words generalizing g s down with
  | nil =>
      cases h
      exact ⟨hs, by simp⟩
  | cons word words ih =>
      rw [descend] at h
      cases hfeed : s.feed g word with
      | error e => simp [hfeed] at h
      | ok fed =>
          cases fed with
          | next s₁ =>
              simp only [hfeed] at h
              obtain ⟨r, hfirst⟩ := Replay.feed_next_iff.mp hfeed
              exact ih (hstep hs hfirst) h
          | delegate child =>
              simp only [hfeed] at h
              cases hbelow : child.descend (start child) words with
              | error e => simp [hbelow, Except.map] at h
              | ok below =>
                  rw [hbelow] at h
                  cases h
                  obtain ⟨hlast, hlevels⟩ := ih (hstart child) hbelow
                  refine ⟨hlast, ?_⟩
                  intro l hl
                  rcases List.mem_cons.mp hl with rfl | hl
                  · exact ⟨s, hs, rfl⟩
                  · exact hlevels l hl

/-! ## Completing where the words lead -/

theorem resolveFrom_eq_descend :
    resolveFrom host request g parents s words =
      (g.descend s words.dropLast).bind fun down =>
        down.state.complete down.grammar host (inherit parents down.levels) request := by
  induction words generalizing g s parents with
  | nil => rfl
  | cons word words ih =>
      cases words with
      | nil => rfl
      | cons next rest =>
          rw [resolveFrom, List.dropLast_cons_cons, descend]
          cases s.feed g word with
          | error e => rfl
          | ok fed =>
              cases fed with
              | next s₁ => exact ih
              | delegate child =>
                  simp only
                  rw [ih]
                  cases child.descend (start child) (next :: rest).dropLast <;> rfl

/-- Words that lead somewhere leave the words after them to be completed there. -/
theorem resolveFrom_of_descend {pre rest : List String} (h : g.descend s pre = .ok down)
    (hrest : rest ≠ []) :
    resolveFrom host request g parents s (pre ++ rest) =
      resolveFrom host request down.grammar (inherit parents down.levels) down.state rest := by
  induction pre generalizing g s parents down with
  | nil =>
      cases h
      rfl
  | cons word pre ih =>
      obtain ⟨next, later, hnext⟩ := List.exists_cons_of_ne_nil (l := pre ++ rest) (by simp [hrest])
      rw [List.cons_append, hnext, resolveFrom, ← hnext]
      rw [descend] at h
      cases hfeed : s.feed g word with
      | error e => simp [hfeed] at h
      | ok fed =>
          cases fed with
          | next s₁ =>
              simp only [hfeed] at h
              exact ih h
          | delegate child =>
              simp only [hfeed] at h
              cases hbelow : child.descend (start child) pre with
              | error e => simp [hbelow, Except.map] at h
              | ok below =>
                  rw [hbelow] at h
                  cases h
                  exact ih hbelow

/-- **Completing a line is completing its last word where the words before lead.** -/
theorem tryResolve_eq_descend (hline : line ≠ []) :
    g.tryResolve host parents line request =
      (g.descend (start g) (wordsBefore line request.text)).bind fun down =>
        down.state.complete down.grammar host (inherit parents down.levels) request := by
  have hnonempty : normalizeWords line request.text ≠ [] := normalizeWords_ne_nil hline
  obtain ⟨command, rest, hwords⟩ := List.exists_cons_of_ne_nil hnonempty
  rw [tryResolve, wordsBefore, hwords]
  exact resolveFrom_eq_descend

/-! ## What is passed down -/

theorem get?_passedDown (h : values.DestsDistinct) :
    (g.passedDown parents values name).get? dest =
      ((⟨g, values, name⟩ : Level).get? dest).or (parents.get? dest) := by
  have hmerged : (parents.overlay values).get? dest = (values.get? dest).or (parents.get? dest) :=
    ArgTokens.get?_overlay h
  unfold passedDown Level.get? Level.recordsUnder
  cases g.dispatch? with
  | none => simpa using hmerged
  | some slot =>
      by_cases hrecords : slot.arg.recordsDest = true
      · by_cases hdest : dest = slot.arg.dest
        · simp [hrecords, hdest]
        · have hne : (slot.arg.dest == dest) = false := beq_false_of_ne (Ne.symm hdest)
          simp [hrecords, hdest, hne, hmerged]
      · simp [hrecords, hmerged]

@[simp] theorem inherit_nil : inherit parents [] = parents := rfl

/-- **The nearest level wins**: what is passed down under a destination is what the innermost level
that has it under that destination has there. -/
theorem get?_inherit {levels : List Level} (h : ∀ l ∈ levels, l.values.DestsDistinct) :
    (inherit parents levels).get? dest =
      (levels.reverse.findSome? (·.get? dest)).or (parents.get? dest) := by
  induction levels generalizing parents with
  | nil => rfl
  | cons l levels ih =>
      obtain ⟨hl, hlevels⟩ := List.forall_mem_cons.mp h
      calc (inherit parents (l :: levels)).get? dest
          = (inherit (l.grammar.passedDown parents l.values l.name) levels).get? dest := rfl
        _ = (levels.reverse.findSome? (·.get? dest)).or ((l.get? dest).or (parents.get? dest)) := by
            rw [ih hlevels, get?_passedDown hl]
        _ = ((l :: levels).reverse.findSome? (·.get? dest)).or (parents.get? dest) := by
            rw [List.reverse_cons, List.findSome?_append, List.findSome?_singleton, Option.or_assoc]

end Grammar

/-! ## The values of the levels -/

namespace Replay

theorem descend_destsDistinct (h : g.descend (start g) words = .ok down) :
    down.state.values.DestsDistinct ∧ ∀ l ∈ down.levels, l.values.DestsDistinct := by
  have hstart : ∀ g : Grammar, (start g).values.DestsDistinct := fun _ => ArgTokens.empty_destsDistinct
  obtain ⟨hlast, hlevels⟩ :=
    Grammar.descend_invariant (I := fun _ s => s.values.DestsDistinct) hstart Step.destsDistinct
      (hstart g) h
  refine ⟨hlast, ?_⟩
  intro l hl
  obtain ⟨t, ht, hvalues⟩ := hlevels l hl
  rw [hvalues]
  exact ht

end Replay

end TabCompletion
