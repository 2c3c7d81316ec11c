import TabCompletion.Proofs.Replay.Refusal
import TabCompletion.Proofs.Replay.Tally

/-!
# Arguments with too few values

A flag that is met takes the words after it, as far as they are no boundaries and it has room
(`feedAll_flagValues`). So whether the next boundary is refused depends on their number alone
(`unfinished_flag_is_refused`). A positional is not held to its least number: a flag may stand among
its values, and the positional waits for the rest (`short_positional_waits`).
-/

namespace TabCompletion

def Progress.advanceBy (p : Progress) (n : Nat) : Progress := { p with count := p.count + n }

namespace Progress

variable {p : Progress} {n : Nat} {f : Slot}

@[simp] theorem arg_mk : ({ slot := f, count := n } : Progress).arg = f.arg := rfl

@[simp] theorem advanceBy_zero : p.advanceBy 0 = p := rfl

@[simp] theorem advance_advanceBy : p.advance.advanceBy n = p.advanceBy (n + 1) := by
  simp only [advanceBy, advance, Nat.add_assoc, Nat.add_comm 1 n]

@[simp] theorem isUnfinished_advanceBy :
    (p.advanceBy n).isUnfinished = decide (p.count + n < p.arg.arity.min) := rfl

@[simp] theorem unfinished_advanceBy :
    (p.advanceBy n).unfinished =
      .unfinishedArgument p.arg.displayName p.arg.arity (p.count + n) := rfl

/-- The argument may take some more values. -/
def HasRoom (p : Progress) (n : Nat) : Prop :=
  ∀ most, p.arg.arity.max = some most → p.count + n ≤ most

theorem HasRoom.advance (h : p.HasRoom (n + 1)) : p.advance.HasRoom n := by
  intro most hmax
  have hmost := h most hmax
  show p.count + 1 + n ≤ most
  omega

/-- An argument that is full after one more value has room for no other. -/
theorem HasRoom.eq_zero_of_isFull (h : p.HasRoom (n + 1)) (hfull : p.advance.isFull = true) :
    n = 0 := by
  obtain ⟨most, hmax, hcount⟩ := isFull_eq_true.mp hfull
  have hmost := h most hmax
  rw [advance_count] at hcount
  omega

/-- An argument has room while its values are fewer than the least number, if that is no more than
the most. -/
theorem isFull_advanceBy_of_lt (hfew : p.count + n < p.arg.arity.min)
    (hbounds : ∀ most, p.arg.arity.max = some most → p.arg.arity.min ≤ most) :
    (p.advanceBy n).isFull = false := by
  rw [isFull_eq_false]
  intro most hmax
  exact Nat.lt_of_lt_of_le hfew (hbounds most hmax)

end Progress

namespace Replay

variable {g : Grammar} {spec : GrammarSpec} {s s₁ : Replay} {word : String} {words vs : List String}
  {p : Progress} {f : Slot}

/-! ## The values of a flag -/

/-- A flag that is met and takes values is active, and decides whether others are still read. -/
theorem Step.begins (hstep : Step g s word (.flag (some f)) s₁)
    (htakes : f.arg.arity.takesNoValues = false) :
    s₁.flag = some { slot := f } ∧ s₁.flagsOff = f.arg.isRemainder := by
  cases hstep with
  | flag ho hoff hw hlook hdone hmatch hclaim =>
      rw [withFlag_eq]
      simp [htakes]

/-- **The words after a flag become its values**, as far as they are no boundaries and it has room;
it is done once it is full. -/
theorem feedAll_flagValues (ho : s.IsOpen) (hf : s.flag = some p) (hfull : p.isFull = false)
    (hvalues : ∀ v ∈ vs, ¬ g.IsBoundary v) (hroom : p.HasRoom vs.length) :
    feedAll g s vs = .ok (.next
      { s with
        flag := if (p.advanceBy vs.length).isFull then none else some (p.advanceBy vs.length)
        values := s.values.pushAll p.arg.dest vs }) := by
  induction vs generalizing s p with
  | nil =>
      rw [feedAll, List.length_nil, Progress.advanceBy_zero, hfull, if_neg Bool.false_ne_true, ← hf,
        ArgTokens.pushAll_nil]
  | cons v vs ih =>
      obtain ⟨hv, hvs⟩ := List.forall_mem_cons.mp hvalues
      have hstep : Step g s v (.value p.slot) _ := .flagValue ho (readsValue_of_not_isBoundary hv) hf
      rw [feedAll, hstep.feed_eq]
      by_cases hlast : p.advance.isFull = true
      · obtain rfl : vs = [] := List.eq_nil_of_length_eq_zero (hroom.eq_zero_of_isFull hlast)
        rfl
      · have hopen : p.advance.isFull = false := by simpa using hlast
        have hstill : ∀ q, some p.advance = some q → q.isRemainder = false := by
          intro q hq
          cases hq
          exact ho.flag p hf
        have hrun : feedAll g
            { s with flag := some p.advance, values := s.values.push p.arg.dest v } vs =
              .ok (.next _) := ih ⟨ho.positional, hstill⟩ rfl hopen hvs hroom.advance
        simp only [if_neg hlast, hrun, Progress.advance_advanceBy, List.length_cons,
          Progress.advance_arg, ArgTokens.pushAll_cons]

theorem Coherent.feedAll_values (h : Coherent g s) (hon : s.flagsOff = false)
    (hf : s.flag = some p) (hvalues : ∀ v ∈ vs, ¬ g.IsBoundary v) (hroom : p.HasRoom vs.length) :
    ∃ t, feedAll g s vs = .ok (.next t) ∧ Coherent g t ∧ t.flagsOff = false ∧
      t.flag = if (p.advanceBy vs.length).isFull then none else some (p.advanceBy vs.length) := by
  have hrun := feedAll_flagValues (h.isOpen hon) hf (h.flag hf).room hvalues hroom
  exact ⟨_, hrun, feedAll_invariant Coherent.step h hrun, hon, rfl⟩

/-- **A flag with too few values is found out at the next boundary, and no other flag is.** In the
state after a run of a built grammar, let a word name a flag that takes values, but not everything
that follows, and let words that are no boundaries follow, no more than the flag may take. They are
read; and if they are fewer than the flag needs, every boundary is refused with the flag's name, its
bounds and their number, and so is every word that is completed as a flag. Otherwise nothing is
refused for want of values. -/
theorem unfinished_flag_is_refused (hbuild : spec.build = .ok g)
    (hrun : feedAll g (start g) words = .ok (.next s))
    (hrole : s.role g word = .flag (some f)) (hfeed : s.feed g word = .ok (.next s₁))
    (hremainder : f.arg.isRemainder = false) (htakes : f.arg.arity.max ≠ some 0)
    (hvalues : ∀ v ∈ vs, ¬ g.IsBoundary v)
    (hroom : ∀ most, f.arg.arity.max = some most → vs.length ≤ most) :
    ∃ t, feedAll g s₁ vs = .ok (.next t) ∧
      (vs.length < f.arg.arity.min →
        (∀ b, g.IsBoundary b → t.feed g b =
          .error (.unfinishedArgument f.arg.displayName f.arg.arity vs.length)) ∧
        ∀ host parents (request : CompletionRequest), g.looksLikeFlag request.text = true →
          t.complete g host parents request =
            .error (.unfinishedArgument f.arg.displayName f.arg.arity vs.length)) ∧
      (f.arg.arity.min ≤ vs.length →
        (∀ b name arity entered, t.feed g b ≠ .error (.unfinishedArgument name arity entered)) ∧
        ∀ host parents request name arity entered,
          t.complete g host parents request ≠ .error (.unfinishedArgument name arity entered)) := by
  obtain ⟨r, hstep⟩ := feed_next_iff.mp hfeed
  obtain rfl : r = .flag (some f) := hstep.role_eq.symm.trans hrole
  have hs₁ : Coherent g s₁ := (feedAll_coherent hrun).step hstep
  have hno : f.arg.arity.takesNoValues = false := by simpa [Arity.takesNoValues] using htakes
  obtain ⟨hflag, hoff⟩ := hstep.begins hno
  have hmem : f ∈ g.slots := (hs₁.flag hflag).mem
  have hbounds : ∀ most, f.arg.arity.max = some most → f.arg.arity.min ≤ most :=
    fun most hmax => Grammar.build_min_le_max hbuild hmem hmax
  have hmost : Progress.HasRoom { slot := f } vs.length := by simpa [Progress.HasRoom] using hroom
  obtain ⟨t, hvaluesRun, ht, hon, htflag⟩ :=
    hs₁.feedAll_values (hoff.trans hremainder) hflag hvalues hmost
  have hgiven : (({ slot := f } : Progress).advanceBy vs.length).unfinished =
      .unfinishedArgument f.arg.displayName f.arg.arity vs.length := by
    rw [Progress.unfinished_advanceBy, Progress.arg_mk, Nat.zero_add]
  refine ⟨t, hvaluesRun, ?_, ?_⟩
  · intro hfew
    have hless : 0 + vs.length < f.arg.arity.min := by simpa using hfew
    have hfull : (({ slot := f } : Progress).advanceBy vs.length).isFull = false :=
      Progress.isFull_advanceBy_of_lt hless hbounds
    rw [hfull, if_neg Bool.false_ne_true] at htflag
    rw [← hgiven]
    exact ht.refuses_of_isUnfinished hon htflag (decide_eq_true hless)
  · intro henough
    -- The flag is done, or still active with as many values as it needs.
    apply ht.not_refuses
    intro q hq
    rw [htflag] at hq
    split at hq
    · contradiction
    · cases hq
      simpa using henough

/-- A command with a flag that takes two or three values. -/
def pairing : GrammarSpec :=
  { prog := "cmd"
    items :=
      [.arg { aliases := ["--pair"], nargs := some (.range 2 (some 3)) },
        .arg { aliases := ["--verbose"], action := .storeTrue }] }

theorem half_a_pair_is_refused :
    ∃ g s t, pairing.build = .ok g ∧ (start g).feed g "--pair" = .ok (.next s) ∧
      feedAll g s ["a"] = .ok (.next t) ∧
      t.feed g "--verbose" = .error (.unfinishedArgument "--pair" ⟨2, some 3⟩ 1) ∧
      t.feed g "--" = .error (.unfinishedArgument "--pair" ⟨2, some 3⟩ 1) := by
  obtain ⟨g, s, f, hbuild, hrole, hfeed, hremainder, hname, harity, hvalue, hlook⟩ :
      ∃ g s f, pairing.build = .ok g ∧ (start g).role g "--pair" = .flag (some f) ∧
        (start g).feed g "--pair" = .ok (.next s) ∧ f.arg.isRemainder = false ∧
        f.arg.displayName = "--pair" ∧ f.arg.arity = ⟨2, some 3⟩ ∧
        g.looksLikeFlag "a" = false ∧ g.looksLikeFlag "--verbose" = true :=
    ⟨_, _, _, rfl, rfl, rfl, rfl, rfl, rfl, rfl, rfl⟩
  have hplain : ∀ v ∈ ["a"], ¬ g.IsBoundary v := by
    intro v hv
    rw [List.mem_singleton.mp hv, Grammar.IsBoundary, hvalue]
    decide
  have hrun : feedAll g (start g) [] = .ok (.next (start g)) := rfl
  obtain ⟨t, hvalues, hfew, -⟩ :=
    unfinished_flag_is_refused hbuild hrun hrole hfeed hremainder (by simp [harity]) hplain
      (by simp [harity])
  obtain ⟨hrefused, -⟩ := hfew (by simp [harity])
  rw [hname, harity] at hrefused
  exact ⟨g, s, t, hbuild, hfeed, hvalues, hrefused _ (Or.inr hlook), hrefused _ (Or.inl rfl)⟩

/-! ## Positionals -/

/-- Where no flag is active, a boundary leaves the active positional as it is, unless it names a flag
whose exclusive group a rival has. -/
theorem Coherent.feed_boundary (h : Coherent g s) (hon : s.flagsOff = false) (hf : s.flag = none)
    (hb : g.IsBoundary word) :
    (∃ t, s.feed g word = .ok (.next t) ∧ t.positional = s.positional) ∨
      (word ≠ TabCompletion.endOfOptions ∧
        ∃ name other, s.feed g word = .error (.mutexConflict name other)) := by
  have hdone : s.checkFlag = .ok () := by simp [checkFlag, hf]
  rcases h.reading_of_isBoundary hon hb with hread | hread
  · left
    simp only [feed, hread, hdone]
    exact ⟨_, rfl, rfl⟩
  · cases hfed : ({ s with flag := none } : Replay).feedFlag g word with
    | ok t =>
        left
        have hfeed : s.feed g word = .ok (.next t) := by
          simp only [feed, hread, hdone, hfed, Except.map]
        obtain ⟨r, hstep⟩ := feed_next_iff.mp hfeed
        have hr : ∀ slot, r ≠ .value slot := by
          rw [← hstep.role_eq, role, hread]
          intro slot hslot
          contradiction
        exact ⟨t, hfeed, (hstep.active_of_ne_value hr).1⟩
    | error e =>
        right
        obtain ⟨name, other, rfl⟩ := feedFlag_error hfed
        refine ⟨?_, name, other, by simp only [feed, hread, hdone, hfed, Except.map]⟩
        rintro rfl
        rw [reading_of_endOfOptions (h.isOpen hon) hon rfl] at hread
        contradiction

/-- **A positional with too few values waits for the rest.** In the state after a run, where flags
are read and none is active, no word is refused for want of values, nor is completing one, however
few values the active positional has. A boundary is read and leaves the positional active with its
values, unless it names a flag whose exclusive group a rival has. -/
theorem short_positional_waits (hrun : feedAll g (start g) words = .ok (.next s))
    (hon : s.flagsOff = false) (hf : s.flag = none) (hp : s.positional = some p) :
    (∀ word name arity entered, s.feed g word ≠ .error (.unfinishedArgument name arity entered)) ∧
    (∀ host parents request name arity entered,
      s.complete g host parents request ≠ .error (.unfinishedArgument name arity entered)) ∧
    ∀ b, g.IsBoundary b →
      (∃ t, s.feed g b = .ok (.next t) ∧ t.positional = some p) ∨
        (b ≠ TabCompletion.endOfOptions ∧
          ∃ name other, s.feed g b = .error (.mutexConflict name other)) := by
  have hs := feedAll_coherent hrun
  obtain ⟨hfeed, hcomplete⟩ := hs.not_refuses (by simp [hf])
  refine ⟨hfeed, hcomplete, ?_⟩
  intro b hb
  rw [← hp]
  exact hs.feed_boundary hon hf hb

/-- A command with a positional that takes two values. -/
def copying : GrammarSpec :=
  { prog := "cmd"
    items :=
      [.arg { name := some "pair", nargs := some (.exactly 2)
              choices := some (.fixed [.ofText "left", .ofText "right"]) },
        .arg { aliases := ["--v"], action := .storeTrue }] }

theorem half_a_copy_waits :
    ∃ g s p t, copying.build = .ok g ∧ feedAll g (start g) ["a"] = .ok (.next s) ∧
      s.positional = some p ∧ p.count = 1 ∧ p.arg.arity.min = 2 ∧
      s.feed g "--" = .ok (.next t) ∧ t.positional = some p ∧
      ∀ name arity entered, s.feed g "--v" ≠ .error (.unfinishedArgument name arity entered) := by
  obtain ⟨g, s, p, hbuild, hrun, hon, hf, hp, hcount, hmin⟩ :
      ∃ g s p, copying.build = .ok g ∧ feedAll g (start g) ["a"] = .ok (.next s) ∧
        s.flagsOff = false ∧ s.flag = none ∧ s.positional = some p ∧ p.count = 1 ∧
        p.arg.arity.min = 2 :=
    ⟨_, _, _, rfl, rfl, rfl, rfl, rfl, rfl, rfl⟩
  obtain ⟨hfeed, -, hboundary⟩ := short_positional_waits hrun hon hf hp
  rcases hboundary "--" (Or.inl rfl) with ⟨t, hend, ht⟩ | ⟨hne, -⟩
  · exact ⟨g, s, p, t, hbuild, hrun, hp, hcount, hmin, hend, ht, hfeed "--v"⟩
  · exact absurd rfl hne

/-- **A flag after one of two values does not end the request.** -/
theorem half_a_copy_goes_on :
    ∃ g s p t u answer, copying.build = .ok g ∧ feedAll g (start g) ["a"] = .ok (.next s) ∧
      s.flagsOff = false ∧ s.flag = none ∧ s.positional = some p ∧ p.count = 1 ∧
      p.count < p.arg.arity.min ∧ g.looksLikeFlag "--v" = true ∧
      s.feed g "--v" = .ok (.next t) ∧ s.feed g "--" = .ok (.next u) ∧
      g.tryResolve {} .empty ["cmd", "a", "--v", ""]
          { text := "", line := "cmd a --v ", begidx := 10, endidx := 10 } = .ok answer ∧
      answer.completions.values = ["left", "right"] :=
  ⟨_, _, _, _, _, _, rfl, rfl, rfl, rfl, rfl, rfl, by decide, rfl, rfl, rfl, rfl, rfl⟩

end Replay

end TabCompletion
