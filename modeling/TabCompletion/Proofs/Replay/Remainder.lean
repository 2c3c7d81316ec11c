import TabCompletion.Proofs.Replay.FlagsOff
import TabCompletion.Proofs.Replay.Unfinished

/-!
# Arguments that take everything

A positional that takes everything that follows takes every word (`feedAll_remainderPositional`), a flag
that does so every word before the end of options (`feedAll_remainderFlag`). Either is completed first,
since flags are off while it is active. Once the end of options has closed such a flag, flags stay off
and every word goes to the positionals (`PositionalsOnly.feed_eq`).
-/

namespace TabCompletion.Replay

variable {g : Grammar} {s s' : Replay} {p : Progress} {r : Role} {word : String} {words : List String}

/-! ## Taking words -/

/-- The state after words became values of the active positional `p`. -/
def withPositionalWords (s : Replay) (p : Progress) (words : List String) : Replay :=
  { s with
    positional := some (p.advanceBy words.length)
    values := s.values.pushAll p.arg.dest words }

/-- The state after words became values of the active flag `p`. -/
def withFlagWords (s : Replay) (p : Progress) (words : List String) : Replay :=
  { s with
    flag := some (p.advanceBy words.length)
    values := s.values.pushAll p.arg.dest words }

/-- **A positional that takes everything takes every word**, whatever it is. -/
theorem feedAll_remainderPositional (hp : s.positional = some p) (hr : p.isRemainder = true) :
    feedAll g s words = .ok (.next (s.withPositionalWords p words)) := by
  induction words generalizing s p with
  | nil =>
      rw [feedAll, withPositionalWords, List.length_nil, Progress.advanceBy_zero, ArgTokens.pushAll_nil,
        ← hp]
  | cons word words ih =>
      have hstep : Step g s word (.value p.slot) _ := .remainderValue hp hr
      have hrun : feedAll g
          { s with positional := some p.advance, values := s.values.push p.arg.dest word } words =
            .ok (.next _) := ih rfl hr
      rw [feedAll, hstep.feed_eq]
      simp only [hrun, withPositionalWords, Progress.advance_advanceBy, List.length_cons,
        Progress.advance_arg, ArgTokens.pushAll_cons]

/-- **A flag that takes everything takes every word before the end of options.** -/
theorem feedAll_remainderFlag (ho : s.PositionalOpen) (hf : s.flag = some p) (hr : p.isRemainder = true)
    (hend : TabCompletion.endOfOptions ∉ words) :
    feedAll g s words = .ok (.next (s.withFlagWords p words)) := by
  induction words generalizing s p with
  | nil =>
      rw [feedAll, withFlagWords, List.length_nil, Progress.advanceBy_zero, ArgTokens.pushAll_nil, ← hf]
  | cons word words ih =>
      rw [List.mem_cons, not_or] at hend
      obtain ⟨hword, hwords⟩ := hend
      have hstep : Step g s word (.value p.slot) _ := .remainderFlagValue ho hf hr (Ne.symm hword)
      have hrun : feedAll g
          { s with flag := some p.advance, values := s.values.push p.arg.dest word } words =
            .ok (.next _) := ih ho rfl hr hwords
      rw [feedAll, hstep.feed_eq]
      simp only [hrun, withFlagWords, Progress.advance_advanceBy, List.length_cons, Progress.advance_arg,
        ArgTokens.pushAll_cons]

/-- Beside an active flag no positional takes everything. -/
theorem Coherent.positionalOpen_of_flag (h : Coherent g s) (hf : s.flag = some p) :
    s.PositionalOpen := by
  intro q hq
  by_contra hr
  have hnone := ((h.positional hq).remainder (by simpa using hr)).2
  rw [hf] at hnone
  contradiction

/-! ## After the end of options -/

/-- Flags are off and none is active, so that every word goes to the positionals. -/
structure PositionalsOnly (g : Grammar) (s : Replay) : Prop where
  coherent : Coherent g s
  flagsOff : s.flagsOff = true
  flag : s.flag = none

theorem PositionalsOnly.step (h : PositionalsOnly g s) (hstep : Step g s word r s') :
    PositionalsOnly g s' := by
  refine ⟨h.coherent.step hstep, (hstep.flagsOff h.flagsOff).1, ?_⟩
  -- Only a flag that is met becomes active, and none is met where flags are off.
  cases hstep with
  | remainderValue | passedOver => exact h.flag
  | remainderFlagEnd | endOfOptions | unknownFlag => rfl
  | remainderFlagValue ho hf | flagValue ho hv hf =>
      rw [h.flag] at hf
      contradiction
  | flag ho hon =>
      rw [h.flagsOff] at hon
      contradiction
  | activeValue ho hv hf hp hclaim =>
      rw [withPositionalValue_flag, (claimGroup_narrows hclaim).flag]
      exact h.flag
  | nextValue ho hv hf hp hpending hsub hclaim =>
      rw [withPositionalValue_flag, (claimGroup_narrows hclaim).flag]
      exact h.flag

/-- **Where flags are off and none is active, reading a word is reading it as a positional.** -/
theorem PositionalsOnly.feed_eq (h : PositionalsOnly g s) (word : String) :
    s.feed g word = s.feedPositional g word := by
  rcases remainder_cases s with ⟨p, hp, hr⟩ | ⟨ho, p, hf, hr⟩ | ho
  · -- Such a positional has its group, so that reading it as any other comes to the same.
    have howns := (h.coherent.positional hp).owns
    have hfull : p.advance.isFull = false := Progress.isFull_of_isRemainder hr
    have hvalue : s.feedValue g p word = .ok (s.withPositionalValue p word) :=
      feedValue_eq_ok.mpr ⟨s, claimGroup_of_owns howns, rfl⟩
    rw [(Step.remainderValue hp hr).feed_eq, feedPositional_of_active hp, hvalue, withPositionalValue_eq]
    simp [hfull, h.flagsOff, Except.map]
  · rw [h.flag] at hf
    contradiction
  · exact feed_of_positional ho (Or.inl h.flagsOff) h.flag

/-- **What takes everything takes the words as they are.** In the state after a run, a positional that
takes everything takes all further words, whatever they are: they are added to its values and change
nothing but these and their number, and every word after them is completed as its value first. A flag
that takes everything does the same with words before the end of options. That does nothing but end
the flag; every word after it is read as a positional. -/
theorem remainder_takes_everything (hrun : feedAll g (start g) words = .ok (.next s)) :
    (∀ p, s.positional = some p → p.isRemainder = true → ∀ more,
      feedAll g s more = .ok (.next (s.withPositionalWords p more)) ∧
      ∀ host parents request, AsksFirst g (s.withPositionalWords p more) host parents
        (p.advanceBy more.length) request) ∧
    (∀ p, s.flag = some p → p.isRemainder = true → ∀ more, TabCompletion.endOfOptions ∉ more →
      feedAll g s more = .ok (.next (s.withFlagWords p more)) ∧
      (∀ host parents request, AsksFirst g (s.withFlagWords p more) host parents
        (p.advanceBy more.length) request) ∧
      feedAll g s (more ++ [TabCompletion.endOfOptions]) =
        .ok (.next { s.withFlagWords p more with flag := none }) ∧
      ∀ rest t, feedAll g s (more ++ TabCompletion.endOfOptions :: rest) = .ok (.next t) →
        ∀ word, t.feed g word = t.feedPositional g word) := by
  have hs := feedAll_coherent hrun
  constructor
  · intro p hp hr more
    obtain ⟨hoff, hf⟩ := (hs.positional hp).remainder hr
    refine ⟨feedAll_remainderPositional hp hr, ?_⟩
    intro host parents request
    have ht : (s.withPositionalWords p more).target g request.text ≠ .flags := target_ne_flags hoff
    exact asksFirst ht (receiver_of_positional hf rfl)
  · intro p hf hr more hend
    have hoff : s.flagsOff = true := (hs.flag hf).flagsOff.trans hr
    have ho := hs.positionalOpen_of_flag hf
    have htaken : feedAll g s more = .ok (.next (s.withFlagWords p more)) :=
      feedAll_remainderFlag ho hf hr hend
    have hended : Step g (s.withFlagWords p more) TabCompletion.endOfOptions .endOfOptions
        { s.withFlagWords p more with flag := none } := .remainderFlagEnd ho rfl hr rfl
    refine ⟨htaken, ?_, ?_, ?_⟩
    · intro host parents request
      have ht : (s.withFlagWords p more).target g request.text ≠ .flags := target_ne_flags hoff
      exact asksFirst ht (receiver_of_flag rfl)
    · rw [feedAll_append htaken, feedAll_singleton, hended.feed_eq]
    · intro rest t hrest word
      have hafter : PositionalsOnly g { s.withFlagWords p more with flag := none } :=
        ⟨(feedAll_invariant Coherent.step hs htaken).step hended, hoff, rfl⟩
      rw [feedAll_append htaken, feedAll, hended.feed_eq] at hrest
      exact (feedAll_invariant PositionalsOnly.step hafter hrest).feed_eq word

/-- A command with a flag and a positional that take everything, a flag that takes nothing, and a
subcommand. -/
def wrapping : GrammarSpec :=
  { prog := "wrap"
    items :=
      [.arg { aliases := ["--exec"], nargs := some .remainder },
        .arg { aliases := ["--v"], action := .storeTrue },
        .arg { name := some "args", nargs := some .remainder },
        .subcommand "stop" default] }

theorem wrapped_words_are_values :
    ∃ g s t u, wrapping.build = .ok g ∧
      feedAll g (start g) ["ls", "--v", "--", "stop"] = .ok (.next s) ∧
      s.values.get? "args" = some ["ls", "--v", "--", "stop"] ∧
      feedAll g (start g) ["--exec", "ls", "--v", "stop"] = .ok (.next t) ∧
      t.values.get? "exec" = some ["ls", "--v", "stop"] ∧
      t.feed g "--" = .ok (.next u) ∧ u.feed g "--v" = u.feedPositional g "--v" := by
  obtain ⟨g, s, p, t, q, hbuild, hs, hp, hpr, hargs, ht, hq, hqr, hexec⟩ :
      ∃ g s p t q, wrapping.build = .ok g ∧ feedAll g (start g) ["ls"] = .ok (.next s) ∧
        s.positional = some p ∧ p.isRemainder = true ∧
        (s.withPositionalWords p ["--v", "--", "stop"]).values.get? "args" =
          some ["ls", "--v", "--", "stop"] ∧
        feedAll g (start g) ["--exec"] = .ok (.next t) ∧ t.flag = some q ∧ q.isRemainder = true ∧
        (t.withFlagWords q ["ls", "--v", "stop"]).values.get? "exec" = some ["ls", "--v", "stop"] :=
    ⟨_, _, _, _, _, rfl, rfl, rfl, rfl, rfl, rfl, rfl, rfl, rfl⟩
  obtain ⟨hpositional, -⟩ := remainder_takes_everything hs
  obtain ⟨-, hflag⟩ := remainder_takes_everything ht
  obtain ⟨hswallowed, -⟩ := hpositional p hp hpr ["--v", "--", "stop"]
  obtain ⟨htaken, -, hended, hlater⟩ := hflag q hq hqr ["ls", "--v", "stop"] (by decide)
  refine ⟨g, _, _, _, hbuild, (feedAll_append hs).trans hswallowed, hargs,
    (feedAll_append ht).trans htaken, hexec, ?_, hlater [] _ hended "--v"⟩
  rw [feedAll_append htaken, feedAll_singleton] at hended
  exact hended

end TabCompletion.Replay
