import TabCompletion.Proofs.Replay.Exclusive
import TabCompletion.Proofs.Replay.Refusal

/-!
# After flags are turned off

Four kinds of word turn flags off: the end of options, a flag and a positional that take everything,
and the value before such a positional. None turns them on again (`Step.flagsOff`), so from then on
every word is a value or the end of a flag's values, and it is completed as a value
(`flags_stay_off`).
-/

namespace TabCompletion.Replay

variable {g : Grammar} {s s' : Replay} {word : String} {words : List String} {r : Role}
  {rs : List Role} {p : Progress} {e : Interruption} {host : Host} {parents : ArgTokens}
  {request : CompletionRequest}

/-! ## Reading -/

theorem reading_ne_flag (hoff : s.flagsOff = true) : s.reading g word ≠ .flag := by
  intro hread
  have hon := (isBoundary_of_reading (Or.inr hread)).1
  rw [hoff] at hon
  contradiction

/-- A positional that is given a word does not turn flags on. -/
theorem withPositionalValue_flagsOff_of_off (hoff : s.flagsOff = true) :
    (s.withPositionalValue p word).flagsOff = true := by
  rw [withPositionalValue_eq]
  simp [hoff]

/-- **No step turns flags on**, and none reads a flag where they are off. -/
theorem Step.flagsOff (hoff : s.flagsOff = true) (hstep : Step g s word r s') :
    s'.flagsOff = true ∧ ∀ slot?, r ≠ .flag slot? := by
  cases hstep with
  | remainderValue | remainderFlagValue | remainderFlagEnd | flagValue | passedOver =>
      exact ⟨hoff, by simp⟩
  | endOfOptions ho hon | unknownFlag ho hon | flag ho hon =>
      -- A flag decides anew whether others are read, but it is read itself only where they are.
      rw [hoff] at hon
      contradiction
  | activeValue ho hv hf hp hclaim =>
      refine ⟨withPositionalValue_flagsOff_of_off ?_, by simp⟩
      rw [(claimGroup_narrows hclaim).flagsOff]
      exact hoff
  | nextValue ho hv hf hp hpending hsub hclaim =>
      refine ⟨withPositionalValue_flagsOff_of_off ?_, by simp⟩
      rw [(claimGroup_narrows hclaim).flagsOff]
      exact hoff

/-- A word that is no boundary, or any word where flags are off, is refused only for naming no
subcommand. -/
theorem Coherent.feed_error_of_value (h : Coherent g s)
    (hvalue : s.flagsOff = true ∨ ¬ g.IsBoundary word) (hfeed : s.feed g word = .error e) :
    e = .unknownSubcommand word := by
  have hboundary : ¬(s.flagsOff = false ∧ g.IsBoundary word) := by
    rintro ⟨hon, hb⟩
    rcases hvalue with hoff | hb'
    · rw [hoff] at hon
      contradiction
    · exact hb' hb
  rcases feed_error_cases hfeed with ⟨hon, hb, -⟩ | ⟨name, other, rfl⟩ | hunknown
  · exact absurd ⟨hon, hb⟩ hboundary
  · exact absurd (isBoundary_of_reading (Or.inr (h.feed_conflict_iff.mp hfeed).1)) hboundary
  · exact hunknown

/-- Where flags are off, a word is refused only for naming no subcommand. -/
theorem Coherent.feed_error_of_flagsOff (h : Coherent g s) (hoff : s.flagsOff = true)
    (hfeed : s.feed g word = .error e) : e = .unknownSubcommand word :=
  h.feed_error_of_value (Or.inl hoff) hfeed

/-! ## Completing -/

theorem target_ne_flags (hoff : s.flagsOff = true) : s.target g word ≠ .flags := by
  intro ht
  have hon := (target_eq_flags.mp ht).2
  rw [hoff] at hon
  contradiction

/-- The answer where a word can only be a value: the candidates of the argument whose turn it is, or
a hint in their place, and nothing if no argument takes a word. -/
def valueAnswer (s : Replay) (host : Host) (parents : ArgTokens) (request : CompletionRequest) :
    Except Interruption Answer :=
  match s.receiver with
  | none => .ok {}
  | some p =>
    let scope : Scope := { host, parents, values := s.values }
    match scope.completeArg p.arg request with
    | .error e => .error e
    | .ok c => if c.items.isEmpty then .ok (scope.hintFor p.arg) else .ok { completions := c }

/-- A word that is not completed as a flag, and cannot become one, is completed as a value. -/
theorem complete_eq_valueAnswer (ht : s.target g request.text ≠ .flags)
    (hlone : s.flagsOff = true ∨ g.isSinglePrefixChar request.text = false) :
    s.complete g host parents request = s.valueAnswer host parents request := by
  have hnoflag : (g.isSinglePrefixChar request.text && !s.flagsOff) = false := by
    rcases hlone with hoff | hlone
    · rw [hoff, Bool.not_true, Bool.and_false]
    · rw [hlone, Bool.false_and]
  unfold valueAnswer
  cases hr : s.receiver with
  | none =>
      have hnothing := (target_eq_nothing_iff ht).mpr hr
      simp only [complete, hnothing, hnoflag, Bool.false_eq_true, if_false]
  | some p =>
      have hhint : (!g.isSinglePrefixChar request.text || s.flagsOff) = true := by
        rw [← Bool.not_not (b := s.flagsOff), ← Bool.not_and, hnoflag, Bool.not_false]
      rw [complete_eq_completeValue ht hr, completeValue]
      simp only
      cases ({ host, parents, values := s.values } : Scope).completeArg p.arg request with
      | error e => rfl
      | ok c => cases hitems : c.items.isEmpty <;> simp [hitems, Bool.or_assoc, hhint]

/-- **Where flags are off a word is completed as a value**, whatever flags the grammar has. -/
theorem complete_of_flagsOff (hoff : s.flagsOff = true) :
    s.complete g host parents request = s.valueAnswer host parents request :=
  complete_eq_valueAnswer (target_ne_flags hoff) (Or.inl hoff)

/-! ## Runs -/

/-- Flags are off, and no word of the run since turned out to be one. -/
structure WithoutFlags (g : Grammar) (rs : List Role) (s : Replay) : Prop where
  coherent : Coherent g s
  flagsOff : s.flagsOff = true
  roles : ∀ slot?, Role.flag slot? ∉ rs

theorem WithoutFlags.step (h : WithoutFlags g rs s) (hstep : Step g s word r s') :
    WithoutFlags g (rs ++ [r]) s' := by
  obtain ⟨hoff, hr⟩ := hstep.flagsOff h.flagsOff
  refine ⟨h.coherent.step hstep, hoff, ?_⟩
  intro slot? hin
  rcases List.mem_append.mp hin with hin | hin
  · exact h.roles slot? hin
  · exact hr slot? (List.mem_singleton.mp hin).symm

/-- **Flags that are off stay off.** From a state after a run on, in which flags are off, no word
that is read turns out to be a flag. In every state that further words lead to without handing over,
flags are off: the next word is not read as a flag, it is refused only for naming no subcommand, and
it is completed as a value. -/
theorem flags_stay_off (hrun : feedAll g (start g) words = .ok (.next s)) (hoff : s.flagsOff = true)
    (more : List String) :
    (∀ slot?, Role.flag slot? ∉ roles g s more) ∧
    ∀ t, feedAll g s more = .ok (.next t) →
      t.flagsOff = true ∧
      (∀ word, t.reading g word ≠ .flag) ∧
      (∀ word e, t.feed g word = .error e → e = .unknownSubcommand word) ∧
      ∀ host parents request, t.complete g host parents request = t.valueAnswer host parents request := by
  have hs : WithoutFlags g [] s := ⟨feedAll_coherent hrun, hoff, by simp⟩
  obtain ⟨t', ht', hlast⟩ := roles_invariant WithoutFlags.step hs more
  refine ⟨ht'.roles, ?_⟩
  intro t ht
  rw [hlast t ht]
  refine ⟨ht'.flagsOff, ?_, ?_, ?_⟩
  · intro word
    exact reading_ne_flag ht'.flagsOff
  · intro word e hfeed
    exact ht'.coherent.feed_error_of_flagsOff ht'.flagsOff hfeed
  · intro host parents request
    exact complete_of_flagsOff ht'.flagsOff

/-- A command with a flag that takes everything up to the end of options, and one that takes
nothing. -/
def executing : GrammarSpec :=
  { prog := "cmd"
    items :=
      [.arg { aliases := ["--exec"], nargs := some .remainder },
        .arg { aliases := ["--v"], action := .storeTrue },
        .arg { name := some "name" }] }

theorem flag_after_end_is_name :
    ∃ g s t, executing.build = .ok g ∧
      feedAll g (start g) ["--exec", "ls", "-l", "--"] = .ok (.next s) ∧ s.flagsOff = true ∧
      feedAll g s ["--v"] = .ok (.next t) ∧ t.values.get? "name" = some ["--v"] ∧
      t.flagsOff = true ∧ t.reading g "--v" ≠ .flag ∧
      ∀ request, t.complete g {} .empty request = t.valueAnswer {} .empty request := by
  obtain ⟨g, s, t, hbuild, hrun, hoff, hmore, hname⟩ :
      ∃ g s t, executing.build = .ok g ∧
        feedAll g (start g) ["--exec", "ls", "-l", "--"] = .ok (.next s) ∧ s.flagsOff = true ∧
        feedAll g s ["--v"] = .ok (.next t) ∧ t.values.get? "name" = some ["--v"] :=
    ⟨_, _, _, rfl, rfl, rfl, rfl, rfl⟩
  obtain ⟨-, hlater⟩ := flags_stay_off hrun hoff ["--v"]
  obtain ⟨htoff, hread, -, hcomplete⟩ := hlater t hmore
  exact ⟨g, s, t, hbuild, hrun, hoff, hmore, hname, htoff, hread "--v", hcomplete {} .empty⟩

end TabCompletion.Replay
